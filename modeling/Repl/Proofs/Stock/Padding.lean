import Repl.Proofs.Session.Padding
import Repl.Proofs.Session.Rejection
import Repl.Proofs.Stock.Commands

/-! Sessions of stock commands, which read lines in questions only, and do not see padding. -/

namespace Repl.Stock

open Session

variable {γ : Type} {p : Prop}

theorem printLine_readsLinesIf {text : Bytes} {next : Action γ} (h : next.ReadsLinesIf p) :
    (Action.printLine text next).ReadsLinesIf p :=
  .print (Action.orFail_of (fun _ => .finish) fun _ => h)

/-- No command of the stock reads a line that it has not asked for. -/
theorem Direct.action_readsLinesIf (entries : List HelpEntry) (d : Direct) :
    (d.action entries).ReadsLinesIf p := by
  cases d with
  | present text => exact .update (printLine_readsLinesIf .finish)
  | respond result => exact .finish
  | say text => exact .print (Action.orFail_of (fun _ => .finish) fun _ => .finish)
  | ask noun prompt type orDefault =>
    exact .ask (Action.orFail_of (fun _ => .finish) fun _ => .update .finish)
  | flag settings result =>
    exact Action.setFlags_of (fun _ _ => .setFlag) (.consultFlag fun _ => .update .finish) settings
  | nest =>
    refine .nest fun outcome => ?_
    cases outcome with
    | ok _ => exact .finish
    | error message => exact .finish
  | builtin b =>
    cases b with
    | help => exact printLine_readsLinesIf .finish
    | quit => exact .setFlag (printLine_readsLinesIf .finish)

theorem Command.action_readsLinesIf (r : Registry Command) (c : Command) :
    (c.action r).ReadsLinesIf p := by
  obtain ⟨d, haction, -⟩ | ⟨e, haction⟩ := c.action_cases r
  · rw [haction]
    exact d.action_readsLinesIf r.helpEntries
  · rw [haction]
    exact .finish

/-- White space around the lines that the user types does not matter: on scripts that differ in
nothing else, however many sessions are run, each shows the same. -/
theorem typed_padding_inert (r : Registry Command) (prompts : Prompts)
    {script script' : List ScriptEntry}
    (h : List.Forall₂ ScriptEntry.SameButPadding script script') (rules : List PrintRule)
    (prints : Nat) (logger : Option Log.Logger) (context : Bytes) (flag : RunFlag) (count : Nat) :
    let app := application r prompts
    let start (script : List ScriptEntry) : State Bench Bytes :=
      ⟨⟨⟨.script script, rules, prints⟩, logger⟩, context, flag⟩
    List.Forall₂ ShowsSame (runAll app count (start script))
      (runAll app count (start script')) := by
  intro app start
  have hactions : ∀ c, (app.action c).ReadsLinesIf padding.Reads := Command.action_readsLinesIf r
  have hstart : padding.States () (start script) (start script') :=
    ⟨.mk h rules prints logger, rfl, rfl⟩
  exact (runAll_padded hactions count hstart).imp fun _ _ hsame => hsame.showsSame

/-- In a session and in a question of a command, padded lines do what the lines do. -/
theorem asked_padding_inert :
    let plain : List ScriptEntry := [.line (ascii "ask"), .line (ascii "1"), .line (ascii "q")]
    let padded : List ScriptEntry :=
      [.line (Text.encode 0x3000 ++ ascii "ask"), .line (ascii "1\t"), .line (ascii " q\r")]
    List.Forall₂ ScriptEntry.SameButPadding plain padded ∧ (asked padded).outcome = .ok () ∧
      (asked padded).state.context = ascii "true" := by
  intro plain padded
  have hspelled (cs : List Nat) (h : ∀ c ∈ cs, Text.isWhiteSpace c = true) :
      Text.Blank (cs.flatMap Text.encode) := Text.blank_flatMap_encode h
  have hlines : List.Forall₂ ScriptEntry.SameButPadding plain padded :=
    .cons (.line (Text.sameButPadding_padded (hspelled [0x3000] (by decide)) .nil (ascii "ask")))
      (.cons (.line (Text.sameButPadding_padded .nil (hspelled [0x09] (by decide)) (ascii "1")))
        (.cons (.line (Text.sameButPadding_padded (hspelled [0x20] (by decide))
          (hspelled [0x0D] (by decide)) (ascii "q"))) .nil))
  have hruns := typed_padding_inert ((register asking).outcome.toOption.getD .empty) .standard hlines
    [] 0 none [] .stopped (0 + 1)
  simp only [runAll, List.forall₂_cons] at hruns
  have hended : (asked plain).outcome = .ok () := by decide +kernel
  have hkept : (asked plain).state.context = ascii "true" := by decide +kernel
  exact ⟨hlines, hruns.1.outcome.trans hended, hruns.1.context.trans hkept⟩

end Repl.Stock
