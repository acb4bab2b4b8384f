import Repl.Proofs.Command.Resolution
import Repl.Proofs.Session.Failure
import Repl.Proofs.Session.Reads
import Repl.Session.Stock

/-!
The commands of the stock: what makes them, where a line leads that stands for another one, and how
much they take from a session.
-/

namespace Repl

namespace Action

variable {α γ : Type} {p : Action γ → Prop}

/-- Whatever holds of a command that fails with the terminal, and of how it goes on otherwise, holds
of what it makes of an outcome. -/
theorem orFail_of {next : α → Action γ}
    (hfail : ∀ message, p (.finish (.accessTerminalError message))) (h : ∀ a, p (next a))
    (outcome : Except Bytes α) : p (orFail next outcome) := by
  cases outcome with
  | ok a => exact h a
  | error message => exact hfail message

theorem setFlags_of (hset : ∀ flag next, p next → p (.setFlag flag next)) {next : Action γ}
    (h : p next) (flags : List RunFlag) : p (setFlags flags next) := by
  induction flags with
  | nil => exact h
  | cons flag flags ih => exact hset flag _ ih

end Action

namespace Stock

variable {specs : List Spec} {r : Registry Command} {line : Bytes} {own : Bytes → Prop}

/-! ## What makes a command -/

/-- The commands that a kind of parser makes of its arguments. -/
inductive Kind.Makes : Kind → Bytes → Command → Prop where
  | value {type : ValueType} {arguments : Bytes} {v : Value} (h : type.parse arguments = .ok v) :
    Makes (.value type) arguments (.direct (.present v.render))
  | respond {result : ApplyResult} : Makes (.respond result) [] (.direct (.respond result))
  | say {arguments : Bytes} : Makes .say arguments (.direct (.say arguments))
  | ask {noun prompt : Bytes} {type : ValueType} {orDefault : Bool} :
    Makes (.ask noun prompt type orDefault) [] (.direct (.ask noun prompt type orDefault))
  | flag {settings : List RunFlag} {result : ApplyResult} :
    Makes (.flag settings result) [] (.direct (.flag settings result))
  | nest : Makes .nest [] (.direct .nest)
  | resolve {arguments : Bytes} : Makes .resolve arguments (.resolve arguments)

theorem Kind.makes_of_parse {name arguments : Bytes} {kind : Kind} {c : Command}
    (h : kind.parse name arguments = .ok (some c)) : kind.Makes arguments c := by
  cases kind with
  | value type =>
    change (type.parse arguments).map (fun v => some (Command.direct (.present v.render))) = _ at h
    cases hparse : type.parse arguments with
    | error message => rw [hparse] at h; cases h
    | ok v =>
      rw [hparse] at h
      cases h
      exact .value hparse
  | respond result =>
    obtain ⟨rfl, rfl⟩ := Parser.withoutArguments_eq_ok_iff.1 h
    exact .respond
  | say => cases h; exact .say
  | ask noun prompt type orDefault =>
    obtain ⟨rfl, rfl⟩ := Parser.withoutArguments_eq_ok_iff.1 h
    exact .ask
  | flag settings result =>
    obtain ⟨rfl, rfl⟩ := Parser.withoutArguments_eq_ok_iff.1 h
    exact .flag
  | nest =>
    obtain ⟨rfl, rfl⟩ := Parser.withoutArguments_eq_ok_iff.1 h
    exact .nest
  | resolve => cases h; exact .resolve
  | nothing => cases h
  | reject message => cases h

/-- Some parser of the stock makes the command. -/
inductive Offers (specs : List Spec) : Command → Prop where
  | builtin {b : Builtin} (hspec : .builtin b ∈ specs) : Offers specs (.direct (.builtin b))
  | named {name : Bytes} {shorthand : Option Bytes} {description : Description} {kind : Kind}
    {arguments : Bytes} {c : Command} (hspec : .named name shorthand description kind ∈ specs)
    (hmakes : kind.Makes arguments c) : Offers specs c

/-- A command comes from a parser of the stock, and a line that it leads to is shorter than its own.
-/
theorem offers_of_parse (hr : (register specs).outcome = .ok r) {c : Command}
    (h : r.parse line = .ok c) :
    Offers specs c ∧ ∀ rest, c = .resolve rest → rest.length < line.length := by
  have hanswers := Registry.answers_parse hr line
  rw [h] at hanswers
  cases hanswers with
  | @command _ identifier arguments p _ hline hsplit hp hkey hparse =>
    obtain ⟨spec, hspec, hparser⟩ := List.mem_map.1 hp
    have hshorter : arguments.length < line.length := by
      obtain ⟨-, rfl | ⟨rfl, rfl⟩⟩ := hsplit
      · rw [List.length_append, List.length_cons]
        omega
      · exact List.length_pos_iff.2 hline
    cases spec with
    | missing => cases hparser
    | builtin b =>
      cases hparser
      obtain ⟨-, rfl⟩ := Parser.withoutArguments_eq_ok_iff.1 hparse
      exact ⟨.builtin hspec, fun rest h => by cases h⟩
    | named name shorthand description kind =>
      cases hparser
      have hmakes := Kind.makes_of_parse hparse
      refine ⟨.named hspec hmakes, ?_⟩
      rintro rest rfl
      cases hmakes
      exact hshorter

/-! ## Where a line leads -/

/-- How a line is followed to the command that acts, however many lines there are in between. -/
inductive Settles (r : Registry Command) : Bytes → Except LineError Direct → Prop where
  | refused {line : Bytes} {e : LineError} (h : r.parse line = .error e) :
    Settles r line (.error e)
  | direct {line : Bytes} {d : Direct} (h : r.parse line = .ok (.direct d)) : Settles r line (.ok d)
  | resolve {line rest : Bytes} {answer : Except LineError Direct}
    (h : r.parse line = .ok (.resolve rest)) (hrest : Settles r rest answer) :
    Settles r line answer

theorem Settles.unique {answer other : Except LineError Direct} (h : Settles r line answer)
    (h' : Settles r line other) : answer = other := by
  induction h with
  | refused h =>
    cases h' with
    | refused h' => cases h.symm.trans h'; rfl
    | direct h' => cases h.symm.trans h'
    | resolve h' _ => cases h.symm.trans h'
  | direct h =>
    cases h' with
    | refused h' => cases h.symm.trans h'
    | direct h' => cases h.symm.trans h'; rfl
    | resolve h' _ => cases h.symm.trans h'
  | resolve h _ ih =>
    cases h' with
    | refused h' => cases h.symm.trans h'
    | direct h' => cases h.symm.trans h'
    | resolve h' hrest' =>
      cases h.symm.trans h'
      exact ih hrest'

theorem settles_settleWithin (hr : (register specs).outcome = .ok r) {length : Nat}
    (hlength : line.length ≤ length) : Settles r line (settleWithin r length line) := by
  induction length generalizing line with
  | zero =>
    obtain rfl := List.length_eq_zero_iff.1 (Nat.le_zero.1 hlength)
    exact .refused rfl
  | succ length ih =>
    unfold settleWithin
    cases h : r.parse line with
    | error e => exact .refused h
    | ok c =>
      cases c with
      | direct d => exact .direct h
      | resolve rest =>
        have hshorter := (offers_of_parse hr h).2 rest rfl
        exact .resolve h (ih (by omega))

/-- Every line leads somewhere, and only there. -/
theorem settles_iff (hr : (register specs).outcome = .ok r) {answer : Except LineError Direct} :
    Settles r line answer ↔ answer = settle r line := by
  have hsettle : Settles r line (settle r line) := settles_settleWithin hr (Nat.le_refl _)
  constructor
  · intro h
    exact h.unique hsettle
  · rintro rfl
    exact hsettle

theorem Settles.offers (hr : (register specs).outcome = .ok r) {d : Direct}
    (h : Settles r line (.ok d)) : Offers specs (.direct d) := by
  generalize hanswer : Except.ok d = answer at h
  induction h with
  | refused _ => cases hanswer
  | direct h =>
    cases hanswer
    exact (offers_of_parse hr h).1
  | resolve _ _ ih => exact ih hanswer

/-! ## What a command takes from a session -/

theorem printLine_asksAtMost {γ : Type} {n : Nat} {text : Bytes} {next : Action γ}
    (h : next.AsksAtMost n) : (Action.printLine text next).AsksAtMost n :=
  .print (Action.orFail_of (fun _ => .finish) fun _ => h)

/-- A command of the stock asks one question, or runs one session, if any. -/
theorem Direct.action_asksAtMost (entries : List HelpEntry) (d : Direct) :
    (d.action entries).AsksAtMost 1 := by
  cases d with
  | present text => exact .update (printLine_asksAtMost .finish)
  | respond result => exact .finish
  | say text => exact .print (Action.orFail_of (fun _ => .finish) fun _ => .finish)
  | ask noun prompt type orDefault =>
    exact .ask (Action.orFail_of (fun _ => .finish) fun _ => .update .finish)
  | flag settings result =>
    exact Action.setFlags_of (fun _ _ => .setFlag) (.consultFlag fun _ => .update .finish) settings
  | nest =>
    refine .nest fun outcome => ?_
    cases outcome with
    | ok _ => exact .finish
    | error message => exact .finish
  | builtin b =>
    cases b with
    | help => exact printLine_asksAtMost .finish
    | quit => exact .setFlag (printLine_asksAtMost .finish)

/-- A command acts by itself or as the one that its line leads to, if there is one. -/
theorem Command.action_cases (r : Registry Command) (c : Command) :
    (∃ d, c.action r = d.action r.helpEntries ∧
      (c = .direct d ∨ ∃ line, c = .resolve line ∧ settle r line = .ok d)) ∨
      ∃ e : LineError, c.action r = .finish (.failed e.message) := by
  cases c with
  | direct d => exact .inl ⟨d, rfl, .inl rfl⟩
  | resolve line =>
    cases h : settle r line with
    | ok d => exact .inl ⟨d, by simp only [action, h], .inr ⟨line, rfl, h⟩⟩
    | error e => exact .inr ⟨e, by simp only [action, h]⟩

theorem Command.action_asksAtMost (r : Registry Command) (c : Command) :
    (c.action r).AsksAtMost 1 := by
  obtain ⟨d, haction, -⟩ | ⟨e, haction⟩ := c.action_cases r
  · rw [haction]
    exact d.action_asksAtMost r.helpEntries
  · rw [haction]
    exact .finish

/-! ## What a command makes of a failure -/

theorem printLine_givesUp {γ : Type} {text : Bytes} {next : Action γ} (h : next.GivesUp own) :
    (Action.printLine text next).GivesUp own :=
  .print (fun _ => rfl) fun _ => h

theorem applied_givesUp {γ : Type} : (Action.finish .applied : Action γ).GivesUp own :=
  .finish fun _ h => by cases h

/-- The result of a command that is made with one, whatever happens. -/
def Direct.result? : Direct → Option ApplyResult
  | respond result | flag _ result => some result
  | present _ | say _ | ask .. | nest | builtin _ => none

/-- A command of the stock that runs no session gives up with the terminal; one that is made with a
result may fail without it. -/
theorem Direct.action_givesUp (entries : List HelpEntry) {d : Direct} (hnest : d ≠ .nest)
    (hown : ∀ result message, d.result? = some result → result.accessTerminal = some message →
      own message) : (d.action entries).GivesUp own := by
  cases d with
  | present text => exact .update (printLine_givesUp applied_givesUp)
  | respond result => exact .finish fun message => hown result message rfl
  | say text => exact .print (fun _ => rfl) fun _ => applied_givesUp
  | ask noun prompt type orDefault =>
    exact .ask (fun _ => rfl) fun _ => .update applied_givesUp
  | flag settings result =>
    refine Action.setFlags_of (fun _ _ => .setFlag) (.consultFlag fun _ => .update ?_) settings
    exact .finish fun message => hown result message rfl
  | nest => exact absurd rfl hnest
  | builtin b =>
    cases b with
    | help => exact printLine_givesUp applied_givesUp
    | quit => exact .setFlag (printLine_givesUp applied_givesUp)

/-- A parser of the stock makes a command that fails with the message by itself, as if the terminal
had. -/
def Claims (specs : List Spec) (message : Bytes) : Prop :=
  ∃ name shorthand description kind, .named name shorthand description kind ∈ specs ∧
    (kind = .respond (.accessTerminalError message) ∨
      ∃ settings, kind = .flag settings (.accessTerminalError message))

/-- No parser of the stock makes a command that runs a session. -/
def Nestless (specs : List Spec) : Prop :=
  ∀ name shorthand description, .named name shorthand description .nest ∉ specs

theorem Offers.action_givesUp (entries : List HelpEntry) (hspecs : Nestless specs) {d : Direct}
    (h : Offers specs (.direct d)) : (d.action entries).GivesUp (Claims specs) := by
  cases h with
  | builtin hspec => exact Direct.action_givesUp entries nofun nofun
  | @named name shorthand description kind _ _ hspec hmakes =>
    refine Direct.action_givesUp entries ?_ ?_
    · rintro rfl
      cases hmakes
      exact hspecs _ _ _ hspec
    · intro result message hresult hmessage
      obtain rfl := ApplyResult.eq_of_accessTerminal hmessage
      refine ⟨name, shorthand, description, kind, hspec, ?_⟩
      cases hmakes with
      | value _ | say | ask | nest => cases hresult
      | respond =>
        cases hresult
        exact .inl rfl
      | flag =>
        cases hresult
        exact .inr ⟨_, rfl⟩

theorem Command.action_givesUp (hr : (register specs).outcome = .ok r) (hspecs : Nestless specs)
    {c : Command} (h : r.parse line = .ok c) : (c.action r).GivesUp (Claims specs) := by
  obtain ⟨d, haction, hd⟩ | ⟨e, haction⟩ := c.action_cases r
  · rw [haction]
    refine Offers.action_givesUp r.helpEntries hspecs ?_
    obtain rfl | ⟨rest, -, hsettle⟩ := hd
    · exact (offers_of_parse hr h).1
    · exact ((settles_iff hr).2 hsettle.symm).offers hr
  · rw [haction]
    exact .finish nofun

end Stock

end Repl
