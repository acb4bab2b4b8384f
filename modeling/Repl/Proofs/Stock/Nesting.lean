import Repl.Proofs.Session.Nesting
import Repl.Proofs.Session.Script
import Repl.Proofs.Stock.Commands

/-!
Sessions that stock commands run inside others. A session that ends well ends all of those around
it, so a farewell is the last that the terminal sees, from whatever depth.
-/

namespace Repl.Stock

open Session Terminal

variable {r : Registry Command}

theorem printLine_passesOver {γ : Type} {text : Bytes} {next : Action γ} (h : next.PassesOver) :
    (Action.printLine text next).PassesOver :=
  .print (Action.orFail_of (fun _ => .finish) fun _ => h)

/-- A command of the stock that runs a session has nothing to do once that ended well. -/
theorem Direct.action_passesOver (entries : List HelpEntry) (d : Direct) :
    (d.action entries).PassesOver := by
  cases d with
  | present text => exact .update (printLine_passesOver .finish)
  | respond result => exact .finish
  | say text => exact .print (Action.orFail_of (fun _ => .finish) fun _ => .finish)
  | ask noun prompt type orDefault =>
    exact .ask (Action.orFail_of (fun _ => .finish) fun _ => .update .finish)
  | flag settings result =>
    exact Action.setFlags_of (fun _ _ => .setFlag) (.consultFlag fun _ => .update .finish) settings
  | nest => exact .nest rfl rfl fun _ => .finish
  | builtin b =>
    cases b with
    | help => exact printLine_passesOver .finish
    | quit => exact .setFlag (printLine_passesOver .finish)

theorem Command.action_passesOver (r : Registry Command) (c : Command) :
    (c.action r).PassesOver := by
  obtain ⟨d, haction, -⟩ | ⟨e, haction⟩ := c.action_cases r
  · rw [haction]
    exact d.action_passesOver r.helpEntries
  · rw [haction]
    exact .finish

/-- A part that closes ends the session that it is reached from, and all of those between. -/
theorem run_of_closes {prompts : Prompts} {target : Session.Part Bytes} {s t : State Bench Bytes}
    {before : Transcript} {last : Reply Event (State Bench Bytes) target.Yield}
    (hs : Bench.HasScript s.host) (h : ComesTo (application r prompts) .session s before target t)
    (hlast : Unfolds (application r prompts) target t last) (hclosed : Closes target last) :
    let reply := run (application r prompts) s
    reply.outcome = .ok () ∧ reply.state.flag = .stopped ∧
      Transcript.invocations reply.events =
        Transcript.invocations before ++ Transcript.invocations last.events := by
  obtain ⟨reply, hreply, hcloses, hinvocations⟩ :=
    h.closes (Command.action_passesOver r) trivial hlast hclosed
  obtain rfl := hreply.unique (unfolds_run Bench.supply hs)
  exact ⟨hcloses.1, hcloses.2, hinvocations⟩

/-- `quit` closes a session if its farewell can be printed. -/
theorem unfolds_quit {prompts : Prompts} {s : State Bench Bytes}
    (hprint : (Terminal.print (ascii "Exiting.\n") s.host).1 = .ok ()) :
    ∃ reply,
      Unfolds (application r prompts) (.command (Builtin.quit.action r.helpEntries)) s reply ∧
      Closes (.command (Builtin.quit.action r.helpEntries)) reply ∧
      Transcript.invocations reply.events = [.printed (ascii "Exiting.\n")] := by
  have hwrite : onTerminal .command (write (ascii "Exiting.\n")) { s with flag := .stopped } =
      ⟨.ok (), [.command ⟨.output, .printed (ascii "Exiting.\n")⟩],
        ⟨(Terminal.print (ascii "Exiting.\n") s.host).2, s.context, .stopped⟩⟩ := by
    rw [onTerminal_apply, write, printFor_apply, hprint]
    rfl
  exact ⟨_, .setFlag (.print hwrite .finish), ⟨⟨.applied, rfl, rfl⟩, rfl⟩, rfl⟩

/-- Once a session has ended well the run flag is stopped, and the sessions around it end well too,
without another use of the terminal. So a farewell from whatever depth is the last use of it. -/
theorem clean_exit_closes_enclosing (r : Registry Command) (prompts : Prompts)
    (script : List ScriptEntry) (rules : List PrintRule) (prints : Nat)
    (logger : Option Log.Logger) (context : Bytes) (flag : RunFlag) :
    let app := application r prompts
    let start : State Bench Bytes := ⟨⟨⟨.script script, rules, prints⟩, logger⟩, context, flag⟩
    (∀ (earlier before : Transcript) (outer inner : State Bench Bytes),
      ComesTo app .session start earlier .session outer →
      ComesTo app .session outer before .session inner →
      (run app inner).outcome = .ok () →
      (run app inner).state.flag = .stopped ∧ (run app outer).outcome = .ok () ∧
        Transcript.invocations (run app outer).events =
          Transcript.invocations before ++ Transcript.invocations (run app inner).events) ∧
      ∀ (before : Transcript) (s : State Bench Bytes),
        ComesTo app .session start before (.command (Builtin.quit.action r.helpEntries)) s →
        (Terminal.print (ascii "Exiting.\n") s.host).1 = .ok () →
        (run app start).outcome = .ok () ∧
          Transcript.invocations (run app start).events =
            Transcript.invocations before ++ [.printed (ascii "Exiting.\n")] := by
  intro app start
  have hstart : Bench.HasScript start.host := ⟨script, rfl⟩
  constructor
  · intro earlier before outer inner houter hinner hok
    have hscript := houter.preserves Bench.hasScript_closed hstart
    have hlast : Unfolds app .session inner (run app inner) :=
      unfolds_run Bench.supply (hinner.preserves Bench.hasScript_closed hscript)
    have hstopped : (run app inner).state.flag = .stopped := hlast.endsStopped hok
    have ⟨houtcome, _, hinvocations⟩ := run_of_closes hscript hinner hlast ⟨hok, hstopped⟩
    exact ⟨hstopped, houtcome, hinvocations⟩
  · intro before s hquit hprint
    obtain ⟨reply, hlast, hclosed, hfarewell⟩ := unfolds_quit hprint
    have ⟨houtcome, _, hinvocations⟩ := run_of_closes hstart hquit hlast hclosed
    rw [hfarewell] at hinvocations
    exact ⟨houtcome, hinvocations⟩

def retreating : Registry Command :=
  Option.get (register [.builtin .quit, .named (ascii "nest") none ⟨[], [], []⟩ .nest,
    .named (ascii "as") none ⟨[], [], []⟩ .resolve]).outcome.toOption rfl

/-- A session on a terminal that prints everything. -/
def retreat (script : List ScriptEntry) (prints : Nat) (flag : RunFlag) : State Bench Bytes :=
  ⟨⟨⟨.script script, [], prints⟩, none⟩, [], flag⟩

/-- The uses of the terminal that take a line to a command. -/
def taking (text : Bytes) : Transcript :=
  [.loop ⟨.prompt, .printed Prompts.standard.applied⟩, .loop ⟨.line, .lineRead text⟩]

theorem retreat_comesTo {c : Command} {text : Bytes} {script : List ScriptEntry} {prints : Nat}
    {flag : RunFlag} {before : Transcript} {target : Session.Part Bytes} {t : State Bench Bytes}
    (hparse : (application retreating .standard).parseLine (Text.trim text) = .ok c)
    (rest : ComesTo (application retreating .standard) (.command (c.action retreating))
      (retreat script (prints + 1) .running) before target t) :
    ComesTo (application retreating .standard) .session (retreat (.line text :: script) prints flag)
      (taking text ++ before) target t := by
  have hasks : Asks ((application retreating .standard).prompts.after .applied)
      (application retreating .standard).parseLine
      (retreat (.line text :: script) prints .running).host
      ⟨.ok c, [⟨.prompt, .printed Prompts.standard.applied⟩] ++ [⟨.line, .lineRead text⟩],
        (retreat script (prints + 1) .running).host⟩ :=
    .answered (askOnce_of_accepted rfl rfl hparse)
  have hround : ComesTo (application retreating .standard) (.round .applied)
      (retreat (.line text :: script) prints .running) (taking text ++ before) target t :=
    .next (.command hasks) rest
  have hrounds : ComesTo (application retreating .standard) (.rounds .applied)
      (retreat (.line text :: script) prints .running) ([] ++ (taking text ++ before)) target t :=
    .next (.round rfl) hround
  have hsession : ComesTo (application retreating .standard) .session
      (retreat (.line text :: script) prints flag) ([] ++ ([] ++ (taking text ++ before)))
      target t :=
    .next .session hrounds
  exact hsession

/-- The session inside takes its line for another one, which stops it and the one around it. -/
theorem retreating_closes_enclosing :
    let app := application retreating .standard
    let start := retreat [.line (ascii "nest"), .line (ascii "as q")] 0 .stopped
    let inner := retreat [.line (ascii "as q")] 1 .running
    let last := retreat [] 2 .running
    let outside := taking (ascii "nest")
    let inside := taking (ascii "as q")
    ComesTo app .session start (outside ++ []) .session inner ∧
      (run app inner).outcome = .ok () ∧
      ComesTo app .session start (outside ++ (inside ++ []).map .nested)
        (.command (Builtin.quit.action retreating.helpEntries)) last ∧
      (Terminal.print (ascii "Exiting.\n") last.host).1 = .ok () ∧
      (run app start).outcome = .ok () ∧
      Transcript.invocations (run app start).events = outside.invocations ++ inside.invocations ++
        [.printed (ascii "Exiting.\n")] := by
  have hnest : (application retreating .standard).parseLine (ascii "nest") =
      .ok (.direct .nest) := rfl
  have hquit : (application retreating .standard).parseLine (ascii "as q") =
      .ok (.resolve (ascii "q")) := rfl
  have hinner : ComesTo (application retreating .standard) .session
      (retreat [.line (ascii "nest"), .line (ascii "as q")] 0 .stopped)
      (taking (ascii "nest") ++ []) .session (retreat [.line (ascii "as q")] 1 .running) :=
    retreat_comesTo hnest (.inside .here)
  have hlast : ComesTo (application retreating .standard) .session
      (retreat [.line (ascii "nest"), .line (ascii "as q")] 0 .stopped)
      (taking (ascii "nest") ++ (taking (ascii "as q") ++ []).map .nested)
      (.command (Builtin.quit.action retreating.helpEntries)) (retreat [] 2 .running) :=
    retreat_comesTo hnest (.inside (retreat_comesTo hquit .here))
  obtain ⟨hsessions, hfarewell⟩ := clean_exit_closes_enclosing retreating .standard
    [.line (ascii "nest"), .line (ascii "as q")] [] 0 none [] .stopped
  have hok : (run (application retreating .standard)
    (retreat [.line (ascii "as q")] 1 .running)).outcome = .ok () := rfl
  obtain ⟨-, houtcome, -⟩ := hsessions _ _ _ _ .here hinner hok
  obtain ⟨-, hinvocations⟩ := hfarewell _ _ hlast rfl
  exact ⟨hinner, hok, hlast, rfl, houtcome, hinvocations⟩

end Repl.Stock
