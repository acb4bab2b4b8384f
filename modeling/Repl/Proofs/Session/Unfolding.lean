import Repl.Proofs.Session.Outcomes
import Repl.Proofs.Session.Supply

/-!
How sessions unfold, told by rules that bound nothing: neither the rounds of a question, nor those
of a session, nor the sessions inside it. What unfolds comes to an end. On a terminal that runs out
every session unfolds, and into the reply of `run`, so that properties of sessions can be proved by
induction on the rules.
-/

namespace Repl

open Exchange Terminal

variable {τ ω κ γ α : Type}

/-! ## Questions -/

namespace Terminal

variable [Terminal τ] {P : τ → Prop} {prompt : Bytes} {parse : Bytes → Except Bytes α}

/-- One round of a question: the value, or none once the line is refused. -/
def askOnce (prompt : Bytes) (parse : Bytes → Except Bytes α) : Exchange Call τ (Option α) := do
  printFor .prompt prompt
  let line ← nextLine
  match parse (Text.trim line) with
  | .ok value => pure (some value)
  | .error reason =>
    printFor .complaint (complaint reason)
    pure none

theorem complaint_eq (reason : Bytes) :
    complaint reason = ascii "Invalid input: " ++ reason ++ ascii ".\n" := by
  rw [complaint, Text.withNewline, List.append_assoc]
  rfl

/-- How a question goes: round after round, until one yields a value or the terminal fails. -/
inductive Asks (prompt : Bytes) (parse : Bytes → Except Bytes α) : τ → Reply Call τ α → Prop where
  | failed {t t' : τ} {message : Bytes} {calls : List Call}
    (hround : askOnce prompt parse t = ⟨.error message, calls, t'⟩) :
    Asks prompt parse t ⟨.error message, calls, t'⟩
  | answered {t t' : τ} {value : α} {calls : List Call}
    (hround : askOnce prompt parse t = ⟨.ok (some value), calls, t'⟩) :
    Asks prompt parse t ⟨.ok value, calls, t'⟩
  | again {t t' : τ} {calls : List Call} {answer : Reply Call τ α}
    (hround : askOnce prompt parse t = ⟨.ok none, calls, t'⟩) (rest : Asks prompt parse t' answer) :
    Asks prompt parse t (answer.after calls)

/-- A question goes in one way only. -/
theorem Asks.unique {t : τ} {answer other : Reply Call τ α}
    (h : Asks prompt parse t answer) (h' : Asks prompt parse t other) : answer = other := by
  induction h generalizing other with
  | failed hround =>
    cases h' with
    | failed hround' => cases hround.symm.trans hround'; rfl
    | answered hround' => cases hround.symm.trans hround'
    | again hround' _ => cases hround.symm.trans hround'
  | answered hround =>
    cases h' with
    | failed hround' => cases hround.symm.trans hround'
    | answered hround' => cases hround.symm.trans hround'; rfl
    | again hround' _ => cases hround.symm.trans hround'
  | again hround _ ih =>
    cases h' with
    | failed hround' => cases hround.symm.trans hround'
    | answered hround' => cases hround.symm.trans hround'
    | again hround' rest' =>
      cases hround.symm.trans hround'
      rw [ih rest']

theorem readValue_eq_askOnce (hP : Supply P) {t : τ} (ht : P t) :
    readValue prompt parse t =
      (askOnce prompt parse >>= fun
        | some value => pure value
        | none => readValue prompt parse) t := by
  rw [readValue_eq hP ht, askOnce, bind_assoc]
  refine bind_congr rfl fun _ _ => ?_
  rw [bind_assoc]
  refine bind_congr rfl fun line _ => ?_
  cases parse (Text.trim line) with
  | ok value => rfl
  | error reason =>
    rw [bind_assoc]
    rfl

section

variable {line reason : Bytes} {t t' t'' last : τ} {value : α}
  {prompting reading complaining : List Call}

theorem askOnce_of_accepted (hprompt : printFor .prompt prompt t = ⟨.ok (), prompting, t'⟩)
    (hline : nextLine t' = ⟨.ok line, reading, t''⟩) (hparse : parse (Text.trim line) = .ok value) :
    askOnce prompt parse t = ⟨.ok (some value), prompting ++ reading, t''⟩ := by
  rw [askOnce, bind_apply_of_ok (by rw [hprompt]), hprompt, bind_apply_of_ok (by rw [hline]), hline,
    hparse]
  show Reply.mk _ (prompting ++ (reading ++ [])) _ = _
  rw [List.append_nil]
  rfl

/-- A refused line is answered with a complaint, which may fail. -/
theorem askOnce_of_refused {outcome : Except Bytes Unit}
    (hprompt : printFor .prompt prompt t = ⟨.ok (), prompting, t'⟩)
    (hline : nextLine t' = ⟨.ok line, reading, t''⟩)
    (hparse : parse (Text.trim line) = .error reason)
    (hcomplaint : printFor .complaint (complaint reason) t'' = ⟨outcome, complaining, last⟩) :
    askOnce prompt parse t =
      ⟨outcome.map fun _ => none, prompting ++ reading ++ complaining, last⟩ := by
  rw [askOnce, bind_apply_of_ok (by rw [hprompt]), hprompt, bind_apply_of_ok (by rw [hline]), hline,
    hparse]
  dsimp only
  cases outcome with
  | error message =>
    rw [bind_apply_of_error (by rw [hcomplaint]), hcomplaint, List.append_assoc]
    rfl
  | ok _ =>
    rw [bind_apply_of_ok (by rw [hcomplaint]), hcomplaint, List.append_assoc]
    show Reply.mk _ (prompting ++ (reading ++ (complaining ++ []))) _ = _
    rw [List.append_nil]
    rfl

end

theorem askOnce_of_unread {t t' t'' : τ} {message : Bytes} {prompting reading : List Call}
    (hprompt : printFor .prompt prompt t = ⟨.ok (), prompting, t'⟩)
    (hline : nextLine t' = ⟨.error message, reading, t''⟩) :
    askOnce prompt parse t = ⟨.error message, prompting ++ reading, t''⟩ := by
  rw [askOnce, bind_apply_of_ok (by rw [hprompt]), hprompt, bind_apply_of_error (by rw [hline]),
    hline]

/-- A round that the terminal gets through costs a line. -/
theorem askOnce_spends (hP : Supply P) {n : Nat} {t : τ} {result : Option α}
    (ht : Within P (n + 1) t) (h : (askOnce prompt parse t).outcome = .ok result) :
    Within P n (askOnce prompt parse t).state := by
  obtain ⟨_, hprint, h, heq⟩ := ok_of_bind h
  obtain ⟨line, hline, h, heq'⟩ := ok_of_bind h
  have hprinted := printFor_preserves (hP.closed (n + 1)) .prompt prompt t ht
  have hspent := nextLine_spends hP hprinted hline
  rw [askOnce, heq, Reply.after, heq', Reply.after]
  cases parse (Text.trim line) with
  | ok value => exact hspent
  | error reason =>
    exact Preserves.bind (printFor_preserves (hP.closed n) _ _) (fun _ => .pure none) _ hspent

theorem asks_readValue (hP : Supply P) {n : Nat} {t : τ} (ht : Within P n t) :
    Asks prompt parse t (readValue prompt parse t) := by
  -- Each refused line is one line less.
  induction n generalizing t with
  | zero => exact absurd ht.2 (Nat.not_lt_zero _)
  | succ n ih =>
    rw [readValue_eq_askOnce hP ht.1]
    obtain ⟨outcome, calls, t', hround⟩ : ∃ outcome calls t', askOnce prompt parse t =
        ⟨outcome, calls, t'⟩ := ⟨_, _, _, rfl⟩
    cases outcome with
    | error message =>
      rw [bind_apply_of_error (by rw [hround]), hround]
      exact .failed hround
    | ok result =>
      have hspent := askOnce_spends hP ht (congrArg Reply.outcome hround)
      rw [bind_apply_of_ok (by rw [hround]), hround]
      cases result with
      | some value => simpa using Asks.answered hround
      | none =>
        rw [hround] at hspent
        exact .again hround (ih hspent)

end Terminal

/-- What the registry makes of a line, with the message that goes back to the user. -/
abbrev Application.parseLine (app : Application κ γ) (line : Bytes) : Except Bytes κ :=
  (app.registry.parse line).mapError LineError.message

/-! ## Sessions -/

namespace Session

variable [Host ω] {P : ω → Prop}

/-- The parts of a session. -/
inductive Part (γ : Type) where
  /-- What a command does. -/
  | command (action : Action γ)
  /-- A line, the command on it, and what the session makes of its result. -/
  | round (last : LastOutcome)
  | rounds (last : LastOutcome)
  | session

@[reducible]
def Part.Yield : Part γ → Type
  | command _ => ApplyResult
  | round _ => LastOutcome
  | rounds _ | session => Unit

/-- The state in which the first round of a session starts. -/
def opened (s : State ω γ) : State ω γ :=
  (log .debug (ascii "Session started.") { s with flag := .running }).state

/-- How a part of a session goes, with the parts that it consists of. -/
inductive Unfolds (app : Application κ γ) :
    (part : Part γ) → State ω γ → Reply Event (State ω γ) part.Yield → Prop where
  | finish {result : ApplyResult} {s : State ω γ} :
    Unfolds app (.command (.finish result)) s ⟨.ok result, [], s⟩
  | print {text : Bytes} {next : Except Bytes Unit → Action γ} {s s' : State ω γ}
    {outcome : Except Bytes Unit} {events : List Event}
    {reply : Reply Event (State ω γ) ApplyResult}
    (hprint : onTerminal .command (write text) s = ⟨outcome, events, s'⟩)
    (rest : Unfolds app (.command (next outcome)) s' reply) :
    Unfolds app (.command (.print text next)) s (reply.after events)
  | readLine {next : Except Bytes Bytes → Action γ} {s s' : State ω γ}
    {outcome : Except Bytes Bytes} {events : List Event}
    {reply : Reply Event (State ω γ) ApplyResult}
    (hread : onTerminal .command nextLine s = ⟨outcome, events, s'⟩)
    (rest : Unfolds app (.command (next outcome)) s' reply) :
    Unfolds app (.command (.readLine next)) s (reply.after events)
  | ask {prompt : Bytes} {parse : Bytes → Except Bytes Value}
    {next : Except Bytes Value → Action γ} {s : State ω γ} {outcome : Except Bytes Value}
    {calls : List Call} {h : ω} {reply : Reply Event (State ω γ) ApplyResult}
    (hasks : Asks prompt parse s.host ⟨outcome, calls, h⟩)
    (rest : Unfolds app (.command (next outcome)) { s with host := h } reply) :
    Unfolds app (.command (.ask prompt parse next)) s (reply.after (calls.map .command))
  | update {f : γ → γ} {next : Action γ} {s : State ω γ}
    {reply : Reply Event (State ω γ) ApplyResult}
    (rest : Unfolds app (.command next) { s with context := f s.context } reply) :
    Unfolds app (.command (.update f next)) s reply
  | consult {next : γ → Action γ} {s : State ω γ} {reply : Reply Event (State ω γ) ApplyResult}
    (rest : Unfolds app (.command (next s.context)) s reply) :
    Unfolds app (.command (.consult next)) s reply
  | setFlag {flag : RunFlag} {next : Action γ} {s : State ω γ}
    {reply : Reply Event (State ω γ) ApplyResult}
    (rest : Unfolds app (.command next) { s with flag } reply) :
    Unfolds app (.command (.setFlag flag next)) s reply
  | consultFlag {next : RunFlag → Action γ} {s : State ω γ}
    {reply : Reply Event (State ω γ) ApplyResult}
    (rest : Unfolds app (.command (next s.flag)) s reply) :
    Unfolds app (.command (.consultFlag next)) s reply
  | nest {next : Except Bytes Unit → Action γ} {s s' : State ω γ} {outcome : Except Bytes Unit}
    {events : List Event} {reply : Reply Event (State ω γ) ApplyResult}
    (hinner : Unfolds app .session s ⟨outcome, events, s'⟩)
    (rest : Unfolds app (.command (next outcome)) s' reply) :
    Unfolds app (.command (.nest next)) s (reply.after (events.map .nested))
  | unread {last : LastOutcome} {s : State ω γ} {message : Bytes} {calls : List Call} {h : ω}
    (hasks : Asks (app.prompts.after last) app.parseLine s.host ⟨.error message, calls, h⟩) :
    Unfolds app (.round last) s ⟨.error message, calls.map .loop, { s with host := h }⟩
  | applied {last : LastOutcome} {s s' : State ω γ} {command : κ} {calls : List Call} {h : ω}
    {result : ApplyResult} {events : List Event}
    (hasks : Asks (app.prompts.after last) app.parseLine s.host ⟨.ok command, calls, h⟩)
    (hcommand : Unfolds app (.command (app.action command)) { s with host := h }
      ⟨.ok result, events, s'⟩) :
    Unfolds app (.round last) s
      ((conclude result s').after (calls.map .loop ++ events ++ [.applied result s'.flag]))
  | stopped {last : LastOutcome} {s : State ω γ} (hflag : s.flag = .stopped) :
    Unfolds app (.rounds last) s ⟨.ok (), [], s⟩
  | failed {last : LastOutcome} {s s' : State ω γ} {message : Bytes} {events : List Event}
    (hflag : s.flag = .running)
    (hround : Unfolds app (.round last) s ⟨.error message, events, s'⟩) :
    Unfolds app (.rounds last) s ⟨.error message, events, s'⟩
  | again {last next : LastOutcome} {s s' : State ω γ} {events : List Event}
    {reply : Reply Event (State ω γ) Unit} (hflag : s.flag = .running)
    (hround : Unfolds app (.round last) s ⟨.ok next, events, s'⟩)
    (rest : Unfolds app (.rounds next) s' reply) :
    Unfolds app (.rounds last) s (reply.after events)
  | session {s : State ω γ} {cycle : Reply Event (State ω γ) Unit}
    (hrounds : Unfolds app (.rounds .applied) (opened s) cycle) :
    Unfolds app .session s (bracket (fun _ => cycle) s)

variable {app : Application κ γ}

/-- A part of a session unfolds in one way only. -/
theorem Unfolds.unique {part : Part γ} {s : State ω γ}
    {reply other : Reply Event (State ω γ) part.Yield} (h : Unfolds app part s reply)
    (h' : Unfolds app part s other) : reply = other := by
  induction h with
  | finish => cases h' with | finish => rfl
  | print hprint _ ih =>
    cases h' with
    | print hprint' rest' =>
      cases hprint.symm.trans hprint'
      rw [ih rest']
  | readLine hread _ ih =>
    cases h' with
    | readLine hread' rest' =>
      cases hread.symm.trans hread'
      rw [ih rest']
  | ask hasks _ ih =>
    cases h' with
    | ask hasks' rest' =>
      cases hasks.unique hasks'
      rw [ih rest']
  | update _ ih => cases h' with | update rest' => exact ih rest'
  | consult _ ih => cases h' with | consult rest' => exact ih rest'
  | setFlag _ ih => cases h' with | setFlag rest' => exact ih rest'
  | consultFlag _ ih => cases h' with | consultFlag rest' => exact ih rest'
  | nest _ _ ihinner ih =>
    cases h' with
    | nest hinner' rest' =>
      cases ihinner hinner'
      rw [ih rest']
  | unread hasks =>
    cases h' with
    | unread hasks' => cases hasks.unique hasks'; rfl
    | applied hasks' _ => cases hasks.unique hasks'
  | applied hasks _ ih =>
    cases h' with
    | unread hasks' => cases hasks.unique hasks'
    | applied hasks' hcommand' =>
      cases hasks.unique hasks'
      cases ih hcommand'
      rfl
  | stopped hflag =>
    cases h' with
    | stopped _ => rfl
    | failed hflag' _ => cases hflag.symm.trans hflag'
    | again hflag' _ _ => cases hflag.symm.trans hflag'
  | failed hflag _ ih =>
    cases h' with
    | stopped hflag' => cases hflag.symm.trans hflag'
    | failed _ hround' => cases ih hround'; rfl
    | again _ hround' _ => cases ih hround'
  | again hflag _ _ ihround ih =>
    cases h' with
    | stopped hflag' => cases hflag.symm.trans hflag'
    | failed _ hround' => cases ihround hround'
    | again _ hround' rest' =>
      cases ihround hround'
      rw [ih rest']
  | session _ ih =>
    cases h' with
    | session hrounds' => rw [ih hrounds']

theorem bracket_eq (cycle : Step ω γ Unit) (s : State ω γ) :
    bracket cycle s = bracket (fun _ => cycle (opened s)) s :=
  rfl

theorem isLog_log (level : Log.Level) (message : Bytes) (s : State ω γ) :
    Transcript.IsLog (log level message s).events := by
  unfold log
  dsimp only
  split
  · exact Transcript.isLog_nil.cons _
  · exact Transcript.isLog_nil

/-- How a session ends, once its rounds have: with an entry about their outcome. -/
def closing (outcome : Except Bytes Unit) : Step ω γ Unit :=
  match outcome with
  | .ok _ => log .debug (ascii "Session stopped.")
  | .error message => log .error (ascii "Terminal access failed: " ++ message)

theorem isLog_closing (outcome : Except Bytes Unit) (s : State ω γ) :
    Transcript.IsLog (closing outcome s).events := by
  cases outcome with
  | ok _ => exact isLog_log _ _ s
  | error message => exact isLog_log _ _ s

@[simp]
theorem closing_flag (outcome : Except Bytes Unit) (s : State ω γ) :
    (closing outcome s).state.flag = s.flag := by
  cases outcome <;> rfl

theorem bracket_const_eq (cycle : Reply Event (State ω γ) Unit) (s : State ω γ) :
    let opening := log .debug (ascii "Session started.") { s with flag := .running }
    let closed := closing cycle.outcome cycle.state
    bracket (fun _ => cycle) s =
      ((Reply.mk cycle.outcome closed.events closed.state).after cycle.events).after
        opening.events := by
  obtain ⟨outcome, events, s'⟩ := cycle
  cases outcome with
  | ok _ => rfl
  | error message =>
    show _ = Reply.mk (.error message) (_ ++ (events ++ (closing (.error message) s').events)) _
    rw [← List.append_nil (closing (.error message) s').events]
    rfl

/-- A session adds log entries to its rounds, and nothing else. -/
theorem bracket_const (cycle : Reply Event (State ω γ) Unit) (s : State ω γ) :
    ∃ opening level message, Transcript.IsLog opening ∧
      bracket (fun _ => cycle) s =
        ⟨cycle.outcome, opening ++ cycle.events ++ (log level message cycle.state).events,
          (log level message cycle.state).state⟩ := by
  have hopening := isLog_log .debug (ascii "Session started.") { s with flag := .running }
  obtain ⟨level, message, hclosing⟩ :
      ∃ level message, (closing cycle.outcome : Step ω γ Unit) = log level message := by
    cases cycle.outcome with
    | ok _ => exact ⟨.debug, ascii "Session stopped.", rfl⟩
    | error message => exact ⟨.error, ascii "Terminal access failed: " ++ message, rfl⟩
  refine ⟨_, level, message, hopening, ?_⟩
  rw [bracket_const_eq, hclosing, List.append_assoc]
  rfl

/-- A command that did not fail leaves nothing to report. -/
theorem conclude_of_not_isError {result : ApplyResult} (h : result.isError = false)
    (s : State ω γ) : ∃ next, conclude result s = ⟨.ok next, [], s⟩ := by
  cases result with
  | applied => exact ⟨.applied, rfl⟩
  | skipped => exact ⟨.skipped, rfl⟩
  | applicationError _ _ | accessTerminalError _ => cases h

/-- An application's error is logged and reported. -/
theorem conclude_applicationError (message : Bytes) (data : Option Bytes) (s : State ω γ) :
    let logged := log .warning (errorReport message) s
    let reported := onTerminal .loop (writeLine (errorReport message ++ ascii ".")) logged.state
    conclude (.applicationError message data) s =
      ⟨reported.outcome.map fun _ => .erred, logged.events ++ reported.events, reported.state⟩ := by
  dsimp only
  rw [conclude, bind_apply_of_ok rfl]
  cases houtcome : (onTerminal .loop (writeLine (errorReport message ++ ascii "."))
      (log .warning (errorReport message) s).state).outcome with
  | error failure =>
    rw [bind_apply_of_error houtcome]
    rfl
  | ok _ =>
    rw [bind_apply_of_ok houtcome]
    dsimp only [pure_apply]
    rw [List.append_nil]
    rfl

theorem unfolds_perform (hP : Host.Supply P) {n : Nat}
    (hrun : ∀ s : State ω γ, Within P n s.host → Unfolds app .session s (run app s))
    (action : Action γ) :
    ∀ s : State ω γ, Within P n s.host →
      Unfolds app (.command action) s (perform (run app) action s) := by
  have hclosed := hP.hostClosed n
  induction action with
  | finish result => exact fun s _ => .finish
  | print text next ih =>
    intro s hs
    have hprinted := printFor_preserves hclosed.toClosed .output text s.host hs
    exact .print rfl (ih _ _ hprinted)
  | readLine next ih =>
    intro s hs
    have hread := nextLine_preserves hclosed.toClosed s.host hs
    exact .readLine rfl (ih _ _ hread)
  | ask prompt parse next ih =>
    intro s hs
    have hasked := readValue_preserves hclosed.toClosed prompt parse s.host hs
    exact .ask (asks_readValue hP.toSupply hs) (ih _ _ hasked)
  | update f next ih => exact fun s hs => .update (ih _ hs)
  | consult next ih => exact fun s hs => .consult (ih _ _ hs)
  | setFlag flag next ih => exact fun s hs => .setFlag (ih _ hs)
  | consultFlag next ih => exact fun s hs => .consultFlag (ih _ _ hs)
  | nest next ih =>
    intro s hs
    exact .nest (hrun s hs) (ih _ _ (run_preserves hclosed app s hs))

/-- A line, the command on it, and what the session makes of its result. -/
def round (app : Application κ γ) (last : LastOutcome) : Step ω γ LastOutcome := do
  let command ← readCommand app last
  let result ← apply (run app) (app.action command)
  conclude result

theorem rounds_eq_round (hP : Host.Supply P) {last : LastOutcome} {s : State ω γ} (hs : P s.host)
    (hflag : s.flag = .running) : rounds app last s = (round app last >>= rounds app) s := by
  rw [rounds_of_running hP app last hs hflag, round, bind_assoc]
  refine bind_congr rfl fun command _ => ?_
  rw [bind_assoc]

/-- A round that the session gets through costs a line. -/
theorem round_spends (hP : Host.Supply P) {n : Nat} {last next : LastOutcome} {s : State ω γ}
    (hs : Within P (n + 1) s.host) (h : (round app last s).outcome = .ok next) :
    Within P n (round app last s).state.host := by
  have hclosed := hP.hostClosed n
  obtain ⟨command, hcommand, h, heq⟩ := ok_of_bind h
  have hread := readCommand_spends hP hs hcommand
  rw [round, heq]
  refine Preserves.bind (apply_preserves hclosed (run_preserves hclosed app) _) ?_ _ hread
  exact fun result => conclude_preserves hclosed result

theorem perform_outcome (inner : Step ω γ Unit) (action : Action γ) (s : State ω γ) :
    ∃ result, (perform inner action s).outcome = .ok result := by
  induction action generalizing s with
  | finish result => exact ⟨result, rfl⟩
  | print text next ih => exact ih _ _
  | readLine next ih => exact ih _ _
  | ask prompt parse next ih => exact ih _ _
  | update f next ih => exact ih _
  | consult next ih => exact ih _ _
  | setFlag flag next ih => exact ih _
  | consultFlag next ih => exact ih _ _
  | nest next ih => exact ih _ _

theorem unfolds_round (hP : Host.Supply P) {n : Nat}
    (hrun : ∀ s : State ω γ, Within P n s.host → Unfolds app .session s (run app s))
    (last : LastOutcome) {s : State ω γ} (hs : Within P (n + 1) s.host) :
    Unfolds app (.round last) s (round app last s) := by
  obtain ⟨outcome, calls, h, hanswer⟩ : ∃ outcome calls h,
      readValue (app.prompts.after last) app.parseLine s.host = ⟨outcome, calls, h⟩ :=
    ⟨_, _, _, rfl⟩
  have hasks : Asks (app.prompts.after last) app.parseLine s.host ⟨outcome, calls, h⟩ :=
    hanswer ▸ asks_readValue hP.toSupply hs
  have hread : readCommand app last s = ⟨outcome, calls.map .loop, { s with host := h }⟩ := by
    rw [readCommand, onTerminal_apply, hanswer]
  cases outcome with
  | error message =>
    rw [round, bind_apply_of_error (by rw [hread]), hread]
    exact .unread hasks
  | ok command =>
    have hspent := readCommand_spends hP hs (congrArg Reply.outcome hread)
    rw [hread] at hspent
    have hcommand := unfolds_perform hP hrun (app.action command) _ hspent
    obtain ⟨result, hresult⟩ := perform_outcome (run app) (app.action command)
      { s with host := h }
    obtain ⟨events, s', hperform⟩ : ∃ events s',
        perform (run app) (app.action command) { s with host := h } = ⟨.ok result, events, s'⟩ :=
      ⟨_, _, by rw [← hresult]⟩
    rw [hperform] at hcommand
    have happly : apply (run app) (app.action command) { s with host := h } =
        ⟨.ok result, events ++ [.applied result s'.flag], s'⟩ := by
      rw [apply, bind_apply_of_ok hresult, hperform]
      rfl
    rw [round, bind_apply_of_ok (by rw [hread]), hread, bind_apply_of_ok (by rw [happly]), happly]
    simpa [Reply.after] using Unfolds.applied hasks hcommand

theorem unfolds_rounds (hP : Host.Supply P) {n : Nat} {last : LastOutcome} {s : State ω γ}
    (hs : Within P n s.host) : Unfolds app (.rounds last) s (rounds app last s) := by
  -- Every round takes a line, and the sessions inside it can only take more.
  induction n generalizing last s with
  | zero => exact absurd hs.2 (Nat.not_lt_zero _)
  | succ n ih =>
    have hrun (s : State ω γ) (hs : Within P n s.host) : Unfolds app .session s (run app s) := by
      rw [run_eq hP app hs.1, bracket_eq]
      exact .session (ih (log_preserves (hP.hostClosed n) _ _ _ hs))
    cases hflag : s.flag with
    | stopped =>
      rw [rounds_of_stopped app last hflag]
      exact .stopped hflag
    | running =>
      have hround := unfolds_round hP hrun last hs
      obtain ⟨outcome, events, s', heq⟩ : ∃ outcome events s',
          round app last s = ⟨outcome, events, s'⟩ := ⟨_, _, _, rfl⟩
      rw [heq] at hround
      rw [rounds_eq_round hP hs.1 hflag]
      cases outcome with
      | error message =>
        rw [bind_apply_of_error (by rw [heq]), heq]
        exact .failed hflag hround
      | ok next =>
        have hspent := round_spends hP hs (congrArg Reply.outcome heq)
        rw [heq] at hspent
        rw [bind_apply_of_ok (by rw [heq]), heq]
        exact .again hflag hround (ih hspent)

/-- On a terminal that runs out, a session unfolds into its reply. -/
theorem unfolds_run (hP : Host.Supply P) {s : State ω γ} (hs : P s.host) :
    Unfolds app .session s (run app s) := by
  have hself : Within P (patience s.host + 1) s.host := ⟨hs, Nat.lt_succ_self _⟩
  rw [run_eq hP app hs, bracket_eq]
  exact .session (unfolds_rounds hP (log_preserves (hP.hostClosed _) _ _ _ hself))

/-! ## What unfolding preserves -/

variable {R : ω → Prop}

theorem asks_preserves (hR : Terminal.Closed R) {prompt : Bytes} {parse : Bytes → Except Bytes α}
    {h : ω} {answer : Reply Call ω α} (hasks : Asks prompt parse h answer) (hh : R h) :
    R answer.state := by
  have honce : Preserves R (askOnce prompt parse) := by
    refine .bind (printFor_preserves hR _ _) fun _ => .bind (nextLine_preserves hR) fun line => ?_
    cases parse (Text.trim line) with
    | ok value => exact .pure _
    | error reason => exact .bind (printFor_preserves hR _ _) fun _ => .pure none
  induction hasks with
  | @failed t _ _ _ hround | @answered t _ _ _ hround =>
    have hafter := honce t hh
    rwa [hround] at hafter
  | @again t _ _ _ hround _ ih =>
    have hafter := honce t hh
    rw [hround] at hafter
    exact ih hafter

theorem closing_preserves (hR : Host.Closed R) (outcome : Except Bytes Unit) :
    Preserves (OnHost R) (closing outcome : Step ω γ Unit) := by
  cases outcome with
  | ok _ => exact log_preserves hR _ _
  | error message => exact log_preserves hR _ _

theorem opened_preserves (hR : Host.Closed R) {s : State ω γ} (hs : R s.host) :
    R (opened s).host :=
  log_preserves hR .debug (ascii "Session started.") { s with flag := .running } hs

theorem Unfolds.preserves (hR : Host.Closed R) {part : Part γ} {s : State ω γ}
    {reply : Reply Event (State ω γ) part.Yield} (h : Unfolds app part s reply) (hs : R s.host) :
    R reply.state.host := by
  induction h with
  | finish | stopped => exact hs
  | @print text _ s _ _ _ _ hprint _ ih =>
    have hprinted := onTerminal_preserves (γ := γ)
      (printFor_preserves hR.toClosed .output text) .command s hs
    rw [write] at hprint
    rw [hprint] at hprinted
    exact ih hprinted
  | @readLine _ s _ _ _ _ hread _ ih =>
    have hline := onTerminal_preserves (γ := γ) (nextLine_preserves hR.toClosed) .command s hs
    rw [hread] at hline
    exact ih hline
  | ask hasks _ ih => exact ih (asks_preserves hR.toClosed hasks hs)
  | update _ ih | consult _ ih | setFlag _ ih | consultFlag _ ih => exact ih hs
  | nest _ _ ihinner ih => exact ih (ihinner hs)
  | unread hasks => exact asks_preserves hR.toClosed hasks hs
  | applied hasks _ ih =>
    exact conclude_preserves hR _ _ (ih (asks_preserves hR.toClosed hasks hs))
  | failed _ _ ih => exact ih hs
  | again _ _ _ ihround ih => exact ih (ihround hs)
  | @session s cycle _ ih =>
    rw [bracket_const_eq]
    exact closing_preserves hR _ _ (ih (opened_preserves hR hs))

end Session

end Repl
