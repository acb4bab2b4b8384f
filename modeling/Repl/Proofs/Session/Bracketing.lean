import Repl.Proofs.Session.Script
import Repl.Proofs.Session.Unfolding
import Repl.Session.Stock

/-!
What a session logs, where everything it logs is let through: an entry for its start, a warning for
each failure of the application, the whole log of each session inside it, and an entry for its end
that tells how it ended.
-/

namespace Repl

open Exchange Terminal

variable {ω κ γ α : Type}

/-- The entry that an event is, of the session itself. -/
def Event.ownEntry? : Event → Option Log.Entry
  | logged entry => some entry
  | loop _ | command _ | applied .. | nested _ => none

namespace Transcript

/-- The entries of the session itself, without those of the sessions inside it. -/
def ownEntries (t : Transcript) : List Log.Entry :=
  t.filterMap Event.ownEntry?

theorem ownEntries_append (t u : Transcript) : ownEntries (t ++ u) = ownEntries t ++ ownEntries u :=
  List.filterMap_append

theorem ownEntries_nested (t : Transcript) : ownEntries (t.map .nested) = [] := by
  rw [ownEntries, List.filterMap_map]
  exact List.filterMap_eq_nil_iff.2 fun _ _ => rfl

theorem results_nested (t : Transcript) : results (t.map .nested) = [] := by
  rw [results, List.filterMap_map]
  exact List.filterMap_eq_nil_iff.2 fun _ _ => rfl

/-- The messages of the application's failures, in the session itself. -/
def failures (t : Transcript) : List Bytes :=
  t.results.filterMap ApplyResult.application

theorem failures_append (t u : Transcript) : failures (t ++ u) = failures t ++ failures u := by
  rw [failures, results_append, List.filterMap_append]
  rfl

end Transcript

namespace Session

/-! ## Well-bracketed transcripts -/

def openingEntry : Log.Entry :=
  ⟨.debug, category, ascii "Session started."⟩

def warningEntry (message : Bytes) : Log.Entry :=
  ⟨.warning, category, ascii "Command error: " ++ message⟩

def closingEntry : Except Bytes Unit → Log.Entry
  | .ok _ => ⟨.debug, category, ascii "Session stopped."⟩
  | .error message => ⟨.error, category, ascii "Terminal access failed: " ++ message⟩

/-- The events of a session that ended so, with its entries around them. -/
def bracketed (rounds : Transcript) (outcome : Except Bytes Unit) : Transcript :=
  .logged openingEntry :: rounds ++ [.logged (closingEntry outcome)]

variable [Host ω]

/-- Events between the start of a session and its end. A failure of the application is followed by a
warning, nothing else is logged, and the sessions inside are well bracketed themselves. -/
inductive Chronicle (ω : Type) [Host ω] (app : Application κ γ) : Transcript → Prop where
  | nil : Chronicle ω app []
  | loop {call : Call} {rest : Transcript} (h : Chronicle ω app rest) :
    Chronicle ω app (.loop call :: rest)
  | command {call : Call} {rest : Transcript} (h : Chronicle ω app rest) :
    Chronicle ω app (.command call :: rest)
  | applied {result : ApplyResult} {flag : RunFlag} {rest : Transcript}
    (hresult : result.application = none) (h : Chronicle ω app rest) :
    Chronicle ω app (.applied result flag :: rest)
  | erred {message : Bytes} {data : Option Bytes} {flag : RunFlag} {rest : Transcript}
    (h : Chronicle ω app rest) :
    Chronicle ω app
      (.applied (.applicationError message data) flag :: .logged (warningEntry message) :: rest)
  | nested {s : State ω γ} {rounds rest : Transcript}
    (hbracketed : (run app s).events = bracketed rounds (run app s).outcome)
    (hrounds : Chronicle ω app rounds) (h : Chronicle ω app rest) :
    Chronicle ω app ((run app s).events.map .nested ++ rest)

variable {app : Application κ γ} {t u : Transcript}

theorem Chronicle.append (h : Chronicle ω app t) (h' : Chronicle ω app u) :
    Chronicle ω app (t ++ u) := by
  induction h with
  | nil => exact h'
  | loop _ ih => exact .loop ih
  | command _ ih => exact .command ih
  | applied hresult _ ih => exact .applied hresult ih
  | erred _ ih => exact .erred ih
  | nested hbracketed hrounds _ _ ih =>
    rw [List.append_assoc]
    exact .nested hbracketed hrounds ih

theorem chronicle_map_loop (calls : List Call) : Chronicle ω app (calls.map .loop) := by
  induction calls with
  | nil => exact .nil
  | cons call calls ih => exact .loop ih

theorem chronicle_map_command (calls : List Call) : Chronicle ω app (calls.map .command) := by
  induction calls with
  | nil => exact .nil
  | cons call calls ih => exact .command ih

/-- The session itself logs a warning for each failure of the application, and nothing else. -/
theorem Chronicle.ownEntries_eq (h : Chronicle ω app t) :
    t.ownEntries = t.failures.map warningEntry := by
  induction h with
  | nil => rfl
  | loop _ ih | command _ ih => exact ih
  | @applied result flag rest hresult _ ih =>
    have hnone : Transcript.failures [.applied result flag] = [] := by
      show [result].filterMap ApplyResult.application = []
      rw [List.filterMap_cons_none hresult]
      rfl
    rw [← List.singleton_append, Transcript.failures_append, hnone]
    exact ih
  | @erred message _ _ rest _ ih =>
    show warningEntry message :: rest.ownEntries = warningEntry message :: rest.failures.map _
    rw [ih]
  | nested _ _ _ _ ih =>
    rw [Transcript.ownEntries_append, Transcript.ownEntries_nested, Transcript.failures_append,
      Transcript.failures, Transcript.results_nested]
    exact ih

/-- The last entry tells how a session ended. -/
theorem closingEntry_inj {outcome outcome' : Except Bytes Unit}
    (h : closingEntry outcome = closingEntry outcome') : outcome = outcome' := by
  cases outcome with
  | ok _ =>
    cases outcome' with
    | ok _ => rfl
    | error _ => cases congrArg Log.Entry.level h
  | error message =>
    cases outcome' with
    | ok _ => cases congrArg Log.Entry.level h
    | error message' =>
      have hmessage := congrArg Log.Entry.message h
      rw [List.append_cancel_left hmessage]

theorem ownEntries_bracketed {rounds : Transcript} (h : Chronicle ω app rounds)
    (outcome : Except Bytes Unit) :
    (bracketed rounds outcome).ownEntries =
      openingEntry :: rounds.failures.map warningEntry ++ [closingEntry outcome] := by
  show openingEntry :: Transcript.ownEntries (rounds ++ [.logged (closingEntry outcome)]) = _
  rw [Transcript.ownEntries_append, h.ownEntries_eq]
  rfl

theorem failures_bracketed (rounds : Transcript) (outcome : Except Bytes Unit) :
    (bracketed rounds outcome).failures = rounds.failures := by
  show Transcript.failures (rounds ++ [.logged (closingEntry outcome)]) = _
  rw [Transcript.failures_append]
  exact List.append_nil _

/-! ## Sessions are well bracketed -/

/-- The hosts of `R` stay such, and let through whatever a session logs. -/
structure LogsAll (R : ω → Prop) : Prop where
  closed : Host.Closed R
  admits : ∀ level message h, R h → (Host.log ⟨level, category, message⟩ h).1 = true

variable {R P : ω → Prop}

theorem LogsAll.log_events (hR : LogsAll R) (level : Log.Level) (message : Bytes)
    {s : State ω γ} (hs : R s.host) :
    (log level message s).events = [.logged ⟨level, category, message⟩] := by
  unfold log
  dsimp only
  rw [hR.admits level message s.host hs, if_pos rfl]

theorem LogsAll.closing_events (hR : LogsAll R) (outcome : Except Bytes Unit) {s : State ω γ}
    (hs : R s.host) : (closing outcome s).events = [.logged (closingEntry outcome)] := by
  cases outcome with
  | ok _ => exact hR.log_events _ _ hs
  | error message => exact hR.log_events _ _ hs

/-- A result, and what the session makes of it. -/
theorem LogsAll.chronicle_concluded (hR : LogsAll R) (result : ApplyResult) (flag : RunFlag)
    {s : State ω γ} (hs : R s.host) :
    Chronicle ω app (.applied result flag :: (conclude result s).events) := by
  cases result with
  | applied | skipped | accessTerminalError message => exact .applied rfl .nil
  | applicationError message data =>
    rw [conclude_applicationError]
    dsimp only
    rw [hR.log_events .warning _ hs, onTerminal_apply]
    exact .erred (chronicle_map_loop _)

/-- What the events of a part of a session are. -/
def Chronicled (app : Application κ γ) :
    (part : Part γ) → Reply Event (State ω γ) part.Yield → Prop
  | .command _, reply | .round _, reply | .rounds _, reply => Chronicle ω app reply.events
  | .session, reply =>
    ∃ rounds, Chronicle ω app rounds ∧ reply.events = bracketed rounds reply.outcome

theorem Unfolds.chronicled (hP : Host.Supply P) (hR : LogsAll R) (hRP : ∀ h, R h → P h)
    {part : Part γ} {s : State ω γ} {reply : Reply Event (State ω γ) part.Yield}
    (h : Unfolds app part s reply) (hs : R s.host) : Chronicled app part reply := by
  induction h with
  | finish | stopped => exact Chronicle.nil
  | @print text _ s _ _ _ _ hprint rest ih =>
    have hafter := onTerminal_preserves (γ := γ)
      (printFor_preserves hR.closed.toClosed .output text) .command s hs
    rw [write, onTerminal_apply] at hprint
    cases hprint
    exact (chronicle_map_command _).append (ih hafter)
  | @readLine _ s _ _ _ _ hread rest ih =>
    have hafter := onTerminal_preserves (γ := γ)
      (nextLine_preserves hR.closed.toClosed) .command s hs
    rw [onTerminal_apply] at hread
    cases hread
    exact (chronicle_map_command _).append (ih hafter)
  | ask hasks _ ih =>
    have hafter := asks_preserves hR.closed.toClosed hasks hs
    exact (chronicle_map_command _).append (ih hafter)
  | update _ ih | consult _ ih | setFlag _ ih | consultFlag _ ih => exact ih hs
  | @nest next s s' outcome events reply hinner _ ihinner ih =>
    have hafter := hinner.preserves hR.closed hs
    obtain ⟨rounds, hrounds, hbracketed⟩ := ihinner hs
    have hrun : run app s = ⟨outcome, events, s'⟩ :=
      (unfolds_run hP (hRP _ hs)).unique hinner
    have hevents : events = (run app s).events := by rw [hrun]
    rw [Reply.after, hevents]
    refine .nested ?_ hrounds (ih hafter)
    rw [hrun]
    exact hbracketed
  | unread hasks => exact chronicle_map_loop _
  | @applied _ _ s' _ calls _ result events hasks hcommand ih =>
    have hread := asks_preserves hR.closed.toClosed hasks hs
    have happlied := hcommand.preserves hR.closed hread
    show Chronicle ω app (_ ++ (conclude result s').events)
    rw [List.append_assoc]
    exact ((chronicle_map_loop calls).append (ih hread)).append
      (hR.chronicle_concluded result s'.flag happlied)
  | failed _ _ ih => exact ih hs
  | again _ hround _ ihround ih =>
    have hafter := hround.preserves hR.closed hs
    exact (ihround hs).append (ih hafter)
  | @session s cycle hrounds ih =>
    have hopened := opened_preserves hR.closed hs
    have hcycle := hrounds.preserves hR.closed hopened
    refine ⟨cycle.events, ih hopened, ?_⟩
    rw [bracket_const_eq]
    dsimp only [Reply.after]
    rw [hR.log_events .debug _ (s := { s with flag := .running }) hs, hR.closing_events _ hcycle]
    rfl

end Session

namespace Bench

open Session

/-- The bench has a logger that lets through whatever a session logs. -/
def Verbose (b : Bench) : Prop :=
  ∃ logger, b.logger = some logger ∧ logger.level category = .debug

theorem verbose_logsAll : LogsAll fun b => HasScript b ∧ Verbose b where
  closed := hasScript_closed.and ⟨⟨fun _ _ h => h, fun _ h => h⟩, fun _ _ h => h⟩
  admits := by
    rintro level message b ⟨-, logger, hlogger, hlevel⟩
    show b.admits ⟨level, category, message⟩ = true
    unfold admits
    rw [hlogger]
    show (logger.level category).admits level = true
    rw [hlevel]
    cases level <;> rfl

/-- Where the log lets everything of a session through, it is well bracketed and tells the truth: it
opens with the start of the session, has a warning for each failure of the application and a whole
log for each session inside, in their order, and closes with how the session ended. -/
theorem session_bracketed (app : Application κ γ) (script : List ScriptEntry)
    (rules : List PrintRule) (prints : Nat) (logger : Log.Logger)
    (hlevel : logger.level category = .debug) (context : γ) (flag : RunFlag) :
    let reply := run app
      (⟨⟨⟨.script script, rules, prints⟩, some logger⟩, context, flag⟩ : State Bench γ)
    (∃ rounds, Chronicle Bench app rounds ∧ reply.events = bracketed rounds reply.outcome) ∧
      Transcript.ownEntries reply.events =
        ⟨.debug, category, ascii "Session started."⟩ ::
          (Transcript.failures reply.events).map
            (fun message => ⟨.warning, category, ascii "Command error: " ++ message⟩) ++
          [closingEntry reply.outcome] ∧
      ((Transcript.ownEntries reply.events).getLast? =
          some ⟨.debug, category, ascii "Session stopped."⟩ ↔ reply.outcome = .ok ()) ∧
      ∀ message, (Transcript.ownEntries reply.events).getLast? =
          some ⟨.error, category, ascii "Terminal access failed: " ++ message⟩ ↔
        reply.outcome = .error message := by
  intro reply
  have hstart : HasScript ⟨⟨.script script, rules, prints⟩, some logger⟩ ∧
      Verbose ⟨⟨.script script, rules, prints⟩, some logger⟩ :=
    ⟨⟨script, rfl⟩, logger, rfl, hlevel⟩
  have hrun : Unfolds app .session _ reply := unfolds_run supply hstart.1
  obtain ⟨rounds, hrounds, hevents⟩ : ∃ rounds, Chronicle Bench app rounds ∧
      reply.events = bracketed rounds reply.outcome :=
    hrun.chronicled supply verbose_logsAll (fun _ h => h.1) hstart
  have hentries : Transcript.ownEntries reply.events =
      openingEntry :: (Transcript.failures reply.events).map warningEntry ++
        [closingEntry reply.outcome] := by
    rw [hevents, ownEntries_bracketed hrounds, failures_bracketed]
  have hlast : (Transcript.ownEntries reply.events).getLast? =
      some (closingEntry reply.outcome) := by
    rw [hentries]
    exact List.getLast?_concat
  have hends (outcome : Except Bytes Unit) : (Transcript.ownEntries reply.events).getLast? =
      some (closingEntry outcome) ↔ reply.outcome = outcome := by
    rw [hlast]
    constructor
    · intro h
      exact closingEntry_inj (Option.some.inj h)
    · intro h
      rw [h]
  exact ⟨⟨rounds, hrounds, hevents⟩, hentries, hends (.ok ()), fun message => hends (.error message)⟩

def sour : Registry Stock.Command :=
  Option.get (Stock.register [.builtin .quit, .named (ascii "nest") none ⟨[], [], []⟩ .nest,
    .named (ascii "try") none ⟨[], [], []⟩
      (.respond (.applicationError (ascii "sour") none))]).outcome.toOption rfl

/-- A session with a failure of the application before another session, with one of its own. -/
theorem sour_session_bracketed :
    let script := [.line (ascii "try"), .line (ascii "nest"), .line (ascii "try"),
      .line (ascii "q")]
    let reply := run (Stock.application sour .standard)
      (⟨⟨⟨.script script, [], 0⟩, some (loggerAt .debug)⟩, [], .stopped⟩ : State Bench Bytes)
    (loggerAt .debug).level category = .debug ∧
      (∃ rounds, Chronicle Bench (Stock.application sour .standard) rounds ∧
        reply.events = bracketed rounds reply.outcome) ∧
      Transcript.failures reply.events = [ascii "sour"] ∧
      reply.events.filterMap Event.entry? =
        [openingEntry, warningEntry (ascii "sour"), openingEntry, warningEntry (ascii "sour"),
          closingEntry (.ok ()), closingEntry (.ok ())] := by
  have hlevel : (loggerAt .debug).level category = .debug := rfl
  obtain ⟨hbracketed, -, -, -⟩ := session_bracketed (Stock.application sour .standard)
    [.line (ascii "try"), .line (ascii "nest"), .line (ascii "try"), .line (ascii "q")] [] 0
    (loggerAt .debug) hlevel [] .stopped
  exact ⟨hlevel, hbracketed, rfl, rfl⟩

end Bench

end Repl
