import Repl.Proofs.Session.Unfolding

/-!
What a session makes of a terminal that fails. Where every command gives up with the terminal, the
first use that fails is the last one, and the session fails with its message; a session may also
fail because a command says that the terminal did.
-/

namespace Repl

open Exchange Terminal

variable {τ ω κ γ α β : Type}

/-- The message of a failure. -/
def failureOf : Except Bytes α → Option Bytes
  | .ok _ => none
  | .error message => some message

theorem failureOf_map (outcome : Except Bytes α) (f : α → β) :
    failureOf (outcome.map f) = failureOf outcome := by
  cases outcome <;> rfl

theorem ApplyResult.eq_of_accessTerminal {result : ApplyResult} {message : Bytes}
    (h : result.accessTerminal = some message) : result = .accessTerminalError message := by
  cases result <;> cases h
  rfl

namespace Invocation

def Flawless (uses : List Invocation) : Prop :=
  ∀ i ∈ uses, i.succeeded = true

/-- The last use failed with the message, and those before it succeeded. -/
def FailedLast (uses : List Invocation) (message : Bytes) : Prop :=
  ∃ earlier last, uses = earlier ++ [last] ∧ Flawless earlier ∧ last.succeeded = false ∧
    last.error = message

/-- How the uses went if they ended in a failure, or in none: every failure is that of the last use,
or one that `own` accounts for. -/
def Ended (own : Bytes → Prop) (uses : List Invocation) : Option Bytes → Prop
  | none => Flawless uses
  | some message => FailedLast uses message ∨ Flawless uses ∧ own message

variable {uses others : List Invocation} {own own' : Bytes → Prop} {failure : Option Bytes}

theorem flawless_nil : Flawless [] := by
  intro i hi
  cases hi

theorem flawless_singleton {i : Invocation} (h : i.succeeded = true) : Flawless [i] := by
  intro j hj
  rwa [List.mem_singleton.1 hj]

theorem failedLast_singleton {i : Invocation} (h : i.succeeded = false) :
    FailedLast [i] i.error :=
  ⟨[], i, rfl, flawless_nil, h, rfl⟩

theorem Flawless.append (h : Flawless uses) (h' : Flawless others) : Flawless (uses ++ others) := by
  intro i hi
  rcases List.mem_append.1 hi with hi | hi
  · exact h i hi
  · exact h' i hi

theorem FailedLast.after {message : Bytes} (h : Flawless uses) (h' : FailedLast others message) :
    FailedLast (uses ++ others) message := by
  obtain ⟨earlier, last, rfl, hearlier, hlast⟩ := h'
  exact ⟨uses ++ earlier, last, (List.append_assoc _ _ _).symm, h.append hearlier, hlast⟩

theorem Ended.after (h : Flawless uses) (h' : Ended own others failure) :
    Ended own (uses ++ others) failure := by
  cases failure with
  | none => exact h.append h'
  | some message =>
    obtain hlast | ⟨hflawless, hown⟩ := h'
    · exact .inl (hlast.after h)
    · exact .inr ⟨h.append hflawless, hown⟩

theorem Ended.mono (h : Ended own uses failure) (hown : ∀ message, own message → own' message) :
    Ended own' uses failure := by
  cases failure with
  | none => exact h
  | some message => exact h.imp_right fun ⟨hflawless, h⟩ => ⟨hflawless, hown message h⟩

theorem FailedLast.succeeded_dropLast {message : Bytes} (h : FailedLast uses message) :
    ∀ i ∈ uses.dropLast, i.succeeded = true := by
  obtain ⟨earlier, last, rfl, hearlier, -⟩ := h
  rwa [List.dropLast_concat]

theorem FailedLast.getLast?_eq {message : Bytes} (h : FailedLast uses message) :
    ∃ last, uses.getLast? = some last ∧ last.succeeded = false ∧ last.error = message := by
  obtain ⟨earlier, last, rfl, -, hlast⟩ := h
  exact ⟨last, List.getLast?_concat, hlast⟩

end Invocation

open Invocation

/-! ## Questions -/

namespace Terminal

/-- The exchange fails when the terminal does, and then at once. -/
def FailsAtOnce (x : Exchange Call τ α) : Prop :=
  ∀ t, Ended (fun _ => False) ((x t).events.map Call.invocation) (failureOf (x t).outcome)

theorem FailsAtOnce.pure (a : α) : FailsAtOnce (pure a : Exchange Call τ α) :=
  fun _ => flawless_nil

theorem FailsAtOnce.bind {x : Exchange Call τ α} {f : α → Exchange Call τ β} (hx : FailsAtOnce x)
    (hf : ∀ a, FailsAtOnce (f a)) : FailsAtOnce (x >>= f) := by
  intro t
  have hfirst := hx t
  cases h : (x t).outcome with
  | error message =>
    rw [h] at hfirst
    rwa [bind_apply_of_error h]
  | ok a =>
    rw [h] at hfirst
    rw [bind_apply_of_ok h]
    dsimp only
    rw [List.map_append]
    exact Ended.after hfirst (hf a _)

variable [Terminal τ] {prompt : Bytes} {parse : Bytes → Except Bytes α}

theorem printFor_failsAtOnce (purpose : Purpose) (text : Bytes) :
    FailsAtOnce (printFor purpose text : Exchange Call τ Unit) := by
  intro t
  rw [printFor_apply]
  cases (print text t).1 with
  | ok _ => exact flawless_singleton rfl
  | error message => exact .inl (failedLast_singleton rfl)

theorem writeLine_failsAtOnce (text : Bytes) :
    FailsAtOnce (writeLine text : Exchange Call τ Unit) :=
  printFor_failsAtOnce .output _

theorem nextLine_failsAtOnce : FailsAtOnce (nextLine : Exchange Call τ Bytes) := by
  intro t
  rw [nextLine_apply]
  cases (readLine t).1 with
  | ok _ => exact flawless_singleton rfl
  | error message => exact .inl (failedLast_singleton rfl)

theorem askOnce_failsAtOnce : FailsAtOnce (askOnce prompt parse : Exchange Call τ (Option α)) := by
  refine .bind (printFor_failsAtOnce _ _) fun _ => .bind nextLine_failsAtOnce fun line => ?_
  cases parse (Text.trim line) with
  | ok value => exact .pure _
  | error reason => exact .bind (printFor_failsAtOnce _ _) fun _ => .pure none

theorem Asks.ended {t : τ} {answer : Reply Call τ α} (h : Asks prompt parse t answer) :
    Ended (fun _ => False) (answer.events.map Call.invocation) (failureOf answer.outcome) := by
  have honce : FailsAtOnce (askOnce prompt parse : Exchange Call τ (Option α)) :=
    askOnce_failsAtOnce
  induction h with
  | @failed t _ _ _ hround =>
    have hround_ended := honce t
    rwa [hround] at hround_ended
  | @answered t _ _ _ hround =>
    have hround_ended := honce t
    rwa [hround] at hround_ended
  | @again t _ calls answer hround _ ih =>
    have hrefused := honce t
    rw [hround] at hrefused
    rw [Reply.after_events, Reply.after_outcome, List.map_append]
    exact ih.after hrefused

/-- The value of a question is one that a line was parsed to. -/
theorem Asks.exists_parse {t t' : τ} {value : α} {calls : List Call}
    (h : Asks prompt parse t ⟨.ok value, calls, t'⟩) : ∃ line, parse line = .ok value := by
  generalize hanswer : (⟨.ok value, calls, t'⟩ : Reply Call τ α) = answer at h
  induction h generalizing calls t' with
  | failed _ => cases hanswer
  | @again _ _ _ answer _ _ ih =>
    obtain ⟨outcome, events, state⟩ := answer
    cases hanswer
    exact ih rfl
  | @answered t _ _ _ hround =>
    cases hanswer
    obtain ⟨_, _, h, -⟩ := ok_of_bind (congrArg Reply.outcome hround)
    obtain ⟨line, _, h, -⟩ := ok_of_bind h
    refine ⟨Text.trim line, ?_⟩
    cases hparse : parse (Text.trim line) with
    | ok other =>
      simp only [hparse] at h
      cases h
      rfl
    | error reason =>
      simp only [hparse] at h
      obtain ⟨_, _, h, -⟩ := ok_of_bind h
      cases h

end Terminal

/-! ## Sessions -/

/-- The command runs no sessions, and ends with the terminal's failure as soon as it sees one. It
ends with a failure that it did not see only where `own` holds of the message. -/
inductive Action.GivesUp (own : Bytes → Prop) : Action γ → Prop where
  | finish {result : ApplyResult} (hown : ∀ message, result.accessTerminal = some message →
    own message) : GivesUp own (.finish result)
  | print {text : Bytes} {next : Except Bytes Unit → Action γ}
    (hfail : ∀ message, next (.error message) = .finish (.accessTerminalError message))
    (rest : ∀ value, GivesUp own (next (.ok value))) : GivesUp own (.print text next)
  | readLine {next : Except Bytes Bytes → Action γ}
    (hfail : ∀ message, next (.error message) = .finish (.accessTerminalError message))
    (rest : ∀ value, GivesUp own (next (.ok value))) : GivesUp own (.readLine next)
  | ask {prompt : Bytes} {parse : Bytes → Except Bytes Value} {next : Except Bytes Value → Action γ}
    (hfail : ∀ message, next (.error message) = .finish (.accessTerminalError message))
    (rest : ∀ value, GivesUp own (next (.ok value))) : GivesUp own (.ask prompt parse next)
  | update {f : γ → γ} {next : Action γ} (rest : GivesUp own next) : GivesUp own (.update f next)
  | consult {next : γ → Action γ} (rest : ∀ context, GivesUp own (next context)) :
    GivesUp own (.consult next)
  | setFlag {flag : RunFlag} {next : Action γ} (rest : GivesUp own next) :
    GivesUp own (.setFlag flag next)
  | consultFlag {next : RunFlag → Action γ} (rest : ∀ flag, GivesUp own (next flag)) :
    GivesUp own (.consultFlag next)

namespace Session

variable [Host ω] {own : Bytes → Prop} {app : Application κ γ}

/-- The last command ended with a failure of the terminal, with the message, and `own` holds of it.
-/
def Claimed (own : Bytes → Prop) (t : Transcript) (message : Bytes) : Prop :=
  t.results.getLast? = some (.accessTerminalError message) ∧ own message

/-- The uses of the terminal among the events ended in a failure, or in none. -/
abbrev EndedWith (own : Bytes → Prop) (t : Transcript) (failure : Option Bytes) : Prop :=
  Ended own t.invocations failure

/-- How a part of a session ends. -/
def EndsOnFailure (own : Bytes → Prop) :
    (part : Part γ) → Reply Event (State ω γ) part.Yield → Prop
  | .command action, reply =>
    action.GivesUp own → ∀ result, reply.outcome = .ok result →
      EndedWith own reply.events result.accessTerminal
  | .round _, reply =>
    EndedWith (Claimed own reply.events) reply.events (failureOf reply.outcome)
  | .rounds _, reply | .session, reply =>
    EndedWith (Claimed own reply.events) reply.events (failureOf reply.outcome) ∧
      (reply.outcome = .ok () → reply.state.flag = .stopped)

theorem claimed_after {t u : Transcript} {message : Bytes} (h : Claimed own u message) :
    Claimed own (t ++ u) message := by
  obtain ⟨hlast, hown⟩ := h
  refine ⟨?_, hown⟩
  rw [Transcript.results_append, List.getLast?_append, hlast]
  rfl

/-- What comes after a part without failures decides how all of it ended. -/
theorem endedWith_after {t u : Transcript} {failure : Option Bytes}
    (h : EndedWith (fun _ => False) t none) (h' : EndedWith (Claimed own u) u failure) :
    EndedWith (Claimed own (t ++ u)) (t ++ u) failure := by
  rw [EndedWith, Transcript.invocations_append]
  exact (h'.mono fun _ => claimed_after).after h

theorem endedWith_of_isLog {t : Transcript} (h : t.IsLog) : EndedWith own t none := by
  rw [EndedWith, h.invocations_eq_nil]
  exact flawless_nil

theorem EndedWith.append_isLog {t u : Transcript} {failure : Option Bytes}
    (h : EndedWith (Claimed own t) t failure) (hu : u.IsLog) :
    EndedWith (Claimed own (t ++ u)) (t ++ u) failure := by
  rw [EndedWith, Transcript.invocations_append, hu.invocations_eq_nil, List.append_nil]
  refine Ended.mono h fun message ⟨hlast, hown⟩ => ⟨?_, hown⟩
  rwa [Transcript.results_append, hu.results_eq_nil, List.append_nil]

omit [Host ω] in
theorem onTerminal_endedWith {x : Exchange Call ω α} (hx : FailsAtOnce x) {event : Call → Event}
    (hevent : ∀ call, (event call).invocation? = some call.invocation) (s : State ω γ) :
    EndedWith (fun _ => False) (onTerminal event x s).events
      (failureOf (onTerminal event x s).outcome) := by
  rw [onTerminal_apply, EndedWith]
  dsimp only
  rw [Transcript.invocations_map hevent]
  exact hx s.host

/-- After a use of the terminal a command has either given up or gone on. -/
theorem command_endedWith {next : Except Bytes α → Action γ} {s : State ω γ}
    {outcome : Except Bytes α} {events : Transcript} {reply : Reply Event (State ω γ) ApplyResult}
    (huse : EndedWith (fun _ => False) events (failureOf outcome))
    (hfail : ∀ message, next (.error message) = .finish (.accessTerminalError message))
    (hgivesUp : ∀ value, (next (.ok value)).GivesUp own)
    (rest : Unfolds app (.command (next outcome)) s reply)
    (ih : EndsOnFailure own (.command (next outcome)) reply) {result : ApplyResult}
    (hresult : (reply.after events).outcome = .ok result) :
    EndedWith own (reply.after events).events result.accessTerminal := by
  rw [EndedWith, Reply.after_events, Transcript.invocations_append]
  cases outcome with
  | error message =>
    rw [hfail message] at rest
    cases rest with
    | finish =>
      cases hresult
      rw [Transcript.invocations, Transcript.invocations, List.filterMap_nil, List.append_nil]
      exact huse.mono fun _ h => h.elim
  | ok value => exact (ih (hgivesUp value) result hresult).after huse

/-- The session's report of an application's error fails with the terminal. -/
theorem conclude_endedWith {result : ApplyResult} (hresult : result.accessTerminal = none)
    (s : State ω γ) :
    EndedWith (fun _ => False) (conclude result s).events
      (failureOf (conclude result s).outcome) := by
  cases result with
  | applied => exact flawless_nil
  | skipped => exact flawless_nil
  | accessTerminalError message => cases hresult
  | applicationError message data =>
    have hlog := (isLog_log .warning (errorReport message) s).invocations_eq_nil
    have hreport := onTerminal_endedWith
      (writeLine_failsAtOnce (errorReport message ++ ascii ".")) Event.invocation?_loop
      (log .warning (errorReport message) s).state
    rw [conclude_applicationError, EndedWith]
    dsimp only
    rwa [Transcript.invocations_append, hlog, List.nil_append, failureOf_map]

/-- A round ends as its command did, or else as the report of the command's result. -/
theorem round_endedWith {read events : Transcript} {result : ApplyResult} {s : State ω γ}
    (hread : EndedWith (fun _ => False) read none)
    (hcommand : EndedWith own events result.accessTerminal) :
    let reply := (conclude result s).after (read ++ events ++ [.applied result s.flag])
    EndedWith (Claimed own reply.events) reply.events (failureOf reply.outcome) := by
  have hinvocations : Transcript.invocations (read ++ events ++ [.applied result s.flag]) =
      Transcript.invocations read ++ Transcript.invocations events := by
    rw [Transcript.invocations_append, Transcript.invocations_append]
    exact List.append_nil _
  show EndedWith (Claimed own (_ ++ (conclude result s).events)) (_ ++ (conclude result s).events)
    (failureOf (conclude result s).outcome)
  cases hfailure : result.accessTerminal with
  | none =>
    rw [hfailure] at hcommand
    refine endedWith_after ?_ ((conclude_endedWith hfailure s).mono fun _ h => h.elim)
    rw [EndedWith, hinvocations]
    exact Ended.after hread hcommand
  | some message =>
    obtain rfl := ApplyResult.eq_of_accessTerminal hfailure
    show EndedWith (Claimed own (_ ++ [])) (_ ++ []) (some message)
    rw [List.append_nil, EndedWith, hinvocations]
    -- The command saw the terminal fail, or says so without having seen it.
    obtain hlast | ⟨hflawless, hown⟩ := hcommand
    · exact .inl (hlast.after hread)
    · refine .inr ⟨Flawless.append hread hflawless, ?_, hown⟩
      rw [Transcript.results_append, List.getLast?_append]
      rfl

theorem Unfolds.endsOnFailure
    (hactions : ∀ line command, app.registry.parse line = .ok command →
      (app.action command).GivesUp own)
    {part : Part γ} {s : State ω γ} {reply : Reply Event (State ω γ) part.Yield}
    (h : Unfolds app part s reply) : EndsOnFailure own part reply := by
  induction h with
  | @finish result _ =>
    intro hgivesUp _ hresult
    cases hresult
    cases hgivesUp with
    | finish hown =>
      cases hfailure : result.accessTerminal with
      | none => exact flawless_nil
      | some message => exact .inr ⟨flawless_nil, hown message hfailure⟩
  | @print text next s s' outcome events reply hprint rest ih =>
    intro hgivesUp result hresult
    have huse := onTerminal_endedWith (printFor_failsAtOnce .output text)
      Event.invocation?_command s
    rw [write] at hprint
    rw [hprint] at huse
    cases hgivesUp with
    | print hfail hnext => exact command_endedWith huse hfail hnext rest ih hresult
  | @readLine next s s' outcome events reply hread rest ih =>
    intro hgivesUp result hresult
    have huse := onTerminal_endedWith nextLine_failsAtOnce Event.invocation?_command s
    rw [hread] at huse
    cases hgivesUp with
    | readLine hfail hnext => exact command_endedWith huse hfail hnext rest ih hresult
  | ask hasks rest ih =>
    intro hgivesUp result hresult
    have huse := hasks.ended
    rw [← Transcript.invocations_map_command] at huse
    cases hgivesUp with
    | ask hfail hnext => exact command_endedWith huse hfail hnext rest ih hresult
  | update _ ih => exact fun hgivesUp => by cases hgivesUp with | update hnext => exact ih hnext
  | consult _ ih =>
    exact fun hgivesUp => by cases hgivesUp with | consult hnext => exact ih (hnext _)
  | setFlag _ ih => exact fun hgivesUp => by cases hgivesUp with | setFlag hnext => exact ih hnext
  | consultFlag _ ih =>
    exact fun hgivesUp => by cases hgivesUp with | consultFlag hnext => exact ih (hnext _)
  | nest _ _ _ _ => exact fun hgivesUp => by cases hgivesUp
  | unread hasks =>
    have huse := hasks.ended
    rw [← Transcript.invocations_map_loop] at huse
    exact huse.mono fun _ h => h.elim
  | @applied last s s' command calls h result events hasks hcommand ih =>
    obtain ⟨line, hline⟩ := hasks.exists_parse
    have hparse : app.registry.parse line = .ok command := by
      rw [Application.parseLine] at hline
      cases hparsed : app.registry.parse line with
      | error e => rw [hparsed] at hline; cases hline
      | ok other => rw [hparsed] at hline; cases hline; rfl
    have hread := hasks.ended
    rw [← Transcript.invocations_map_loop] at hread
    have hended := ih (hactions line command hparse) result rfl
    exact round_endedWith hread hended
  | stopped hflag => exact ⟨flawless_nil, fun _ => hflag⟩
  | failed _ _ ih => exact ⟨ih, fun h => by cases h⟩
  | again _ _ _ ihround ih =>
    obtain ⟨hended, hflag⟩ := ih
    exact ⟨endedWith_after ihround hended, hflag⟩
  | @session s cycle _ ih =>
    obtain ⟨hended, hflag⟩ := ih
    obtain ⟨opening, level, message, hopening, hbracket⟩ := bracket_const cycle s
    have hclosing := isLog_log level message cycle.state
    rw [hbracket]
    refine ⟨?_, hflag⟩
    show EndedWith (Claimed own (opening ++ cycle.events ++ _)) _ (failureOf cycle.outcome)
    rw [List.append_assoc]
    exact endedWith_after (endedWith_of_isLog hopening) (hended.append_isLog hclosing)

end Session

end Repl
