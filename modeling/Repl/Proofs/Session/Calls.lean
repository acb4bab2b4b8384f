import Repl.Proofs.Session.Unfolding

/-!
The uses of the terminal among the events of a session, its own and those of commands and sessions
inside it. A complaint always answers a line just read: no part of a session begins with one.
-/

namespace Repl

open Exchange Terminal

variable {τ ω κ γ α : Type}

/-! ## Uses of the terminal among events -/

/-- The use of the terminal that an event is, in whatever session. -/
def Event.call? : Event → Option Call
  | loop call | command call => some call
  | applied .. | logged _ => none
  | nested event => event.call?

theorem Event.invocation?_eq_map_call? : ∀ e : Event, e.invocation? = e.call?.map Call.invocation
  | loop _ | command _ | applied .. | logged _ => rfl
  | nested e => e.invocation?_eq_map_call?

/-- A use of the terminal is no log entry. -/
theorem Event.entry?_eq_none {call : Call} : ∀ {e : Event}, e.call? = some call → e.entry? = none
  | loop _, _ | command _, _ => rfl
  | nested e, h => entry?_eq_none (e := e) h

/-- Each call makes an event that is a use of the terminal. -/
def Event.Uses (event : Call → Event) : Prop :=
  ∀ call, (event call).call? = some call

theorem Event.uses_loop : Event.Uses .loop :=
  fun _ => rfl

theorem Event.uses_command : Event.Uses .command :=
  fun _ => rfl

namespace Transcript

variable {t u : Transcript} {event : Call → Event}

def calls (t : Transcript) : List Call :=
  t.filterMap Event.call?

@[simp]
theorem calls_append (t u : Transcript) : calls (t ++ u) = calls t ++ calls u :=
  List.filterMap_append

theorem calls_map (h : Event.Uses event) (calls : List Call) :
    Transcript.calls (calls.map event) = calls := by
  have hevent : Event.call? ∘ event = some := funext h
  rw [Transcript.calls, List.filterMap_map, hevent, List.filterMap_some]

@[simp]
theorem calls_map_nested (t : Transcript) : calls (t.map .nested) = calls t := by
  rw [calls, List.filterMap_map]
  rfl

theorem invocations_eq_map_calls (t : Transcript) :
    t.invocations = t.calls.map Call.invocation := by
  have hevents : Event.invocation? = fun e => e.call?.map Call.invocation :=
    funext Event.invocation?_eq_map_call?
  rw [invocations, hevents, calls, List.map_filterMap]

theorem IsLog.calls_eq_nil (h : t.IsLog) : calls t = [] := by
  rw [calls, List.filterMap_eq_nil_iff]
  intro e he
  obtain ⟨entry, rfl⟩ := h e he
  rfl

/-- The events do not go on with a question: the first use of the terminal is no complaint. -/
def Fresh (t : Transcript) : Prop :=
  ∀ call, t.calls.head? = some call → call.purpose ≠ .complaint

theorem fresh_of_calls_eq_nil (h : calls t = []) : Fresh t := by
  intro call hcall
  rw [h] at hcall
  cases hcall

theorem fresh_of_calls_eq_cons {purpose : Purpose} {i : Invocation} {rest : List Call}
    (hpurpose : purpose ≠ .complaint) (h : calls t = ⟨purpose, i⟩ :: rest) : Fresh t := by
  intro call hcall
  rw [h] at hcall
  cases hcall
  exact hpurpose

theorem Fresh.append (ht : Fresh t) (hu : Fresh u) : Fresh (t ++ u) := by
  intro call hcall
  rw [calls_append] at hcall
  cases h : calls t with
  | nil =>
    rw [h] at hcall
    exact hu call hcall
  | cons first rest =>
    apply ht call
    rw [h] at hcall ⊢
    exact hcall

theorem Fresh.nested (h : Fresh t) : Fresh (t.map .nested) := by
  rwa [Fresh, calls_map_nested]

end Transcript

/-! ## No part of a session begins with a complaint -/

namespace Terminal

variable [Terminal τ] {prompt : Bytes} {parse : Bytes → Except Bytes α}

theorem exists_printFor_events (purpose : Purpose) (text : Bytes) (t : τ) :
    ∃ i, (printFor purpose text t).events = [⟨purpose, i⟩] :=
  ⟨_, congrArg Reply.events (printFor_apply purpose text t)⟩

theorem exists_nextLine_events (t : τ) : ∃ i, (nextLine t).events = [⟨.line, i⟩] :=
  ⟨_, congrArg Reply.events (nextLine_apply t)⟩

theorem exists_askOnce_events (prompt : Bytes) (parse : Bytes → Except Bytes α) (t : τ) :
    ∃ i rest, (askOnce prompt parse t).events = ⟨.prompt, i⟩ :: rest := by
  obtain ⟨i, hprompt⟩ := exists_printFor_events .prompt prompt t
  cases h : (printFor .prompt prompt t).outcome with
  | error message =>
    rw [askOnce, bind_apply_of_error h, hprompt]
    exact ⟨i, [], rfl⟩
  | ok _ =>
    rw [askOnce, bind_apply_of_ok h, hprompt]
    exact ⟨i, _, rfl⟩

theorem Asks.exists_events {t : τ} {answer : Reply Call τ α} (h : Asks prompt parse t answer) :
    ∃ i rest, answer.events = ⟨.prompt, i⟩ :: rest := by
  cases h with
  | failed hround | answered hround =>
    obtain ⟨i, rest, hevents⟩ := exists_askOnce_events prompt parse t
    rw [hround] at hevents
    exact ⟨i, rest, hevents⟩
  | again hround _ =>
    obtain ⟨i, rest, hevents⟩ := exists_askOnce_events prompt parse t
    rw [hround] at hevents
    dsimp only at hevents
    rw [Reply.after_events, hevents]
    exact ⟨i, _, rfl⟩

theorem Asks.fresh {t : τ} {answer : Reply Call τ α} (h : Asks prompt parse t answer)
    {event : Call → Event} (hevent : Event.Uses event) :
    Transcript.Fresh (answer.events.map event) := by
  obtain ⟨i, rest, hevents⟩ := h.exists_events
  apply Transcript.fresh_of_calls_eq_cons (by decide : Purpose.prompt ≠ .complaint)
  rw [Transcript.calls_map hevent, hevents]

end Terminal

namespace Session

variable [Host ω] {app : Application κ γ}

theorem write_fresh {event : Call → Event} (hevent : Event.Uses event) (text : Bytes)
    (s : State ω γ) : Transcript.Fresh (onTerminal event (write text) s).events := by
  obtain ⟨i, hwrite⟩ := exists_printFor_events .output text s.host
  apply Transcript.fresh_of_calls_eq_cons (by decide : Purpose.output ≠ .complaint)
  rw [onTerminal_apply, Transcript.calls_map hevent, write, hwrite]

theorem nextLine_fresh {event : Call → Event} (hevent : Event.Uses event) (s : State ω γ) :
    Transcript.Fresh (onTerminal event nextLine s).events := by
  obtain ⟨i, hline⟩ := exists_nextLine_events s.host
  apply Transcript.fresh_of_calls_eq_cons (by decide : Purpose.line ≠ .complaint)
  rw [onTerminal_apply, Transcript.calls_map hevent, hline]

theorem log_fresh (level : Log.Level) (message : Bytes) (s : State ω γ) :
    Transcript.Fresh (log level message s).events :=
  Transcript.fresh_of_calls_eq_nil (isLog_log level message s).calls_eq_nil

theorem closing_fresh (outcome : Except Bytes Unit) (s : State ω γ) :
    Transcript.Fresh (closing outcome s).events := by
  cases outcome with
  | ok _ => exact log_fresh _ _ s
  | error message => exact log_fresh _ _ s

theorem conclude_fresh (result : ApplyResult) (s : State ω γ) :
    Transcript.Fresh (conclude result s).events := by
  cases result with
  | applied | skipped | accessTerminalError message => exact Transcript.fresh_of_calls_eq_nil rfl
  | applicationError message data =>
    rw [conclude_applicationError]
    exact (log_fresh .warning _ s).append (write_fresh Event.uses_loop _ _)

theorem Unfolds.fresh {part : Part γ} {s : State ω γ} {reply : Reply Event (State ω γ) part.Yield}
    (h : Unfolds app part s reply) : Transcript.Fresh reply.events := by
  induction h with
  | finish | stopped => exact Transcript.fresh_of_calls_eq_nil rfl
  | @print text _ s _ _ _ _ hprint _ ih =>
    have hfirst := write_fresh Event.uses_command text s
    rw [hprint] at hfirst
    exact hfirst.append ih
  | @readLine _ s _ _ _ _ hread _ ih =>
    have hfirst := nextLine_fresh Event.uses_command s
    rw [hread] at hfirst
    exact hfirst.append ih
  | ask hasks _ ih => exact (hasks.fresh Event.uses_command).append ih
  | update _ ih | consult _ ih | setFlag _ ih | consultFlag _ ih => exact ih
  | nest _ _ ihinner ih => exact ihinner.nested.append ih
  | unread hasks => exact hasks.fresh Event.uses_loop
  | @applied _ _ s' _ _ _ result _ hasks _ ih =>
    have happlied : Transcript.Fresh [.applied result s'.flag] :=
      Transcript.fresh_of_calls_eq_nil rfl
    have hread := hasks.fresh Event.uses_loop
    exact ((hread.append ih).append happlied).append (conclude_fresh result s')
  | failed _ _ ih => exact ih
  | again _ _ _ ihround ih => exact ihround.append ih
  | @session s cycle _ ih =>
    rw [bracket_const_eq]
    exact (log_fresh _ _ _).append (ih.append (closing_fresh cycle.outcome cycle.state))

end Session

end Repl
