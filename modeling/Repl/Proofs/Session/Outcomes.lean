import Repl.Session.Run

/-!
What a session does for the results of its commands, said of its events alone: which prompt it
prints, what it reports, and when it goes on. Events of sessions inside it are of no account here.
-/

namespace Repl

/-- The outcome that the prompt shows after a command with the result, if there is such a prompt. -/
def LastOutcome.ofResult? : ApplyResult → Option LastOutcome
  | .applied => some .applied
  | .skipped => some .skipped
  | .applicationError .. => some .erred
  | .accessTerminalError _ => none

def Invocation.IsPrintOf (i : Invocation) (text : Bytes) : Prop :=
  i.isRead = false ∧ i.text = text

/-- The prompt is printed that is set for the outcome. -/
def Invocation.IsPromptFor (i : Invocation) (prompts : Prompts) : LastOutcome → Prop
  | .applied => i.IsPrintOf prompts.applied
  | .skipped => i.IsPrintOf prompts.skipped
  | .erred => i.IsPrintOf prompts.erred

theorem Invocation.isPromptFor_iff {i : Invocation} {prompts : Prompts} {last : LastOutcome} :
    i.IsPromptFor prompts last ↔ i.IsPrintOf (prompts.after last) := by
  cases last <;> rfl

def Event.result? : Event → Option ApplyResult
  | .applied result _ => some result
  | .loop _ | .command _ | .logged _ | .nested _ => none

/-- The session's report that the application failed, successful or not. -/
def Call.IsReport (call : Call) (message : Bytes) : Prop :=
  call.purpose = .output ∧
    call.invocation.IsPrintOf (ascii "Command error: " ++ message ++ ascii ".\n")

namespace Transcript

/-- The results of the session's own commands. -/
def results (t : Transcript) : List ApplyResult :=
  t.filterMap Event.result?

/-- The outcome that the prompt shows next: `applied` before any command. -/
def outcome? (t : Transcript) : Option LastOutcome :=
  match t.results.getLast? with
  | none => some .applied
  | some result => LastOutcome.ofResult? result

def IsLog (t : Transcript) : Prop :=
  ∀ e ∈ t, ∃ entry, e = .logged entry

/-- Log entries apart, the events begin with the session's own use of the terminal, of which `P`
holds, with the events after it. -/
def Next (t : Transcript) (P : Call → Transcript → Prop) : Prop :=
  ∃ (note : Transcript) (call : Call) (rest : Transcript),
    t = note ++ .loop call :: rest ∧ note.IsLog ∧ P call rest

/-- The session prompts for another command if `again` holds; otherwise nothing follows but log
entries. -/
def GoesOn (t : Transcript) (again : Prop) : Prop :=
  (again → t.Next fun call _ => call.purpose = .prompt) ∧ (¬again → t.IsLog)

/-- The events answer a command that ended with the result and left the flag as it is. -/
def Answers (t : Transcript) (flag : RunFlag) : ApplyResult → Prop
  | .applied | .skipped => t.GoesOn (flag = .running)
  | .applicationError message _ =>
    t.Next fun call rest =>
      call.IsReport message ∧ rest.GoesOn (flag = .running ∧ call.invocation.succeeded)
  | .accessTerminalError _ => t.IsLog

/-- The events account for the session's own use of the terminal after them. -/
def AccountsFor (prompts : Prompts) (t : Transcript) (call : Call) : Prop :=
  match call.purpose with
  | .prompt => ∃ last, t.outcome? = some last ∧ call.invocation.IsPromptFor prompts last
  | .line => call.invocation.isRead
  | .complaint => ∃ reason, call.invocation.IsPrintOf (Terminal.complaint reason)
  | .output =>
    ∃ (earlier : Transcript) (message : Bytes) (data : Option Bytes) (flag : RunFlag)
      (note : Transcript),
      t = earlier ++ .applied (.applicationError message data) flag :: note ∧ note.IsLog ∧
        call.IsReport message

/-- The events of a session that goes by the results of its commands. Every prompt is the one for
the latest result, and every report is about an application's error just before it; every result is
answered at once, an application's error with a report, and only then, by the flag that the command
left, with a prompt or the end. -/
structure FollowsOutcomes (prompts : Prompts) (t : Transcript) : Prop where
  accounted : ∀ (before : Transcript) (call : Call) (after : Transcript),
    t = before ++ .loop call :: after → before.AccountsFor prompts call
  answered : ∀ (before : Transcript) (result : ApplyResult) (flag : RunFlag) (after : Transcript),
    t = before ++ .applied result flag :: after → after.Answers flag result

/-! ## Appended events -/

@[simp]
theorem results_append (t u : Transcript) : results (t ++ u) = results t ++ results u :=
  List.filterMap_append

@[simp]
theorem results_cons (e : Event) (t : Transcript) :
    results (e :: t) = e.result?.toList ++ results t := by
  cases h : e.result? with
  | none => rw [results, List.filterMap_cons_none h]; rfl
  | some result => rw [results, List.filterMap_cons_some h]; rfl

theorem isLog_nil : IsLog [] := by
  intro e he
  cases he

theorem IsLog.cons {t : Transcript} (h : t.IsLog) (entry : Log.Entry) :
    IsLog (.logged entry :: t) := by
  intro e he
  rcases List.mem_cons.1 he with rfl | he
  · exact ⟨entry, rfl⟩
  · exact h e he

theorem IsLog.append {t u : Transcript} (ht : t.IsLog) (hu : u.IsLog) : IsLog (t ++ u) := by
  intro e he
  rcases List.mem_append.1 he with he | he
  · exact ht e he
  · exact hu e he

theorem IsLog.results_eq_nil {t : Transcript} (h : t.IsLog) : results t = [] := by
  rw [results, List.filterMap_eq_nil_iff]
  intro e he
  obtain ⟨entry, rfl⟩ := h e he
  rfl

theorem IsLog.invocations_eq_nil {t : Transcript} (h : t.IsLog) : invocations t = [] := by
  rw [invocations, List.filterMap_eq_nil_iff]
  intro e he
  obtain ⟨entry, rfl⟩ := h e he
  rfl

/-- Events that are no results leave the outcome as it is. -/
theorem outcome?_append {t u : Transcript} (hu : results u = []) :
    outcome? (t ++ u) = outcome? t := by
  rw [outcome?, outcome?, results_append, hu, List.append_nil]

theorem outcome?_append_applied (t : Transcript) (result : ApplyResult) (flag : RunFlag) :
    outcome? (t ++ [.applied result flag]) = LastOutcome.ofResult? result := by
  have hresults : results (t ++ [.applied result flag]) = results t ++ [result] := by
    rw [results_append, results_cons]
    rfl
  rw [outcome?, hresults, List.getLast?_append]
  rfl

theorem Next.cons_logged {t : Transcript} {P : Call → Transcript → Prop} (h : t.Next P)
    (entry : Log.Entry) : Next (.logged entry :: t) P := by
  obtain ⟨note, call, rest, rfl, hnote, hP⟩ := h
  exact ⟨.logged entry :: note, call, rest, rfl, hnote.cons entry, hP⟩

theorem next_loop {t : Transcript} {call : Call} {P : Call → Transcript → Prop} (h : P call t) :
    Next (.loop call :: t) P :=
  ⟨[], call, t, rfl, isLog_nil, h⟩

end Transcript

end Repl
