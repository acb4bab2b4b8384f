import Repl.Proofs.Session.Outcomes

/-!
The phases of a session. From each phase only certain events lead on, and from the first phase to
the last one only events of a session that goes by the results of its commands.
-/

namespace Repl

/-- What a session does next, as far as its events tell. -/
inductive Phase where
  | prompting (last : LastOutcome)
  | listening (last : LastOutcome)
  | judging (last : LastOutcome)
  | owing (message : Bytes) (flag : RunFlag)
  | closing

namespace Phase

/-- The phase between two commands. -/
def between (last : LastOutcome) : RunFlag → Phase
  | .running => prompting last
  | .stopped => closing

/-- The phase once a command has ended. -/
def ended (flag : RunFlag) : ApplyResult → Phase
  | .applied => between .applied flag
  | .skipped => between .skipped flag
  | .applicationError message _ => owing message flag
  | .accessTerminalError _ => closing

/-- The phase after a use of the terminal: a failure leads to the end. -/
def unlessFailed (i : Invocation) (next : Phase) : Phase :=
  if i.succeeded then next else closing

/-- The events that lead from phase to phase. While a line is judged, its command may use the
terminal and run sessions; log entries come at any time. -/
inductive Step (prompts : Prompts) : Phase → Event → Phase → Prop where
  | logged {phase : Phase} {entry : Log.Entry} : Step prompts phase (.logged entry) phase
  | prompted {last : LastOutcome} {i : Invocation} (h : i.IsPrintOf (prompts.after last)) :
    Step prompts (prompting last) (.loop ⟨.prompt, i⟩) (unlessFailed i (listening last))
  | heard {last : LastOutcome} {i : Invocation} (h : i.isRead = true) :
    Step prompts (listening last) (.loop ⟨.line, i⟩) (unlessFailed i (judging last))
  | refused {last : LastOutcome} {i : Invocation} {reason : Bytes}
    (h : i.IsPrintOf (Terminal.complaint reason)) :
    Step prompts (judging last) (.loop ⟨.complaint, i⟩) (unlessFailed i (prompting last))
  | command {last : LastOutcome} {call : Call} :
    Step prompts (judging last) (.command call) (judging last)
  | nested {last : LastOutcome} {event : Event} :
    Step prompts (judging last) (.nested event) (judging last)
  | applied {last : LastOutcome} {result : ApplyResult} {flag : RunFlag} :
    Step prompts (judging last) (.applied result flag) (ended flag result)
  | reported {message : Bytes} {flag : RunFlag} {i : Invocation}
    (h : Call.IsReport ⟨.output, i⟩ message) :
    Step prompts (owing message flag) (.loop ⟨.output, i⟩) (unlessFailed i (between .erred flag))

/-- Events one after another. -/
inductive Trace (prompts : Prompts) : Phase → Transcript → Phase → Prop where
  | nil {phase : Phase} : Trace prompts phase [] phase
  | cons {phase next last : Phase} {e : Event} {t : Transcript} (head : Step prompts phase e next)
    (tail : Trace prompts next t last) : Trace prompts phase (e :: t) last

variable {prompts : Prompts} {phase next : Phase} {t u : Transcript} {e : Event}

theorem Trace.append {last : Phase} (h : Trace prompts phase t next)
    (h' : Trace prompts next u last) : Trace prompts phase (t ++ u) last := by
  induction h with
  | nil => exact h'
  | cons head _ ih => exact .cons head (ih h')

theorem trace_append_iff {last : Phase} :
    Trace prompts phase (t ++ u) last ↔
      ∃ next, Trace prompts phase t next ∧ Trace prompts next u last := by
  refine ⟨fun h => ?_, fun ⟨_, ht, hu⟩ => ht.append hu⟩
  induction t generalizing phase with
  | nil => exact ⟨phase, .nil, h⟩
  | cons e t ih =>
    cases h with
    | cons head tail =>
      obtain ⟨next, ht, hu⟩ := ih tail
      exact ⟨next, .cons head ht, hu⟩

/-! ## What is known of the events before a phase -/

def Knows : Phase → Transcript → Prop
  | prompting last, t | listening last, t | judging last, t => t.outcome? = some last
  | owing message flag, t =>
    ∃ (earlier : Transcript) (data : Option Bytes) (note : Transcript),
      t = earlier ++ .applied (.applicationError message data) flag :: note ∧ note.IsLog
  -- Nothing follows that would have to be accounted for.
  | closing, _ => True

theorem knows_unlessFailed {i : Invocation} (h : next.Knows t) : (unlessFailed i next).Knows t := by
  unfold unlessFailed
  split
  · exact h
  · trivial

theorem knows_between {last : LastOutcome} (flag : RunFlag) (h : t.outcome? = some last) :
    (between last flag).Knows t := by
  cases flag with
  | running => exact h
  | stopped => trivial

theorem knows_ended (t : Transcript) (flag : RunFlag) (result : ApplyResult) :
    (ended flag result).Knows (t ++ [.applied result flag]) := by
  have houtcome := Transcript.outcome?_append_applied t result flag
  cases result with
  | applied => exact knows_between flag houtcome
  | skipped => exact knows_between flag houtcome
  | applicationError message data => exact ⟨t, data, [], rfl, Transcript.isLog_nil⟩
  | accessTerminalError message => trivial

theorem Knows.append_logged (h : phase.Knows t) (entry : Log.Entry) :
    phase.Knows (t ++ [.logged entry]) := by
  have houtcome : Transcript.outcome? (t ++ [.logged entry]) = t.outcome? :=
    Transcript.outcome?_append rfl
  cases phase with
  | prompting last => exact houtcome.trans h
  | listening last => exact houtcome.trans h
  | judging last => exact houtcome.trans h
  | owing message flag =>
    obtain ⟨earlier, data, note, rfl, hnote⟩ := h
    refine ⟨earlier, data, note ++ [.logged entry], ?_, ?_⟩
    · rw [List.append_assoc]
      rfl
    · exact hnote.append (Transcript.isLog_nil.cons entry)
  | closing => trivial

theorem Knows.step (h : phase.Knows t) (hstep : Step prompts phase e next) :
    next.Knows (t ++ [e]) := by
  have houtcome (call : Call) : Transcript.outcome? (t ++ [.loop call]) = t.outcome? :=
    Transcript.outcome?_append rfl
  cases hstep with
  | logged => exact h.append_logged _
  | prompted _ => exact knows_unlessFailed ((houtcome _).trans h)
  | heard _ => exact knows_unlessFailed ((houtcome _).trans h)
  | refused _ => exact knows_unlessFailed ((houtcome _).trans h)
  | command => exact (Transcript.outcome?_append rfl).trans h
  | nested => exact (Transcript.outcome?_append rfl).trans h
  | applied => exact knows_ended t _ _
  | reported _ =>
    obtain ⟨earlier, data, note, rfl, hnote⟩ := h
    refine knows_unlessFailed (knows_between _ ((houtcome _).trans ?_))
    -- The note is log entries only, so the error is still the latest result.
    rw [List.append_cons, Transcript.outcome?_append hnote.results_eq_nil,
      Transcript.outcome?_append_applied]
    rfl

theorem Knows.trace (h : phase.Knows u) (ht : Trace prompts phase t next) :
    next.Knows (u ++ t) := by
  induction ht generalizing u with
  | nil => rwa [List.append_nil]
  | cons head _ ih =>
    rw [List.append_cons]
    exact ih (h.step head)

/-! ## What follows a phase -/

theorem isLog_of_trace_closing (h : Trace prompts closing t next) : t.IsLog := by
  generalize hphase : closing = phase at h
  induction h with
  | nil => exact Transcript.isLog_nil
  | cons head _ ih =>
    subst hphase
    cases head with
    | logged => exact (ih rfl).cons _

theorem next_of_trace_prompting {last : LastOutcome}
    (h : Trace prompts (prompting last) t closing) :
    t.Next fun call _ => call.purpose = .prompt := by
  generalize hphase : prompting last = phase at h
  generalize hlast : closing = final at h
  -- The induction steps over the log entries before the prompt.
  induction h with
  | nil => cases hphase.trans hlast.symm
  | cons head _ ih =>
    subst hphase
    cases head with
    | logged => exact (ih rfl hlast).cons_logged _
    | prompted _ => exact Transcript.next_loop rfl

theorem goesOn_of_trace_between {last : LastOutcome} {flag : RunFlag}
    (h : Trace prompts (between last flag) t closing) : t.GoesOn (flag = .running) := by
  cases flag with
  | running => exact ⟨fun _ => next_of_trace_prompting h, fun hnot => absurd rfl hnot⟩
  | stopped =>
    refine ⟨?_, fun _ => isLog_of_trace_closing h⟩
    rintro ⟨⟩

theorem goesOn_of_trace_unlessFailed {last : LastOutcome} {flag : RunFlag} {i : Invocation}
    (h : Trace prompts (unlessFailed i (between last flag)) t closing) :
    t.GoesOn (flag = .running ∧ i.succeeded) := by
  unfold unlessFailed at h
  split at h
  · rename_i hi
    simpa [Transcript.GoesOn, hi] using goesOn_of_trace_between h
  · rename_i hi
    exact ⟨fun hboth => absurd hboth.2 hi, fun _ => isLog_of_trace_closing h⟩

theorem next_of_trace_owing {message : Bytes} {flag : RunFlag}
    (h : Trace prompts (owing message flag) t closing) :
    t.Next fun call rest =>
      call.IsReport message ∧ rest.GoesOn (flag = .running ∧ call.invocation.succeeded) := by
  generalize hphase : owing message flag = phase at h
  generalize hlast : closing = final at h
  -- The induction steps over the log entries before the report.
  induction h with
  | nil => cases hphase.trans hlast.symm
  | cons head tail ih =>
    subst hphase
    cases head with
    | logged => exact (ih rfl hlast).cons_logged _
    | reported h =>
      subst hlast
      exact Transcript.next_loop ⟨h, goesOn_of_trace_unlessFailed tail⟩

theorem answers_of_trace_ended {flag : RunFlag} {result : ApplyResult}
    (h : Trace prompts (ended flag result) t closing) : t.Answers flag result := by
  cases result with
  | applied => exact goesOn_of_trace_between h
  | skipped => exact goesOn_of_trace_between h
  | applicationError message data => exact next_of_trace_owing h
  | accessTerminalError message => exact isLog_of_trace_closing h

theorem accountsFor_of_step {call : Call} (h : phase.Knows t)
    (hstep : Step prompts phase (.loop call) next) : t.AccountsFor prompts call := by
  cases hstep with
  | prompted hprint => exact ⟨_, h, Invocation.isPromptFor_iff.2 hprint⟩
  | heard hread => exact hread
  | refused hprint => exact ⟨_, hprint⟩
  | reported hreport =>
    obtain ⟨earlier, data, note, rfl, hnote⟩ := h
    exact ⟨earlier, _, data, _, note, rfl, hnote, hreport⟩

/-- A session that runs through its phases goes by the results of its commands. -/
theorem Trace.followsOutcomes (h : Trace prompts (prompting .applied) t closing) :
    t.FollowsOutcomes prompts where
  accounted before call after heq := by
    subst heq
    obtain ⟨phase, hbefore, hafter⟩ := trace_append_iff.1 h
    cases hafter with
    | cons head _ =>
      -- Before any command the prompt is the one for `applied`.
      have hstart : (prompting .applied).Knows [] := rfl
      exact accountsFor_of_step (hstart.trace hbefore) head
  answered before result flag after heq := by
    subst heq
    obtain ⟨phase, _, hafter⟩ := trace_append_iff.1 h
    cases hafter with
    | cons head tail =>
      cases head with
      | applied => exact answers_of_trace_ended tail

end Phase

end Repl
