import Repl.Proofs.Session.Positions

/-!
Sessions that are fed lines by a terminal that prints everything. If the commands only print and set
the run flag, the lines alone tell how a session ends: with the first line whose command stops it,
or else with the failure that comes after the last line.
-/

namespace Repl

open Exchange Terminal

variable {τ ω κ γ α : Type} {message : Bytes} {lines left : List Bytes} {reads : Nat}

/-! ## Questions -/

namespace Terminal

/-- The terminals that `G` relates to lines give them, one after another, and fail with the message
from then on. They print everything. -/
structure Feeds [Terminal τ] (G : List Bytes → τ → Prop) (message : Bytes) : Prop where
  print : ∀ {lines t} text, G lines t → (print text t).1 = .ok () ∧ G lines (print text t).2
  line : ∀ {line others t}, G (line :: others) t →
    (readLine t).1 = .ok line ∧ G others (readLine t).2
  ended : ∀ {t}, G [] t → (readLine t).1 = .error message ∧ G [] (readLine t).2

/-- What a question makes of the lines: its outcome, the lines that it leaves, and how often it
reads. -/
inductive Takes (parse : Bytes → Except Bytes α) (message : Bytes) :
    List Bytes → Except Bytes α → List Bytes → Nat → Prop where
  | ended : Takes parse message [] (.error message) [] 1
  | accepted {line : Bytes} {others : List Bytes} {value : α}
    (hparse : parse (Text.trim line) = .ok value) :
    Takes parse message (line :: others) (.ok value) others 1
  | refused {line reason : Bytes} {others left : List Bytes} {outcome : Except Bytes α}
    {reads : Nat} (hparse : parse (Text.trim line) = .error reason)
    (rest : Takes parse message others outcome left reads) :
    Takes parse message (line :: others) outcome left (reads + 1)

variable [Terminal τ] {G : List Bytes → τ → Prop} {prompt : Bytes}
  {parse : Bytes → Except Bytes α} {t : τ}

theorem Feeds.printFor_eq (hG : Feeds G message) (purpose : Purpose) (text : Bytes)
    (ht : G lines t) :
    ∃ t', printFor purpose text t = ⟨.ok (), [⟨purpose, .printed text⟩], t'⟩ ∧ G lines t' := by
  have ⟨hprinted, hafter⟩ := hG.print text ht
  rw [printFor_apply, hprinted]
  exact ⟨_, rfl, hafter⟩

theorem Feeds.askOnce_nil (hG : Feeds G message) (ht : G [] t) :
    ∃ calls t', askOnce prompt parse t = ⟨.error message, calls, t'⟩ ∧ Call.reads calls = 1 ∧
      G [] t' := by
  obtain ⟨prompted, hprompt, hprompted⟩ := hG.printFor_eq .prompt prompt ht
  have ⟨hended, hafter⟩ := hG.ended hprompted
  exact ⟨_, _, askOnce_of_unread hprompt (nextLine_of_outcome hended), rfl, hafter⟩

/-- A round takes one line, whether or not the line is refused. -/
theorem Feeds.askOnce_cons {line : Bytes} {others : List Bytes} (hG : Feeds G message)
    (ht : G (line :: others) t) :
    ∃ calls t', askOnce prompt parse t = ⟨.ok (parse (Text.trim line)).toOption, calls, t'⟩ ∧
      Call.reads calls = 1 ∧ G others t' := by
  obtain ⟨prompted, hprompt, hprompted⟩ := hG.printFor_eq .prompt prompt ht
  have ⟨hline, hafter⟩ := hG.line hprompted
  have hread := nextLine_of_outcome hline
  cases hparse : parse (Text.trim line) with
  | ok value => exact ⟨_, _, askOnce_of_accepted hprompt hread hparse, rfl, hafter⟩
  | error reason =>
    obtain ⟨complained, hcomplaint, hcomplained⟩ :=
      hG.printFor_eq .complaint (complaint reason) hafter
    exact ⟨_, _, askOnce_of_refused hprompt hread hparse hcomplaint, rfl, hcomplained⟩

section

variable {t' : τ} {calls : List Call}

/-- A round that fails found no line. -/
theorem Feeds.of_askOnce_error {failure : Bytes} (hG : Feeds G message) (ht : G lines t)
    (hround : askOnce prompt parse t = ⟨.error failure, calls, t'⟩) :
    lines = [] ∧ failure = message ∧ Call.reads calls = 1 ∧ G [] t' := by
  cases lines with
  | nil =>
    obtain ⟨_, _, heq, hreads, hafter⟩ := hG.askOnce_nil ht
    cases hround.symm.trans heq
    exact ⟨rfl, rfl, hreads, hafter⟩
  | cons line others =>
    obtain ⟨_, _, heq, -⟩ := hG.askOnce_cons ht
    cases hround.symm.trans heq

theorem Feeds.of_askOnce_ok {result : Option α} (hG : Feeds G message) (ht : G lines t)
    (hround : askOnce prompt parse t = ⟨.ok result, calls, t'⟩) :
    ∃ line others, lines = line :: others ∧ (parse (Text.trim line)).toOption = result ∧
      Call.reads calls = 1 ∧ G others t' := by
  cases lines with
  | nil =>
    obtain ⟨_, _, heq, -⟩ := hG.askOnce_nil ht
    cases hround.symm.trans heq
  | cons line others =>
    obtain ⟨_, _, heq, hreads, hafter⟩ := hG.askOnce_cons ht
    obtain ⟨hresult, rfl, rfl⟩ := Reply.mk.inj (hround.symm.trans heq)
    exact ⟨line, others, rfl, (Except.ok.inj hresult).symm, hreads, hafter⟩

end

theorem Asks.takes {answer : Reply Call τ α} (hG : Feeds G message)
    (h : Asks prompt parse t answer) (ht : G lines t) :
    ∃ left, Takes parse message lines answer.outcome left (Call.reads answer.events) ∧
      G left answer.state := by
  induction h generalizing lines with
  | failed hround =>
    obtain ⟨rfl, rfl, hreads, hafter⟩ := hG.of_askOnce_error ht hround
    exact ⟨[], hreads ▸ .ended, hafter⟩
  | @answered _ _ value calls hround =>
    obtain ⟨line, others, rfl, hvalue, hreads, hafter⟩ := hG.of_askOnce_ok ht hround
    have hparse : parse (Text.trim line) = .ok value := by
      cases hline : parse (Text.trim line) with
      | error reason => rw [hline] at hvalue; cases hvalue
      | ok other => rw [hline] at hvalue; cases hvalue; rfl
    exact ⟨others, hreads ▸ .accepted hparse, hafter⟩
  | @again _ _ calls answer hround _ ih =>
    obtain ⟨line, others, rfl, hvalue, hreads, hafter⟩ := hG.of_askOnce_ok ht hround
    obtain ⟨reason, hparse⟩ : ∃ reason, parse (Text.trim line) = .error reason := by
      cases hline : parse (Text.trim line) with
      | error reason => exact ⟨reason, rfl⟩
      | ok other => rw [hline] at hvalue; cases hvalue
    -- The refused line costs one read, on top of those of the question asked again.
    obtain ⟨left, htakes, hleft⟩ := ih hafter
    refine ⟨left, ?_, hleft⟩
    show Takes parse message _ _ left (Call.reads (_ ++ answer.events))
    rw [Call.reads_append, hreads, Nat.add_comm]
    exact .refused hparse htakes

end Terminal

/-! ## Commands -/

/-- The hosts are fed lines, and log whatever they are told to. -/
structure Host.Feeds [Host ω] (G : List Bytes → ω → Prop) (message : Bytes) : Prop extends
    Terminal.Feeds G message where
  log : ∀ {lines h} entry, G lines h → G lines (Host.log entry h).2

/-- Begun at one run flag, the command leaves another one. All it does besides is to print and to
see to what the application keeps, and it fails with the terminal only if a print does. -/
inductive Action.Talks : RunFlag → RunFlag → Action γ → Prop where
  | finish {flag : RunFlag} {result : ApplyResult} (h : result.accessTerminal = none) :
    Talks flag flag (.finish result)
  | print {flag last : RunFlag} {text : Bytes} {next : Except Bytes Unit → Action γ}
    (rest : Talks flag last (next (.ok ()))) : Talks flag last (.print text next)
  | update {flag last : RunFlag} {f : γ → γ} {next : Action γ} (rest : Talks flag last next) :
    Talks flag last (.update f next)
  | consult {flag last : RunFlag} {next : γ → Action γ}
    (rest : ∀ context, Talks flag last (next context)) : Talks flag last (.consult next)
  | setFlag {flag flag' last : RunFlag} {next : Action γ} (rest : Talks flag' last next) :
    Talks flag last (.setFlag flag' next)
  | consultFlag {flag last : RunFlag} {next : RunFlag → Action γ}
    (rest : Talks flag last (next flag)) : Talks flag last (.consultFlag next)

theorem Action.Talks.printLine {flag last : RunFlag} {text : Bytes} {next : Action γ}
    (h : next.Talks flag last) : (Action.printLine text next).Talks flag last :=
  .print h

namespace Session

variable [Host ω] {G : List Bytes → ω → Prop} {app : Application κ γ} {s : State ω γ}

/-- A part of a session has read nothing: the lines are as before. The run flag is the given one. -/
structure Talked (G : List Bytes → ω → Prop) (lines : List Bytes) (flag : RunFlag)
    (reply : Reply Event (State ω γ) α) : Prop where
  reads : Transcript.reads reply.events = 0
  lines : G lines reply.state.host
  flag : reply.state.flag = flag

omit [Host ω] in
theorem Talked.after {flag : RunFlag} {events : List Event} {reply : Reply Event (State ω γ) α}
    (h : Talked G lines flag reply) (hevents : Transcript.reads events = 0) :
    Talked G lines flag (reply.after events) where
  reads := by
    show Transcript.reads (events ++ reply.events) = 0
    rw [Transcript.reads_append, hevents, h.reads]
  lines := h.lines
  flag := h.flag

theorem write_talked (hG : Host.Feeds G message) {event : Call → Event}
    (hevent : Event.Uses event) (text : Bytes) (hs : G lines s.host) :
    (onTerminal event (write text) s).outcome = .ok () ∧
      Talked G lines s.flag (onTerminal event (write text) s) := by
  obtain ⟨h, hprint, hafter⟩ := hG.printFor_eq .output text hs
  rw [onTerminal_apply, write, hprint]
  refine ⟨rfl, ?_, hafter, rfl⟩
  rw [Transcript.reads_map hevent]
  rfl

theorem Unfolds.talked {action : Action γ} {flag last : RunFlag}
    {reply : Reply Event (State ω γ) ApplyResult} (hG : Host.Feeds G message)
    (hunfolds : Unfolds app (.command action) s reply) (h : action.Talks flag last)
    (hs : G lines s.host) (hflag : s.flag = flag) :
    Talked G lines last reply ∧
      ∃ result, reply.outcome = .ok result ∧ result.accessTerminal = none := by
  induction h generalizing s reply with
  | finish hresult =>
    cases hunfolds
    exact ⟨⟨rfl, hs, hflag⟩, _, rfl, hresult⟩
  | @print _ _ text _ _ ih =>
    cases hunfolds with
    | print hprint rest =>
      have ⟨houtcome, htalked⟩ := write_talked hG Event.uses_command text hs
      rw [hprint] at houtcome htalked
      dsimp only at houtcome
      rw [houtcome] at rest
      have ⟨hrest, hresult⟩ := ih rest htalked.lines (htalked.flag.trans hflag)
      exact ⟨hrest.after htalked.reads, hresult⟩
  | update _ ih => cases hunfolds with | update rest => exact ih rest hs hflag
  | consult _ ih => cases hunfolds with | consult rest => exact ih _ rest hs hflag
  | setFlag _ ih => cases hunfolds with | setFlag rest => exact ih rest hs rfl
  | consultFlag _ ih =>
    cases hunfolds with
    | consultFlag rest =>
      rw [hflag] at rest
      exact ih rest hs hflag

/-- What the session says of a command's error it can say. -/
theorem conclude_talked (hG : Host.Feeds G message) {result : ApplyResult}
    (hresult : result.accessTerminal = none) (hs : G lines s.host) :
    Talked G lines s.flag (conclude result s) ∧ ∃ next, (conclude result s).outcome = .ok next := by
  cases result with
  | applied | skipped => exact ⟨⟨rfl, hs, rfl⟩, _, rfl⟩
  | accessTerminalError message => cases hresult
  | applicationError message data =>
    have hlogged : G lines (log .warning (errorReport message) s).state.host := hG.log _ hs
    have ⟨houtcome, htalked⟩ := write_talked (s := (log .warning (errorReport message) s).state) hG
      Event.uses_loop (Text.withNewline (errorReport message ++ ascii ".")) hlogged
    rw [conclude_applicationError]
    refine ⟨⟨?_, htalked.lines, htalked.flag⟩, .erred, ?_⟩
    · rw [Transcript.reads_append, (isLog_log _ _ s).reads_eq_zero]
      exact (Nat.zero_add _).trans htalked.reads
    · exact congrArg (Except.map _) houtcome

/-! ## Sessions -/

/-- What lines make of a session: how often it reads, and its outcome. `quits` tells the lines that
stop it. -/
inductive EndsOn (quits : Bytes → Prop) (message : Bytes) :
    List Bytes → Nat → Except Bytes Unit → Prop where
  | lost : EndsOn quits message [] 1 (.error message)
  | quit {line : Bytes} {others : List Bytes} (h : quits line) :
    EndsOn quits message (line :: others) 1 (.ok ())
  | later {line : Bytes} {others : List Bytes} {reads : Nat} {outcome : Except Bytes Unit}
    (h : ¬quits line) (rest : EndsOn quits message others reads outcome) :
    EndsOn quits message (line :: others) (reads + 1) outcome

/-- The lines that are commands after which the run flag says to stop. -/
def Quits (app : Application κ γ) (flagAfter : κ → RunFlag) (line : Bytes) : Prop :=
  ∃ command, app.parseLine (Text.trim line) = .ok command ∧ flagAfter command = .stopped

section

variable {quits : Bytes → Prop} {outcome : Except Bytes Unit}

theorem EndsOn.outcome_eq (h : EndsOn quits message lines reads outcome) :
    (∃ line ∈ lines, quits line) ∧ outcome = .ok () ∨
      (∀ line ∈ lines, ¬quits line) ∧ outcome = .error message := by
  induction h with
  | lost => exact .inr ⟨fun _ hline => absurd hline List.not_mem_nil, rfl⟩
  | quit h => exact .inl ⟨⟨_, List.mem_cons_self, h⟩, rfl⟩
  | later h _ ih =>
    obtain ⟨⟨line, hmem, hline⟩, houtcome⟩ | ⟨hothers, houtcome⟩ := ih
    · exact .inl ⟨⟨line, List.mem_cons_of_mem _ hmem, hline⟩, houtcome⟩
    · exact .inr ⟨List.forall_mem_cons.2 ⟨h, hothers⟩, houtcome⟩

/-- Nothing is read after a line that stops the session. -/
theorem EndsOn.reads_le {before after : List Bytes} {line : Bytes} (hline : quits line)
    (h : EndsOn quits message (before ++ line :: after) reads outcome) :
    reads ≤ before.length + 1 := by
  induction before generalizing reads with
  | nil =>
    cases h with
    | quit _ => exact Nat.le_refl 1
    | later hnot _ => exact absurd hline hnot
  | cons first before ih =>
    cases h with
    | quit _ => exact Nat.le_add_left 1 _
    | later _ rest => exact Nat.succ_le_succ (ih rest)

variable {flagAfter : κ → RunFlag}

theorem EndsOn.of_refused {line reason : Bytes} {others : List Bytes}
    (hparse : app.parseLine (Text.trim line) = .error reason)
    (h : EndsOn (Quits app flagAfter) message others reads outcome) :
    EndsOn (Quits app flagAfter) message (line :: others) (reads + 1) outcome := by
  refine .later ?_ h
  rintro ⟨command, hcommand, -⟩
  cases hparse.symm.trans hcommand

theorem endsOn_of_takes_error {failure : Bytes}
    (h : Takes app.parseLine message lines (.error failure) left reads) :
    EndsOn (Quits app flagAfter) message lines reads (.error failure) := by
  generalize houtcome : (.error failure : Except Bytes κ) = outcome at h
  induction h with
  | ended =>
    cases houtcome
    exact .lost
  | accepted _ => cases houtcome
  | refused hparse _ ih => exact (ih houtcome).of_refused hparse

/-- A command stops the session, or leaves it to the lines after its own. -/
theorem endsOn_of_takes_ok {command : κ} {more : Nat}
    (h : Takes app.parseLine message lines (.ok command) left reads)
    (hrest : flagAfter command = .stopped ∧ more = 0 ∧ outcome = .ok () ∨
      flagAfter command = .running ∧ EndsOn (Quits app flagAfter) message left more outcome) :
    EndsOn (Quits app flagAfter) message lines (reads + more) outcome := by
  generalize htaken : (.ok command : Except Bytes κ) = taken at h
  induction h with
  | ended => cases htaken
  | @accepted line others value hparse =>
    cases htaken
    obtain ⟨hflag, rfl, rfl⟩ | ⟨hflag, hothers⟩ := hrest
    · exact .quit ⟨command, hparse, hflag⟩
    · rw [Nat.add_comm]
      refine .later ?_ hothers
      rintro ⟨other, hother, hstopped⟩
      cases hparse.symm.trans hother
      cases hflag.symm.trans hstopped
  | refused hparse _ ih =>
    rw [Nat.add_right_comm]
    exact (ih hrest htaken).of_refused hparse

end

/-- The reads of a part that goes on with the lines, and how it ends. -/
def FollowsLines (G : List Bytes → ω → Prop) (message : Bytes) (app : Application κ γ)
    (flagAfter : κ → RunFlag) :
    (part : Part γ) → State ω γ → Reply Event (State ω γ) part.Yield → Prop
  | .command _, _, _ => True
  | .round _, s, reply => ∀ lines, G lines s.host → s.flag = .running →
    (∀ failure, reply.outcome = .error failure →
      EndsOn (Quits app flagAfter) message lines (Transcript.reads reply.events)
        (.error failure)) ∧
    ∀ next, reply.outcome = .ok next → ∃ command left,
      Takes app.parseLine message lines (.ok command) left (Transcript.reads reply.events) ∧
        G left reply.state.host ∧ reply.state.flag = flagAfter command
  | .rounds _, s, reply => ∀ lines, G lines s.host → s.flag = .running →
    EndsOn (Quits app flagAfter) message lines (Transcript.reads reply.events) reply.outcome
  | .session, s, reply => ∀ lines, G lines s.host →
    EndsOn (Quits app flagAfter) message lines (Transcript.reads reply.events) reply.outcome

/-- The lines alone tell how a session ends, if each of its commands only talks. -/
theorem Unfolds.followsLines {flagAfter : κ → RunFlag} (hG : Host.Feeds G message)
    (hactions : ∀ command, (app.action command).Talks .running (flagAfter command))
    {part : Part γ} {reply : Reply Event (State ω γ) part.Yield} (h : Unfolds app part s reply) :
    FollowsLines G message app flagAfter part s reply := by
  induction h with
  -- What a command does is told by how it talks, whatever part of a session it is in.
  | finish | print _ _ _ | readLine _ _ _ | ask _ _ _ | update _ _ | consult _ _ | setFlag _ _
    | consultFlag _ _ | nest _ _ _ _ => trivial
  | unread hasks =>
    intro lines hs _
    obtain ⟨left, htakes, -⟩ := hasks.takes hG.toFeeds hs
    refine ⟨?_, nofun⟩
    rintro _ ⟨⟩
    rw [Transcript.reads_map Event.uses_loop]
    exact endsOn_of_takes_error htakes
  | @applied _ s s' command calls h result events hasks hcommand _ =>
    intro lines hs hflag
    obtain ⟨left, htakes, hleft⟩ := hasks.takes hG.toFeeds hs
    have ⟨htalked, _, houtcome, hresult⟩ := hcommand.talked hG (hactions command) hleft hflag
    cases houtcome
    have ⟨hconcluded, next, hnext⟩ := conclude_talked hG hresult htalked.lines
    have hreads : Transcript.reads ((conclude result s').after
        (calls.map .loop ++ events ++ [.applied result s'.flag])).events = Call.reads calls := by
      show Transcript.reads (_ ++ _) = _
      rw [Transcript.reads_append, Transcript.reads_append, Transcript.reads_append,
        hconcluded.reads, htalked.reads, Transcript.reads_map Event.uses_loop]
      rfl
    rw [hreads]
    constructor
    · intro failure hfailed
      cases hnext.symm.trans hfailed
    · intro _ _
      exact ⟨command, left, htakes, hconcluded.lines, hconcluded.flag.trans htalked.flag⟩
  | stopped hflag =>
    intro lines hs hrunning
    cases hflag.symm.trans hrunning
  | failed hflag hround ih => exact fun lines hs _ => (ih lines hs hflag).1 _ rfl
  | @again _ _ s s' events reply hflag hround rest ihround ih =>
    intro lines hs _
    obtain ⟨command, left, htakes, hleft, hafter⟩ := (ihround lines hs hflag).2 _ rfl
    show EndsOn _ _ _ (Transcript.reads (events ++ reply.events)) _
    rw [Transcript.reads_append]
    apply endsOn_of_takes_ok htakes
    -- The rounds after this one look at the flag before they read.
    cases hcommand : flagAfter command with
    | stopped =>
      have hstopped : s'.flag = .stopped := hafter.trans hcommand
      cases rest with
      | stopped _ => exact .inl ⟨rfl, rfl, rfl⟩
      | failed hrunning _ | again hrunning _ _ => cases hstopped.symm.trans hrunning
    | running => exact .inr ⟨rfl, ih left hleft (hafter.trans hcommand)⟩
  | @session s cycle _ ih =>
    intro lines hs
    have hrounds := ih lines (hG.log _ hs) rfl
    -- The entries before and after the rounds read nothing.
    rw [bracket_const_eq]
    show EndsOn _ _ _ (Transcript.reads (_ ++ (cycle.events ++ _))) _
    rw [Transcript.reads_append, Transcript.reads_append, (isLog_log _ _ _).reads_eq_zero,
      (isLog_closing _ _).reads_eq_zero, Nat.zero_add]
    exact hrounds

theorem run_endsOn {P : ω → Prop} {flagAfter : κ → RunFlag} (hP : Host.Supply P)
    (hG : Host.Feeds G message)
    (hactions : ∀ command, (app.action command).Talks .running (flagAfter command))
    (hhost : P s.host) (hs : G lines s.host) :
    EndsOn (Quits app flagAfter) message lines (Transcript.reads (run app s).events)
      (run app s).outcome := by
  have hrun : Unfolds app .session s (run app s) := unfolds_run hP hhost
  exact hrun.followsLines hG hactions lines hs

end Session

end Repl
