import Repl.Proofs.Session.Phases
import Repl.Proofs.Session.Supply
import Repl.Session.Bench

/-!
A session runs through its phases: each part of the cycle leads from the phase before it to the
phase after it, whatever the commands do, and so do all rounds together.
-/

namespace Repl.Session

open Exchange Terminal Phase

variable {ω κ γ α β : Type} {P : ω → Prop} [Host ω]

/-- The events of the exchange lead from the phase to another one; `Q` holds of the outcome, of the
state and of that phase. -/
def Leads (prompts : Prompts) (phase : Phase) (x : Step ω γ α) (s : State ω γ)
    (Q : Except Bytes α → State ω γ → Phase → Prop) : Prop :=
  ∃ next, Trace prompts phase (x s).events next ∧ Q (x s).outcome (x s).state next

/-- Success leads to the given phase and failure to the end, with the flag as it was. -/
def Reaches (next : Phase) (flag : RunFlag) (o : Except Bytes α) (s : State ω γ) (phase : Phase) :
    Prop :=
  s.flag = flag ∧ phase = match o with
    | .ok _ => next
    | .error _ => .closing

variable {prompts : Prompts} {phase next : Phase} {s : State ω γ}

omit [Host ω] in
theorem Leads.bind {x : Step ω γ α} {f : α → Step ω γ β}
    {Q : Except Bytes α → State ω γ → Phase → Prop} {R : Except Bytes β → State ω γ → Phase → Prop}
    (hx : Leads prompts phase x s Q)
    (herror : ∀ message next, (x s).outcome = .error message →
      Q (.error message) (x s).state next → R (.error message) (x s).state next)
    (hok : ∀ a next, (x s).outcome = .ok a → Q (.ok a) (x s).state next →
      Leads prompts next (f a) (x s).state R) :
    Leads prompts phase (x >>= f) s R := by
  obtain ⟨next, htrace, hQ⟩ := hx
  cases ho : (x s).outcome with
  | error message =>
    rw [ho] at hQ
    refine ⟨next, ?_, ?_⟩
    · rwa [bind_apply_of_error ho]
    · rw [bind_apply_of_error ho]
      exact herror message next ho hQ
  | ok a =>
    rw [ho] at hQ
    obtain ⟨last, htail, hR⟩ := hok a next ho hQ
    refine ⟨last, ?_, ?_⟩
    · rw [bind_apply_of_ok ho]
      exact htrace.append htail
    · rwa [bind_apply_of_ok ho]

omit [Host ω] in
theorem Leads.mono {x : Step ω γ α} {Q R : Except Bytes α → State ω γ → Phase → Prop}
    (hx : Leads prompts phase x s Q) (h : ∀ o s next, Q o s next → R o s next) :
    Leads prompts phase x s R := by
  obtain ⟨next, htrace, hQ⟩ := hx
  exact ⟨next, htrace, h _ _ _ hQ⟩

omit [Host ω] in
theorem Leads.attempt_bind {x : Step ω γ α} {f : Except Bytes α → Step ω γ β}
    {Q : Except Bytes α → State ω γ → Phase → Prop} {R : Except Bytes β → State ω γ → Phase → Prop}
    (hx : Leads prompts phase x s Q)
    (hf : ∀ o next, (x s).outcome = o → Q o (x s).state next →
      Leads prompts next (f o) (x s).state R) :
    Leads prompts phase (x.attempt >>= f) s R := by
  obtain ⟨next, htrace, hQ⟩ := hx
  obtain ⟨last, htail, hR⟩ := hf _ next rfl hQ
  rw [Leads, bind_apply_of_ok (show (x.attempt s).outcome = .ok (x s).outcome from rfl)]
  exact ⟨last, htrace.append htail, hR⟩

omit [Host ω] in
theorem Leads.congr {x y : Step ω γ α} {Q : Except Bytes α → State ω γ → Phase → Prop}
    (h : x s = y s) (hy : Leads prompts phase y s Q) : Leads prompts phase x s Q := by
  rwa [Leads, h]

omit [Host ω] in
/-- One exchange that reaches a phase, and another one from there. -/
theorem Leads.reaches_bind {x : Step ω γ α} {f : α → Step ω γ β} {last : Phase}
    (hx : Leads prompts phase x s (Reaches next s.flag))
    (hf : ∀ a, (x s).outcome = .ok a →
      Leads prompts next (f a) (x s).state (Reaches last (x s).state.flag)) :
    Leads prompts phase (x >>= f) s (Reaches last s.flag) := by
  refine hx.bind (fun _ _ _ h => h) ?_
  rintro a _ ho ⟨hflag, rfl⟩
  rw [← hflag]
  exact hf a ho

/-! ## The session's own uses of the terminal -/

omit [Host ω] in
theorem onTerminal_congr (event : Call → Event) {x y : Exchange Call ω α} (h : x s.host = y s.host) :
    onTerminal event x s = onTerminal event y s := by
  rw [onTerminal_apply, onTerminal_apply, h]

omit [Host ω] in
theorem onTerminal_bind (event : Call → Event) (x : Exchange Call ω α)
    (f : α → Exchange Call ω β) :
    (onTerminal event (x >>= f) : Step ω γ β) =
      onTerminal event x >>= fun a => onTerminal event (f a) := by
  funext s
  cases ho : (x s.host).outcome with
  | error message =>
    have ho' : (onTerminal event x s).outcome = .error message := ho
    rw [bind_apply_of_error ho', onTerminal_apply, bind_apply_of_error ho]
    rfl
  | ok a =>
    have ho' : (onTerminal event x s).outcome = .ok a := ho
    rw [bind_apply_of_ok ho', onTerminal_apply, bind_apply_of_ok ho, List.map_append]
    rfl

/-- A print leads on if it may come next, with this text. -/
theorem leads_printFor {event : Call → Event} {purpose : Purpose} {text : Bytes}
    (h : ∀ i : Invocation, i.IsPrintOf text →
      Phase.Step prompts phase (event ⟨purpose, i⟩) (unlessFailed i next)) (s : State ω γ) :
    Leads prompts phase (onTerminal event (printFor purpose text)) s (Reaches next s.flag) := by
  rw [Leads, onTerminal_apply]
  unfold printFor
  split
  · exact ⟨next, .cons (h (.printed text) ⟨rfl, rfl⟩) .nil, rfl, rfl⟩
  · rename_i message _ _
    exact ⟨.closing, .cons (h (.printFailed text message) ⟨rfl, rfl⟩) .nil, rfl, rfl⟩

theorem leads_nextLine (last : LastOutcome) (s : State ω γ) :
    Leads prompts (.listening last) (onTerminal .loop nextLine) s
      (Reaches (.judging last) s.flag) := by
  rw [Leads, onTerminal_apply]
  unfold nextLine
  split
  · rename_i line _ _
    exact ⟨.judging last, .cons (.heard (i := .lineRead line) rfl) .nil, rfl, rfl⟩
  · rename_i message _ _
    exact ⟨.closing, .cons (.heard (i := .readFailed message) rfl) .nil, rfl, rfl⟩

/-- The question for a line leads from the prompt to the judgement of a line. -/
theorem leads_readValue (hP : Host.Supply P) (last : LastOutcome)
    (parse : Bytes → Except Bytes α) {lines : Nat} (hs : Within P lines s.host) :
    Leads prompts (.prompting last) (onTerminal .loop (readValue (prompts.after last) parse)) s
      (Reaches (.judging last) s.flag) := by
  -- Every refused line is one line less.
  induction lines generalizing s with
  | zero => exact absurd hs.2 (Nat.not_lt_zero _)
  | succ lines ih =>
    have hprinted := printFor_preserves (hP.closed _) .prompt (prompts.after last) s.host hs
    refine .congr (onTerminal_congr .loop (readValue_eq hP.toSupply hs.1)) ?_
    rw [onTerminal_bind]
    refine (leads_printFor (fun _ hi => .prompted hi) s).reaches_bind fun _ _ => ?_
    rw [onTerminal_bind]
    refine (leads_nextLine last _).reaches_bind fun line hline => ?_
    have hspent := nextLine_spends hP.toSupply hprinted hline
    cases parse (Text.trim line) with
    | ok value => exact ⟨_, .nil, rfl, rfl⟩
    | error reason =>
      have hrefused := printFor_preserves (hP.closed _) .complaint (complaint reason) _ hspent
      rw [onTerminal_bind]
      exact (leads_printFor (fun _ hi => .refused hi) _).reaches_bind fun _ _ => ih hrefused

theorem leads_readCommand (hP : Host.Supply P) (app : Application κ γ) (last : LastOutcome)
    (hs : P s.host) :
    Leads app.prompts (.prompting last) (readCommand app last) s
      (Reaches (.judging last) s.flag) :=
  leads_readValue hP last _ ⟨hs, Nat.lt_succ_self _⟩

/-! ## Commands -/

/-- Events that a command may cause leave the session judging. -/
theorem trace_judging_map {δ : Type} {event : δ → Event} {last : LastOutcome}
    (h : ∀ e, Phase.Step prompts (.judging last) (event e) (.judging last)) (es : List δ) :
    Trace prompts (.judging last) (es.map event) (.judging last) := by
  induction es with
  | nil => exact .nil
  | cons e es ih => exact .cons (h e) ih

theorem leads_perform (inner : Step ω γ Unit) (last : LastOutcome) (action : Action γ)
    (s : State ω γ) :
    Leads prompts (.judging last) (perform inner action) s fun o _ phase =>
      (∃ result, o = .ok result) ∧ phase = .judging last := by
  -- Whatever the first step of the command is, it leaves the session judging and does not fail.
  have first {α : Type} {x : Step ω γ α} {f : α → Step ω γ ApplyResult} {a : α} {s : State ω γ}
      (ho : (x s).outcome = .ok a)
      (htrace : Trace prompts (.judging last) (x s).events (.judging last))
      (h : Leads prompts (.judging last) (f a) (x s).state fun o _ phase =>
        (∃ result, o = .ok result) ∧ phase = .judging last) :
      Leads prompts (.judging last) (x >>= f) s fun o _ phase =>
        (∃ result, o = .ok result) ∧ phase = .judging last := by
    obtain ⟨next, htail, hQ⟩ := h
    rw [Leads, bind_apply_of_ok ho]
    exact ⟨next, htrace.append htail, hQ⟩
  induction action generalizing s with
  | finish result => exact ⟨_, .nil, ⟨result, rfl⟩, rfl⟩
  | print text next ih => exact first rfl (trace_judging_map (fun _ => .command) _) (ih _ _)
  | readLine next ih => exact first rfl (trace_judging_map (fun _ => .command) _) (ih _ _)
  | ask prompt parse next ih => exact first rfl (trace_judging_map (fun _ => .command) _) (ih _ _)
  | update f next ih => exact first rfl .nil (ih _)
  | consult next ih => exact first rfl .nil (ih _ _)
  | setFlag flag next ih => exact first rfl .nil (ih _)
  | consultFlag next ih => exact first rfl .nil (ih _ _)
  | nest next ih => exact first rfl (trace_judging_map (fun _ => .nested) _) (ih _ _)

theorem leads_apply (inner : Step ω γ Unit) (last : LastOutcome) (action : Action γ)
    (s : State ω γ) :
    Leads prompts (.judging last) (apply inner action) s fun o s phase =>
      ∃ result, o = .ok result ∧ phase = .ended s.flag result := by
  refine (leads_perform inner last action s).bind ?_ ?_
  · rintro message next - ⟨⟨result, hresult⟩, -⟩
    cases hresult
  · rintro result next - ⟨-, rfl⟩
    exact ⟨_, .cons .applied .nil, result, rfl, rfl⟩

/-! ## The cycle -/

theorem leads_log (level : Log.Level) (message : Bytes) (phase : Phase) (s : State ω γ) :
    Leads prompts phase (log level message) s (Reaches phase s.flag) := by
  refine ⟨phase, ?_, rfl, rfl⟩
  unfold log
  dsimp only
  split
  · exact .cons .logged .nil
  · exact .nil

theorem withNewline_errorReport (message : Bytes) :
    Text.withNewline (errorReport message ++ ascii ".") =
      ascii "Command error: " ++ message ++ ascii ".\n" := by
  rw [Text.withNewline, errorReport, List.append_assoc]
  rfl

theorem leads_conclude (result : ApplyResult) (s : State ω γ) :
    Leads prompts (.ended s.flag result) (conclude result) s fun o s' phase =>
      phase = match o with
        | .ok outcome => .between outcome s'.flag
        | .error _ => .closing := by
  cases result with
  | applied => exact ⟨_, .nil, rfl⟩
  | skipped => exact ⟨_, .nil, rfl⟩
  | applicationError message data =>
    refine (leads_log .warning (errorReport message) _ s).bind (fun _ _ _ h => h.2) ?_
    rintro _ _ - ⟨hflag, rfl⟩
    have hreport (i : Invocation)
        (hi : i.IsPrintOf (Text.withNewline (errorReport message ++ ascii "."))) :
        Phase.Step prompts (.owing message s.flag) (.loop ⟨.output, i⟩)
          (unlessFailed i (.between .erred s.flag)) :=
      .reported ⟨rfl, withNewline_errorReport message ▸ hi⟩
    refine (leads_printFor hreport _).bind (fun _ _ _ h => h.2) ?_
    rintro _ _ - ⟨hflag', rfl⟩
    exact ⟨_, .nil, by rw [← hflag, ← hflag']; rfl⟩
  | accessTerminalError message => exact ⟨_, .nil, rfl⟩

theorem leads_rounds (hP : Host.Supply P) (app : Application κ γ) (lines : Nat)
    (last : LastOutcome) (s : State ω γ) (hs : Within P lines s.host) :
    Leads app.prompts (.between last s.flag) (rounds app last) s fun _ _ phase =>
      phase = .closing := by
  -- Every command takes a line, and the sessions that it runs can only take more.
  induction lines generalizing last s with
  | zero => exact absurd hs.2 (Nat.not_lt_zero _)
  | succ lines ih =>
    cases hflag : s.flag with
    | stopped => exact ⟨_, rounds_of_stopped app last hflag ▸ .nil, rfl⟩
    | running =>
      refine .congr (rounds_of_running hP app last hs.1 hflag) ?_
      refine (leads_readCommand hP app last hs.1).bind (fun _ _ _ h => h.2) ?_
      rintro command _ hcommand ⟨-, rfl⟩
      have hclosed := hP.hostClosed lines
      have hread := readCommand_spends hP hs hcommand
      have happly := apply_preserves hclosed (run_preserves hclosed app) (app.action command) _ hread
      refine (leads_apply (run app) last (app.action command) _).bind ?_ ?_
      · -- A command always ends with a result.
        rintro _ _ - ⟨_, himpossible, -⟩
        cases himpossible
      · rintro result _ - ⟨_, ⟨⟩, rfl⟩
        refine (leads_conclude result _).bind (fun _ _ _ h => h) ?_
        rintro outcome _ - rfl
        exact ih outcome _ (conclude_preserves hclosed result _ happly)

/-- A whole session leads from the first prompt to the end. -/
theorem leads_run (hP : Host.Supply P) (app : Application κ γ) (s : State ω γ) (hs : P s.host) :
    Leads app.prompts (.prompting .applied) (run app) s fun _ _ phase => phase = .closing := by
  have hself : Within P (patience s.host + 1) s.host := ⟨hs, Nat.lt_succ_self _⟩
  -- The first entry of the log costs no line.
  have hlogged := log_preserves (hP.hostClosed _) .debug (ascii "Session started.")
    { s with flag := .running } hself
  refine .congr (run_eq hP app hs) ?_
  refine .bind (Q := fun _ _ phase => phase = .prompting .applied) ⟨_, .nil, rfl⟩
    (fun _ _ himpossible _ => by cases himpossible) ?_
  rintro _ _ - rfl
  refine (leads_log .debug (ascii "Session started.") _ _).bind (fun _ _ _ h => h.2) ?_
  rintro _ _ - ⟨-, rfl⟩
  refine (leads_rounds hP app _ .applied _ hlogged).attempt_bind ?_
  rintro outcome _ - rfl
  cases outcome with
  | ok _ =>
    refine (leads_log .debug (ascii "Session stopped.") .closing _).mono ?_
    rintro (_ | _) _ _ ⟨-, rfl⟩ <;> rfl
  | error message =>
    refine (leads_log .error _ _ _).bind (fun _ _ _ h => h.2) ?_
    rintro _ _ - ⟨-, rfl⟩
    exact ⟨_, .nil, rfl⟩

theorem run_followsOutcomes (hP : Host.Supply P) (app : Application κ γ) (s : State ω γ)
    (hs : P s.host) : Transcript.FollowsOutcomes app.prompts (run app s).events := by
  obtain ⟨_, htrace, rfl⟩ := leads_run hP app s hs
  exact htrace.followsOutcomes

end Repl.Session
