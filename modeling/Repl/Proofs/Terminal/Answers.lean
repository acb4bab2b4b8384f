import Repl.Proofs.Terminal.Devices
import Repl.Proofs.Terminal.Incidents

/-!
Answers and the calls behind them. Whether a use of a terminal fails, and with which message, is told
by its last call; what it gives otherwise, by the text that was printed or the last line that was
read. So nothing is lost of a run whose answers are dropped and whose calls are kept.
-/

namespace Repl

open Exchange

namespace Terminal

variable {τ α β : Type}

/-! ## Failures -/

/-- The calls did what was asked of them, and there is a value; or the last of them did not, and its
message is all there is. -/
inductive Told : List Call → Except Bytes α → Prop where
  | succeeded {calls : List Call} (h : ∀ c ∈ calls, c.invocation.succeeded = true) (value : α) :
    Told calls (.ok value)
  | failed {calls : List Call} (h : ∀ c ∈ calls, c.invocation.succeeded = true) {last : Call}
    (hlast : last.invocation.succeeded = false) :
    Told (calls ++ [last]) (.error last.invocation.error)

theorem told_bind {x : Exchange Call τ α} {f : α → Exchange Call τ β} {t : τ}
    (hx : Told (x t).events (x t).outcome)
    (hf : ∀ a, (x t).outcome = .ok a →
      Told (f a (x t).state).events (f a (x t).state).outcome) :
    Told ((x >>= f) t).events ((x >>= f) t).outcome := by
  cases h : (x t).outcome with
  | error message =>
    -- The second part never happens, so the first tells the whole.
    rw [bind_apply_of_error h]
    rw [h] at hx
    generalize (x t).events = calls at hx
    cases hx with
    | failed hbefore hlast => exact .failed hbefore hlast
  | ok a =>
    have hnext := hf a h
    rw [bind_apply_of_ok h]
    rw [h] at hx
    generalize (x t).events = calls at hx ⊢
    cases hx with
    | succeeded hfirst =>
      dsimp only
      generalize (f a (x t).state).events = more, (f a (x t).state).outcome = outcome at hnext
      cases hnext with
      | succeeded hmore value => exact .succeeded (List.forall_mem_append.2 ⟨hfirst, hmore⟩) value
      | failed hmore hlast =>
        rw [← List.append_assoc]
        exact .failed (List.forall_mem_append.2 ⟨hfirst, hmore⟩) hlast

theorem told_pure (value : α) (t : τ) :
    Told ((pure value : Exchange Call τ α) t).events ((pure value : Exchange Call τ α) t).outcome :=
  .succeeded (List.forall_mem_nil _) value

/-- What a pure second part makes of a value is no news. -/
theorem ok_of_bind_pure {x : Exchange Call τ α} {f : α → β} {t : τ} {b : β}
    (h : ((x >>= fun a => pure (f a)) t).outcome = .ok b) :
    ∃ a, (x t).outcome = .ok a ∧ f a = b ∧
      ((x >>= fun a => pure (f a)) t).events = (x t).events := by
  obtain ⟨a, ha, hb, heq⟩ := ok_of_bind h
  rw [heq]
  exact ⟨a, ha, Except.ok.inj hb, List.append_nil _⟩

variable [Terminal τ]

theorem told_printFor (purpose : Purpose) (text : Bytes) (t : τ) :
    Told (printFor purpose text t).events (printFor purpose text t).outcome := by
  rw [printFor_apply]
  cases (print text t).1 with
  | ok _ => exact .succeeded (List.forall_mem_singleton.2 rfl) ()
  | error message =>
    have hlast : (Call.mk purpose (.printFailed text message)).invocation.succeeded = false := rfl
    exact .failed (List.forall_mem_nil _) hlast

theorem told_nextLine (t : τ) :
    Told (nextLine t).events (nextLine t).outcome := by
  rw [nextLine_apply]
  cases (readLine t).1 with
  | ok line => exact .succeeded (List.forall_mem_singleton.2 rfl) line
  | error message =>
    have hlast : (Call.mk .line (.readFailed message)).invocation.succeeded = false := rfl
    exact .failed (List.forall_mem_nil _) hlast

/-- A question fails by one of its calls, as its rounds are never used up. -/
theorem told_readValueWithin {P : τ → Prop} (hP : Supply P) (prompt : Bytes)
    (parse : Bytes → Except Bytes α) {rounds : Nat} {t : τ} (ht : Within P rounds t) :
    Told (readValueWithin prompt parse rounds t).events
      (readValueWithin prompt parse rounds t).outcome := by
  induction rounds generalizing t with
  | zero => exact absurd ht.2 (Nat.not_lt_zero _)
  | succ rounds ih =>
    rw [readValueWithin]
    refine told_bind (told_printFor _ _ _) fun _ _ =>
      told_bind (told_nextLine _) fun line hline => ?_
    -- The line that was read pays for one round, so the rounds do not run out.
    have hprompted := printFor_preserves (hP.closed (rounds + 1)) .prompt prompt t ht
    have hspent := nextLine_spends hP hprompted hline
    cases parse (Text.trim line) with
    | ok value => exact told_pure value _
    | error reason =>
      refine told_bind (told_printFor _ _ _) fun _ _ => ih ?_
      exact printFor_preserves (hP.closed rounds) _ _ _ hspent

/-! ## Values -/

theorem events_printFor {purpose : Purpose} {text : Bytes} {t : τ} {value : Unit}
    (h : (printFor purpose text t).outcome = .ok value) :
    (printFor purpose text t).events = [⟨purpose, .printed text⟩] := by
  rw [printFor_apply] at h ⊢
  dsimp only at h ⊢
  rw [h]
  rfl

theorem events_nextLine {t : τ} {line : Bytes} (h : (nextLine t).outcome = .ok line) :
    (nextLine t).events = [⟨.line, .lineRead line⟩] := by
  rw [nextLine_apply] at h ⊢
  dsimp only at h ⊢
  rw [h]
  rfl

/-- A question gives what its last line is read as. -/
theorem readValueWithin_value {prompt : Bytes} {parse : Bytes → Except Bytes α} {rounds : Nat}
    {t : τ} {value : α} (h : (readValueWithin prompt parse rounds t).outcome = .ok value) :
    ∃ earlier line, (readValueWithin prompt parse rounds t).events =
        earlier ++ [⟨.line, .lineRead line⟩] ∧ parse (Text.trim line) = .ok value := by
  induction rounds generalizing t with
  | zero => cases h
  | succ rounds ih =>
    rw [readValueWithin] at h ⊢
    obtain ⟨_, -, hasked, heq⟩ := ok_of_bind h
    obtain ⟨line, hline, hread, heq'⟩ := ok_of_bind hasked
    rw [heq, heq', Reply.after_events, Reply.after_events, events_nextLine hline]
    cases hparse : parse (Text.trim line) with
    | ok read =>
      rw [hparse] at hread
      obtain rfl : read = value := Except.ok.inj hread
      exact ⟨_, line, rfl, hparse⟩
    | error reason =>
      rw [hparse] at hread
      obtain ⟨_, -, hagain, heq⟩ := ok_of_bind hread
      obtain ⟨earlier, last, hevents, hvalue⟩ := ih hagain
      dsimp only
      rw [heq, Reply.after_events, hevents]
      simp only [← List.append_assoc]
      exact ⟨_, last, rfl, hvalue⟩

/-- What a use gives, as its calls tell it. -/
def Use.Gives : (use : Use) → List Call → use.Answer → Prop
  | .request (.print text), calls, answer => answer = none ∧ calls = [⟨.output, .printed text⟩]
  | .request (.printLine text), calls, answer =>
    answer = none ∧ calls = [⟨.output, .printed (Text.withNewline text)⟩]
  | .request .readLine, calls, answer =>
    ∃ line, answer = some line ∧ calls = [⟨.line, .lineRead line⟩]
  | .request (.readValue _ type orDefault), calls, answer =>
    ∃ earlier line value, answer = some value.render ∧
      calls = earlier ++ [⟨.line, .lineRead line⟩] ∧
      type.parser orDefault (Text.trim line) = .ok value
  | .question _ parse, calls, answer =>
    ∃ earlier line, calls = earlier ++ [⟨.line, .lineRead line⟩] ∧
      parse (Text.trim line) = .ok answer

namespace Use

variable {P : τ → Prop} {t : τ}

theorem told_perform (hP : Supply P) (ht : P t) (use : Use) :
    Told (use.perform t).events (use.perform t).outcome := by
  have hself : Within P (patience t + 1) t := ⟨ht, Nat.lt_succ_self _⟩
  cases use with
  | question prompt parse => exact told_readValueWithin hP prompt parse hself
  | request r =>
    cases r with
    | print text | printLine text => exact told_bind (told_printFor _ _ _) fun _ _ => told_pure _ _
    | readLine => exact told_bind (told_nextLine _) fun _ _ => told_pure _ _
    | readValue prompt type orDefault =>
      exact told_bind (told_readValueWithin hP _ _ hself) fun _ _ => told_pure _ _

theorem gives_perform {use : Use} {answer : use.Answer}
    (h : (use.perform t).outcome = .ok answer) : use.Gives (use.perform t).events answer := by
  cases use with
  | question prompt parse => exact readValueWithin_value h
  | request r =>
    cases r with
    | print text | printLine text =>
      obtain ⟨_, hprint, hnone, hevents⟩ := ok_of_bind_pure h
      exact ⟨hnone.symm, hevents.trans (events_printFor hprint)⟩
    | readLine =>
      obtain ⟨line, hline, hsome, hevents⟩ := ok_of_bind_pure h
      exact ⟨line, hsome.symm, hevents.trans (events_nextLine hline)⟩
    | readValue prompt type orDefault =>
      obtain ⟨value, hvalue, hsome, hevents⟩ := ok_of_bind_pure h
      obtain ⟨earlier, line, hearlier, hread⟩ := readValueWithin_value hvalue
      exact ⟨earlier, line, value, hsome.symm, hevents.trans hearlier, hread⟩

end Use

end Terminal

namespace Streams

open Terminal

/-- In the middle of any run of steps, a use of the streams answers what its own calls tell, and they
stand among the incidents where the use stands among the steps. -/
theorem answers_told (before after : List Step) (use : Use) (t : Streams) :
    let u := (undergo before t).state
    ∃ calls : List Call,
      (undergo (before ++ .use use :: after) t).events =
        (undergo before t).events ++ calls.map .call ++
          (undergo after (use.perform u).state).events ∧
      Told calls (use.perform u).outcome ∧
      ∀ answer, (use.perform u).outcome = .ok answer → use.Gives calls answer := by
  intro u
  refine ⟨(use.perform u).events, ?_, use.told_perform supply trivial, fun _ => Use.gives_perform⟩
  rw [undergo_append, Reply.after_events, undergo_cons, perform_use, Reply.after_events,
    ← List.append_assoc]

end Streams

end Repl
