import Repl.Proofs.Supply
import Repl.Proofs.Terminal.Stream
import Repl.Proofs.Terminal.Uses

/-!
What happens to a terminal made of streams, use by use. Between the uses of it, someone else may break
a stream or clear its condition. Whatever is done, the streams pass from state to state by
single prints, reads and interventions.
-/

namespace Repl.Streams

open Exchange Terminal

/-! ## Steps and incidents -/

/-- A change of the condition of a stream, behind the terminal's back. -/
inductive Intervention where
  | breakIn
  | breakOut
  | clearIn
  | clearOut
  deriving DecidableEq, Repr

/-- Something that is done with the terminal. -/
inductive Step : Type 1 where
  | use (u : Use)
  | intervention (i : Intervention)

/-- Something that happens to the streams. -/
inductive Incident where
  | call (c : Call)
  | intervention (i : Intervention)
  deriving DecidableEq, Repr

def intervene (t : Streams) : Intervention → Streams
  | .breakIn => { t with input := t.input.damage }
  | .breakOut => { t with output := t.output.damage }
  | .clearIn => { t with input := t.input.clear }
  | .clearOut => { t with output := t.output.clear }

/-- Performs a step, which may come to nothing. -/
def perform : Step → Exchange Incident Streams Unit
  | .use u => do
    let _ ← (u.perform.mapEvents .call).attempt
  | .intervention i => do
    record [.intervention i]
    modify fun t => t.intervene i

/-- Performs steps one after another. -/
def undergo : List Step → Exchange Incident Streams Unit
  | [] => pure ()
  | step :: rest => do
    perform step
    undergo rest

/-! ## Passing from state to state -/

/-- The incident is what a print, a read or an intervention comes to, and leads to the state. -/
inductive Happens (t : Streams) : Incident → Streams → Prop where
  | print (purpose : Purpose) (text : Bytes) :
    Happens t (.call ⟨purpose, .ofPrint text (t.print text).1⟩) (t.print text).2
  | readLine : Happens t (.call ⟨.line, .ofRead t.readLine.1⟩) t.readLine.2
  | intervention (i : Intervention) : Happens t (.intervention i) (t.intervene i)

/-- The incidents, one after another, lead to the state. -/
inductive Passes (t : Streams) : List Incident → Streams → Prop where
  | start : Passes t [] t
  | next {past : List Incident} {u v : Streams} {i : Incident} (h : Passes t past u)
    (hi : Happens u i v) : Passes t (past ++ [i]) v

variable {t u v : Streams} {past future : List Incident} {i : Incident}

theorem Happens.passes (h : Happens t i u) : Passes t [i] u :=
  .next .start h

theorem Passes.append (h : Passes t past u) (h' : Passes u future v) :
    Passes t (past ++ future) v := by
  induction h' with
  | start =>
    rw [List.append_nil]
    exact h
  | next _ hi ih =>
    rw [← List.append_assoc]
    exact .next ih hi

/-- Every part of what happens leads to a state, and the rest leads on from there. -/
theorem Passes.split (h : Passes t (past ++ future) v) :
    ∃ u, Passes t past u ∧ Passes u future v := by
  generalize hwhole : past ++ future = whole at h
  induction h generalizing future with
  | start =>
    obtain ⟨rfl, rfl⟩ := List.append_eq_nil_iff.1 hwhole
    exact ⟨t, .start, .start⟩
  | @next before u v i hbefore hi ih =>
    rcases List.eq_nil_or_concat future with rfl | ⟨future, last, rfl⟩
    · rw [List.append_nil] at hwhole
      exact ⟨v, hwhole ▸ .next hbefore hi, .start⟩
    · rw [List.concat_eq_append, ← List.append_assoc] at hwhole
      obtain ⟨hwhole, hlast⟩ := List.append_inj' hwhole rfl
      obtain ⟨w, hw, hafter⟩ := ih hwhole
      refine ⟨w, hw, ?_⟩
      rw [List.concat_eq_append, List.head_eq_of_cons_eq hlast]
      exact .next hafter hi

/-! ## Exchanges with the terminal -/

/-- The calls of the exchange are what happens to the streams during it. -/
def Recounts {α : Type} (x : Exchange Call Streams α) : Prop :=
  ∀ t, Passes t ((x t).events.map .call) (x t).state

variable {α β : Type}

theorem Recounts.pure (a : α) : Recounts (pure a : Exchange Call Streams α) :=
  fun _ => .start

theorem Recounts.fail (message : Bytes) : Recounts (fail message : Exchange Call Streams α) :=
  fun _ => .start

theorem Recounts.bind {x : Exchange Call Streams α} {f : α → Exchange Call Streams β}
    (hx : Recounts x) (hf : ∀ a, Recounts (f a)) : Recounts (x >>= f) := by
  intro t
  cases h : (x t).outcome with
  | error m =>
    rw [bind_apply_of_error h]
    exact hx t
  | ok a =>
    rw [bind_apply_of_ok h, List.map_append]
    exact (hx t).append (hf a _)

theorem recounts_printFor (purpose : Purpose) (text : Bytes) :
    Recounts (printFor purpose text : Exchange Call Streams Unit) := by
  intro t
  rw [printFor_apply]
  exact (Happens.print purpose text).passes

theorem recounts_nextLine : Recounts (nextLine : Exchange Call Streams Bytes) := by
  intro t
  rw [nextLine_apply]
  exact Happens.readLine.passes

theorem recounts_readValueWithin (prompt : Bytes) (parse : Bytes → Except Bytes α) (rounds : Nat) :
    Recounts (readValueWithin prompt parse rounds : Exchange Call Streams α) := by
  induction rounds with
  | zero => exact .fail []
  | succ rounds ih =>
    refine .bind (recounts_printFor _ _) fun _ => .bind recounts_nextLine fun line => ?_
    cases parse (Text.trim line) with
    | ok value => exact .pure value
    | error reason => exact .bind (recounts_printFor _ _) fun _ => ih

theorem recounts_readValue (prompt : Bytes) (parse : Bytes → Except Bytes α) :
    Recounts (readValue prompt parse : Exchange Call Streams α) :=
  fun t => recounts_readValueWithin prompt parse (patience t + 1) t

theorem recounts_perform (use : Use) : Recounts (use.perform (τ := Streams)) := by
  cases use with
  | question prompt parse => exact recounts_readValue prompt parse
  | request r =>
    cases r with
    | print text | printLine text => exact .bind (recounts_printFor _ _) fun _ => .pure none
    | readLine => exact .bind recounts_nextLine fun line => .pure (some line)
    | readValue prompt type orDefault =>
      exact .bind (recounts_readValue _ _) fun value => .pure (some value.render)

/-! ## Runs -/

theorem perform_use (u : Use) (t : Streams) :
    perform (.use u) t = ⟨.ok (), (u.perform t).events.map .call, (u.perform t).state⟩ := by
  show Reply.mk _ ((u.perform t).events.map Incident.call ++ []) _ = _
  rw [List.append_nil]
  rfl

theorem undergo_cons (step : Step) (rest : List Step) (t : Streams) :
    undergo (step :: rest) t =
      (undergo rest (perform step t).state).after (perform step t).events := by
  have hdone : (perform step t).outcome = .ok () := by cases step <;> rfl
  rw [undergo, bind_apply_of_ok hdone]
  rfl

theorem undergo_append (before after : List Step) (t : Streams) :
    undergo (before ++ after) t =
      (undergo after (undergo before t).state).after (undergo before t).events := by
  induction before generalizing t with
  | nil => rfl
  | cons step rest ih =>
    rw [List.cons_append, undergo_cons, undergo_cons, ih, Reply.after_state, Reply.after_events,
      Reply.after, Reply.after, Reply.after, List.append_assoc]

theorem passes_perform (step : Step) (t : Streams) :
    Passes t (perform step t).events (perform step t).state := by
  cases step with
  | use u =>
    rw [perform_use]
    exact recounts_perform u t
  | intervention i => exact (Happens.intervention i).passes

/-- The incidents of a run are all that happens to the streams during it. -/
theorem passes_undergo (steps : List Step) (t : Streams) :
    Passes t (undergo steps t).events (undergo steps t).state := by
  induction steps generalizing t with
  | nil => exact .start
  | cons step rest ih =>
    rw [undergo_cons]
    exact (passes_perform step t).append (ih _)

end Repl.Streams
