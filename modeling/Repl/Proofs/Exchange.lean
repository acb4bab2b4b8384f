import Repl.Terminal.Exchange

/-!
What an exchange leaves as it was. Exchanges are built from a few parts, and a property of the state
that all parts of an exchange preserve is preserved by the whole.
-/

namespace Repl

variable {ε δ σ τ α β : Type}

/-- The reply with events before its own. -/
def Reply.after (events : List ε) (reply : Reply ε σ α) : Reply ε σ α :=
  ⟨reply.outcome, events ++ reply.events, reply.state⟩

@[simp]
theorem Reply.after_outcome (events : List ε) (reply : Reply ε σ α) :
    (reply.after events).outcome = reply.outcome :=
  rfl

@[simp]
theorem Reply.after_events (events : List ε) (reply : Reply ε σ α) :
    (reply.after events).events = events ++ reply.events :=
  rfl

@[simp]
theorem Reply.after_state (events : List ε) (reply : Reply ε σ α) :
    (reply.after events).state = reply.state :=
  rfl

namespace Exchange

/-! ## The parts, applied -/

@[simp]
theorem fail_apply (message : Bytes) (s : σ) :
    (fail message : Exchange ε σ α) s = ⟨.error message, [], s⟩ :=
  rfl

@[simp]
theorem record_apply (events : List ε) (s : σ) : record events s = ⟨.ok (), events, s⟩ :=
  rfl

@[simp]
theorem gets_apply (f : σ → α) (s : σ) : (gets f : Exchange ε σ α) s = ⟨.ok (f s), [], s⟩ :=
  rfl

@[simp]
theorem modify_apply (f : σ → σ) (s : σ) : (modify f : Exchange ε σ Unit) s = ⟨.ok (), [], f s⟩ :=
  rfl

@[simp]
theorem attempt_apply (x : Exchange ε σ α) (s : σ) :
    x.attempt s = ⟨.ok (x s).outcome, (x s).events, (x s).state⟩ :=
  rfl

@[simp]
theorem mapEvents_apply (f : ε → δ) (x : Exchange ε σ α) (s : σ) :
    x.mapEvents f s = ⟨(x s).outcome, (x s).events.map f, (x s).state⟩ :=
  rfl

instance : LawfulMonad (Exchange ε σ) := by
  refine LawfulMonad.mk' _ ?_ ?_ ?_
  · intro α x
    funext s
    cases h : (x s).outcome with
    | error m => exact (bind_apply_of_error h).trans (by rw [← h])
    | ok a =>
      refine (bind_apply_of_ok h).trans ?_
      show Reply.mk (.ok a) ((x s).events ++ []) (x s).state = x s
      rw [List.append_nil, ← h]
  · intro α β a f
    rfl
  · intro α β ρ x f g
    funext s
    cases hx : (x s).outcome with
    | error m =>
      have hxf : ((x >>= f) s).outcome = .error m := by rw [bind_apply_of_error hx]
      rw [bind_apply_of_error hxf, bind_apply_of_error hx, bind_apply_of_error hx]
    | ok a =>
      cases hf : (f a (x s).state).outcome with
      | error m =>
        have hxf : ((x >>= f) s).outcome = .error m := by rw [bind_apply_of_ok hx, hf]
        rw [bind_apply_of_error hxf, bind_apply_of_ok hx, bind_apply_of_ok hx,
          bind_apply_of_error hf]
      | ok b =>
        have hxf : ((x >>= f) s).outcome = .ok b := by rw [bind_apply_of_ok hx, hf]
        rw [bind_apply_of_ok hxf, bind_apply_of_ok hx, bind_apply_of_ok hx, bind_apply_of_ok hf,
          List.append_assoc]

/-- Two exchanges in a row agree with two others if the first ones agree, and the second ones do
wherever the first leads. -/
theorem bind_congr {x y : Exchange ε σ α} {f g : α → Exchange ε σ β} {s : σ} (hxy : x s = y s)
    (hfg : ∀ a, (x s).outcome = .ok a → f a (x s).state = g a (x s).state) :
    (x >>= f) s = (y >>= g) s := by
  cases h : (x s).outcome with
  | error m => rw [bind_apply_of_error h, bind_apply_of_error (hxy ▸ h), hxy]
  | ok a => rw [bind_apply_of_ok h, bind_apply_of_ok (hxy ▸ h), hfg a h, hxy]

/-- Two exchanges in a row succeed if both do. -/
theorem ok_of_bind {x : Exchange ε σ α} {f : α → Exchange ε σ β} {s : σ} {b : β}
    (h : ((x >>= f) s).outcome = .ok b) :
    ∃ a, (x s).outcome = .ok a ∧ (f a (x s).state).outcome = .ok b ∧
      (x >>= f) s = (f a (x s).state).after (x s).events := by
  cases hx : (x s).outcome with
  | error m =>
    rw [bind_apply_of_error hx] at h
    cases h
  | ok a =>
    rw [bind_apply_of_ok hx] at h
    exact ⟨a, rfl, h, bind_apply_of_ok hx⟩

/-! ## Preservation -/

/-- Whatever comes of the exchange, the property survives it. -/
def Preserves (Q : σ → Prop) (x : Exchange ε σ α) : Prop :=
  ∀ s, Q s → Q (x s).state

variable {Q : σ → Prop}

theorem Preserves.pure (a : α) : Preserves Q (pure a : Exchange ε σ α) :=
  fun _ hs => hs

theorem Preserves.fail (message : Bytes) : Preserves Q (fail message : Exchange ε σ α) :=
  fun _ hs => hs

theorem Preserves.record (events : List ε) : Preserves Q (record events) :=
  fun _ hs => hs

theorem Preserves.gets (f : σ → α) : Preserves Q (gets f : Exchange ε σ α) :=
  fun _ hs => hs

theorem Preserves.modify {f : σ → σ} (hf : ∀ s, Q s → Q (f s)) :
    Preserves Q (modify f : Exchange ε σ Unit) :=
  hf

theorem Preserves.attempt {x : Exchange ε σ α} (hx : Preserves Q x) : Preserves Q x.attempt :=
  hx

theorem Preserves.mapEvents {x : Exchange ε σ α} (hx : Preserves Q x) (f : ε → δ) :
    Preserves Q (x.mapEvents f) :=
  hx

theorem Preserves.bind {x : Exchange ε σ α} {f : α → Exchange ε σ β} (hx : Preserves Q x)
    (hf : ∀ a, Preserves Q (f a)) : Preserves Q (x >>= f) := by
  intro s hs
  cases h : (x s).outcome with
  | error m =>
    rw [bind_apply_of_error h]
    exact hx s hs
  | ok a =>
    rw [bind_apply_of_ok h]
    exact hf a _ (hx s hs)

end Exchange

end Repl
