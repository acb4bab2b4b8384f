import Repl.Text.Bytes

/-!
Exchanges with a device. An exchange changes a state, leaves a record of what happened, and either
yields a value or is cut short by a failure of the device. The record is returned, not kept, so the
record of two exchanges in a row is the one of the first followed by the one of the second.
-/

namespace Repl

/-- The end of an exchange: its value, or the message of the failure that cut it short; what
happened, in order; and the state afterwards. -/
structure Reply (ε σ α : Type) where
  outcome : Except Bytes α
  events : List ε
  state : σ

/-- An exchange that yields an `α`, with events in `ε` and a state in `σ`. -/
def Exchange (ε σ α : Type) : Type :=
  σ → Reply ε σ α

namespace Exchange

variable {ε σ τ α β : Type}

protected def pure (a : α) : Exchange ε σ α :=
  fun s => ⟨.ok a, [], s⟩

/-- One exchange after another. A failure of the first leaves out the second. -/
protected def bind (x : Exchange ε σ α) (f : α → Exchange ε σ β) : Exchange ε σ β := fun s =>
  let first := x s
  match first.outcome with
  | .error message => ⟨.error message, first.events, first.state⟩
  | .ok a =>
    let second := f a first.state
    ⟨second.outcome, first.events ++ second.events, second.state⟩

instance : Monad (Exchange ε σ) where
  pure := Exchange.pure
  bind := Exchange.bind

@[simp]
theorem pure_apply (a : α) (s : σ) : (pure a : Exchange ε σ α) s = ⟨.ok a, [], s⟩ :=
  rfl

theorem bind_apply_of_ok {x : Exchange ε σ α} {f : α → Exchange ε σ β} {s : σ} {a : α}
    (h : (x s).outcome = .ok a) :
    (x >>= f) s =
      ⟨(f a (x s).state).outcome, (x s).events ++ (f a (x s).state).events,
        (f a (x s).state).state⟩ := by
  show Exchange.bind x f s = _
  simp [Exchange.bind, h]

theorem bind_apply_of_error {x : Exchange ε σ α} {f : α → Exchange ε σ β} {s : σ} {m : Bytes}
    (h : (x s).outcome = .error m) : (x >>= f) s = ⟨.error m, (x s).events, (x s).state⟩ := by
  show Exchange.bind x f s = _
  simp [Exchange.bind, h]

def fail (message : Bytes) : Exchange ε σ α :=
  fun s => ⟨.error message, [], s⟩

def record (events : List ε) : Exchange ε σ Unit :=
  fun s => ⟨.ok (), events, s⟩

def gets (f : σ → α) : Exchange ε σ α :=
  fun s => ⟨.ok (f s), [], s⟩

def modify (f : σ → σ) : Exchange ε σ Unit :=
  fun s => ⟨.ok (), [], f s⟩

/-- The outcome of an exchange as a value: a failure of it is no failure. -/
def attempt (x : Exchange ε σ α) : Exchange ε σ (Except Bytes α) := fun s =>
  let reply := x s
  ⟨.ok reply.outcome, reply.events, reply.state⟩

/-- An exchange with other events in its record. -/
def mapEvents {δ : Type} (f : ε → δ) (x : Exchange ε σ α) : Exchange δ σ α := fun s =>
  let reply := x s
  ⟨reply.outcome, reply.events.map f, reply.state⟩

/-- An exchange with a part of the state. -/
def zoom (get : τ → σ) (set : σ → τ → τ) (x : Exchange ε σ α) : Exchange ε τ α := fun t =>
  let reply := x (get t)
  ⟨reply.outcome, reply.events, set reply.state t⟩

end Exchange

end Repl
