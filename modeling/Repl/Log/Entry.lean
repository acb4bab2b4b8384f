import Repl.Text.Trim

/-!
Log entries and their levels. A category lets entries through from its own level on; the level
`none` lets none through, not even entries of that level.
-/

namespace Repl.Log

/-- How much an entry matters, or from where on a category is let through. -/
inductive Level where
  | debug
  | info
  | warning
  | error
  | none
  deriving DecidableEq, Repr

namespace Level

def all : List Level :=
  [debug, info, warning, error, none]

def rank : Level → Nat
  | debug => 0
  | info => 1
  | warning => 2
  | error => 3
  | none => 4

def name : Level → Bytes
  | debug => ascii "DEBUG"
  | info => ascii "INFO"
  | warning => ascii "WARNING"
  | error => ascii "ERROR"
  | none => ascii "NONE"

/-- The level that a text names, in either case and with white space around it. -/
def ofName? (s : Bytes) : Option Level :=
  all.find? fun level => Text.toLower level.name == Text.toLower (Text.trim s)

/-- Whether a category at this level lets an entry of level `entry` through. -/
def admits (threshold entry : Level) : Bool :=
  threshold != none && threshold.rank ≤ entry.rank

theorem debug_admits (entry : Level) : debug.admits entry = true := by
  show (true && decide (0 ≤ entry.rank)) = true
  rw [decide_eq_true (Nat.zero_le _)]
  rfl

end Level

structure Entry where
  level : Level
  category : Bytes
  message : Bytes
  deriving DecidableEq, Repr

end Repl.Log
