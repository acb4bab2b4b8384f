import Repl.Configuration

/-!
The state that a session keeps between commands: whether it goes on, and how the last command ended,
which is what its prompt shows.
-/

namespace Repl

/-- Whether a session goes on. -/
inductive RunFlag where
  | running
  | stopped
  deriving DecidableEq, Repr

def RunFlag.name : RunFlag → Bytes
  | running => ascii "Running"
  | stopped => ascii "Stopped"

/-- How the last command of a session ended. -/
inductive LastOutcome where
  | applied
  | skipped
  | erred
  deriving DecidableEq, Repr

/-- The prompts of a session, by the outcome of the last command. -/
structure Prompts where
  applied : Bytes
  skipped : Bytes
  erred : Bytes
  deriving DecidableEq, Repr

namespace Prompts

/-- The prompts of a session that has none of its own. -/
def standard : Prompts :=
  ⟨ascii "+>> ", ascii "->> ", ascii "!>> "⟩

def sectionName : Bytes :=
  ascii "Prompts"

/-- The prompts that a configuration sets, and the standard ones for those that it does not. -/
def ofConfiguration (c : Configuration) : Prompts where
  applied := c.getOr sectionName (ascii "applied") standard.applied
  skipped := c.getOr sectionName (ascii "skipped") standard.skipped
  erred := c.getOr sectionName (ascii "erred") standard.erred

def after (p : Prompts) : LastOutcome → Bytes
  | .applied => p.applied
  | .skipped => p.skipped
  | .erred => p.erred

end Prompts

end Repl
