import Repl.Text.Bytes

/-!
What comes of applying a command: it was carried out or declined, or it failed. A failure belongs to
the application, which goes on, or to the terminal, which ends the session.
-/

namespace Repl

/-- The result of applying a command. An application may attach data to its own failures. -/
inductive ApplyResult where
  | applied
  | skipped
  | applicationError (message : Bytes) (data : Option Bytes)
  | accessTerminalError (message : Bytes)
  deriving DecidableEq, Repr

/-- How a command ended that did not fail. -/
inductive Completion where
  | applied
  | skipped
  deriving DecidableEq, Repr

namespace ApplyResult

def failed (message : Bytes) : ApplyResult :=
  applicationError message none

def message : ApplyResult → Bytes
  | applied | skipped => []
  | applicationError message _ | accessTerminalError message => message

def data : ApplyResult → Option Bytes
  | applicationError _ data => data
  | applied | skipped | accessTerminalError _ => none

def isError : ApplyResult → Bool
  | applied | skipped => false
  | applicationError .. | accessTerminalError _ => true

def completion : ApplyResult → Option Completion
  | applied => some .applied
  | skipped => some .skipped
  | applicationError .. | accessTerminalError _ => none

def application : ApplyResult → Option Bytes
  | applicationError message _ => some message
  | applied | skipped | accessTerminalError _ => none

def accessTerminal : ApplyResult → Option Bytes
  | accessTerminalError message => some message
  | applied | skipped | applicationError .. => none

end ApplyResult

end Repl
