import Repl.Command.Result
import Repl.Session.Prompts
import Repl.Terminal.Basic

/-!
What a command does: a tree of steps, each of which may depend on what the steps before it found
out. A use of the terminal that fails is one of these things; most commands end with that failure.
-/

namespace Repl

/-- What a command does, in a session whose application keeps a `γ`. -/
inductive Action (γ : Type) where
  | finish (result : ApplyResult)
  | print (text : Bytes) (next : Except Bytes Unit → Action γ)
  | readLine (next : Except Bytes Bytes → Action γ)
  /-- Asks the user for a value until a line can be parsed. -/
  | ask (prompt : Bytes) (parse : Bytes → Except Bytes Value) (next : Except Bytes Value → Action γ)
  | update (f : γ → γ) (next : Action γ)
  | consult (next : γ → Action γ)
  | setFlag (flag : RunFlag) (next : Action γ)
  | consultFlag (next : RunFlag → Action γ)
  /-- Runs a session inside this one. -/
  | nest (next : Except Bytes Unit → Action γ)

namespace Action

variable {γ α : Type}

/-- Goes on with what the terminal gave. If it failed, the command ends with that failure. -/
def orFail (next : α → Action γ) : Except Bytes α → Action γ
  | .ok a => next a
  | .error message => finish (.accessTerminalError message)

def printLine (text : Bytes) (next : Action γ) : Action γ :=
  print (Text.withNewline text) (orFail fun _ => next)

def setFlags (flags : List RunFlag) (next : Action γ) : Action γ :=
  flags.foldr setFlag next

end Action

end Repl
