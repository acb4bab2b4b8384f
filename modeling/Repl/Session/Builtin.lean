import Repl.Command.Help
import Repl.Session.Action

/-!
The commands that every application has: `help` lists the commands, and `quit` ends the session.
-/

namespace Repl

/-- A command of every application. -/
inductive Builtin where
  | help
  | quit
  deriving DecidableEq, Repr

namespace Builtin

def name : Builtin → Bytes
  | help => ascii "help"
  | quit => ascii "quit"

def shorthand : Builtin → Bytes
  | help => ascii "h"
  | quit => ascii "q"

def purpose : Builtin → Bytes
  | help => ascii "Displays a list of commands, their usage syntax and examples."
  | quit => ascii "Exits the program."

/-- The parser of the command, which takes no arguments. `embed` makes it a command of the
application. -/
def parser {κ : Type} (embed : Builtin → κ) (b : Builtin) : Parser κ where
  name := b.name
  shorthand := some b.shorthand
  description := ⟨b.purpose, [], []⟩
  parse := Parser.withoutArguments b.name (embed b)

/-- What the command does in an application with the given entries for help. `quit` stops the
session before it says so. -/
def action {γ : Type} (entries : List HelpEntry) : Builtin → Action γ
  | help => .printLine (HelpTable.render entries) (.finish .applied)
  | quit => .setFlag .stopped (.printLine (ascii "Exiting.") (.finish .applied))

end Builtin

end Repl
