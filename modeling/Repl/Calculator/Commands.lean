import Repl.Number.General
import Repl.Session.Builtin
import Repl.Session.Run

/-!
The commands of a calculator with one register. Three of them change the register by an operand, and
every change is shown.
-/

namespace Repl.Calculator

inductive Operation where
  | add
  | subtract
  | divide
  deriving DecidableEq, Repr

inductive Command where
  | arithmetic (operation : Operation) (operand : Float)
  | print
  | builtin (b : Builtin)

def showRegister (register : Float) : Bytes :=
  ascii "register = " ++ General.ofBits .binary64 register.toBits.toNat

def report : Action Float :=
  .consult fun register => .printLine (showRegister register) (.finish .applied)

def Operation.evaluate (operand register : Float) : Operation → Float
  | add => register + operand
  | subtract => register - operand
  | divide => register / operand

/-- Changes the register and shows it. Dividing by zero is an error, and changes nothing. -/
def Operation.action (operation : Operation) (operand : Float) : Action Float :=
  if operation = .divide ∧ operand == 0 then
    .finish (.failed (ascii "cannot divide by zero"))
  else .update (fun register => operation.evaluate operand register) report

def Command.action (entries : List HelpEntry) : Command → Action Float
  | arithmetic operation operand => operation.action operand
  | print => report
  | builtin b => b.action entries

namespace Operation

def name : Operation → Bytes
  | add => ascii "add"
  | subtract => ascii "subtract"
  | divide => ascii "divide"

def shorthand : Operation → Bytes
  | add => ascii "a"
  | subtract => ascii "s"
  | divide => ascii "d"

def purpose : Operation → Bytes
  | add => ascii "Adds a value to the register."
  | subtract => ascii "Subtracts a value from the register."
  | divide => ascii "Divides the register by a value."

def scenario : Operation → Bytes
  | add => ascii "adds 1.5 to the register"
  | subtract => ascii "subtracts 1.5 from the register"
  | divide => ascii "divides the register by 1.5"

def parse (operation : Operation) (arguments : Bytes) : Except Bytes (Option Command) :=
  (ValueType.float64.parse arguments).map fun
    | .float64 bits => some (.arithmetic operation (.ofBits bits))
    | _ => none

def parser (operation : Operation) : Parser Command where
  name := operation.name
  shorthand := some operation.shorthand
  description := ⟨operation.purpose, ascii "<value>", [⟨operation.scenario, ascii "1.5"⟩]⟩
  parse := operation.parse

end Operation

def printParser : Parser Command where
  name := ascii "print"
  shorthand := some (ascii "p")
  description := ⟨ascii "Prints the contents of the register.", [], []⟩
  parse := Parser.withoutArguments (ascii "print") .print

def parsers : List (Parser Command) :=
  [Operation.add.parser, Operation.subtract.parser, Operation.divide.parser, printParser,
    Builtin.help.parser .builtin, Builtin.quit.parser .builtin]

def application (r : Registry Command) (prompts : Prompts) : Application Command Float where
  registry := r
  action := Command.action r.helpEntries
  prompts := prompts

end Repl.Calculator
