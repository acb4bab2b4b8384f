import Repl.Terminal.Exchange
import Repl.Text.Trim
import Repl.Value

/-!
Text terminals: devices that print texts and read lines, and may fail at either. A value is read in
rounds of a prompt, a line and, if the line is refused, a complaint; only a failure of the device
ends them without a value.
-/

namespace Repl

/-- A device that prints texts and reads lines. A failure comes with a message. `patience` bounds
the number of rounds in which lines can be refused before the device fails. -/
class Terminal (τ : Type) where
  print : Bytes → τ → Except Bytes Unit × τ
  readLine : τ → Except Bytes Bytes × τ
  patience : τ → Nat

/-- One use of a terminal, with what came of it. -/
inductive Invocation where
  | printed (text : Bytes)
  | printFailed (text error : Bytes)
  | lineRead (line : Bytes)
  | readFailed (error : Bytes)
  deriving DecidableEq, Repr

namespace Invocation

/-- Whether the terminal did what was asked of it. -/
def succeeded : Invocation → Bool
  | printed _ | lineRead _ => true
  | printFailed .. | readFailed _ => false

def isRead : Invocation → Bool
  | lineRead _ | readFailed _ => true
  | printed _ | printFailed .. => false

/-- The text printed or read, empty for a failed read. -/
def text : Invocation → Bytes
  | printed text | printFailed text _ | lineRead text => text
  | readFailed _ => []

/-- The failure's message, empty for a success. -/
def error : Invocation → Bytes
  | printed _ | lineRead _ => []
  | printFailed _ error | readFailed error => error

def render (i : Invocation) : Bytes :=
  (if i.isRead then ascii "ReadLine(" else ascii "Print(") ++ ascii "\"" ++ i.text ++ ascii "\"" ++
    (if i.succeeded then [] else ascii ", error: " ++ i.error) ++ ascii ")"

def describe (invocations : List Invocation) : Bytes :=
  invocations.flatMap fun i => Text.withNewline i.render

end Invocation

inductive Purpose where
  | prompt
  | line
  | complaint
  | output
  deriving DecidableEq, Repr

structure Call where
  purpose : Purpose
  invocation : Invocation
  deriving DecidableEq, Repr

namespace Terminal

variable {τ α : Type} [Terminal τ]

def printFor (purpose : Purpose) (text : Bytes) : Exchange Call τ Unit := fun t =>
  match Terminal.print text t with
  | (.ok (), t) => ⟨.ok (), [⟨purpose, .printed text⟩], t⟩
  | (.error message, t) => ⟨.error message, [⟨purpose, .printFailed text message⟩], t⟩

def write (text : Bytes) : Exchange Call τ Unit :=
  printFor .output text

def writeLine (text : Bytes) : Exchange Call τ Unit :=
  write (Text.withNewline text)

def nextLine : Exchange Call τ Bytes := fun t =>
  match Terminal.readLine t with
  | (.ok line, t) => ⟨.ok line, [⟨.line, .lineRead line⟩], t⟩
  | (.error message, t) => ⟨.error message, [⟨.line, .readFailed message⟩], t⟩

def complaint (reason : Bytes) : Bytes :=
  Text.withNewline (ascii "Invalid input: " ++ reason ++ ascii ".")

/-- Asks for a value at most the given number of times. -/
def readValueWithin (prompt : Bytes) (parse : Bytes → Except Bytes α) :
    Nat → Exchange Call τ α
  | 0 => Exchange.fail []
  | rounds + 1 => do
    printFor .prompt prompt
    let line ← nextLine
    match parse (Text.trim line) with
    | .ok value => pure value
    | .error reason =>
      printFor .complaint (complaint reason)
      readValueWithin prompt parse rounds

/-- Asks for a value until the user enters one. -/
def readValue (prompt : Bytes) (parse : Bytes → Except Bytes α) : Exchange Call τ α := fun t =>
  -- Each refusal takes a line, so the terminal's patience bounds their number.
  readValueWithin prompt parse (patience t + 1) t

/-- Asks for a value of a type. With `orDefault`, a blank line stands for the type's default. -/
def readTyped (prompt : Bytes) (type : ValueType) (orDefault : Bool) : Exchange Call τ Value :=
  readValue prompt (type.parser orDefault)

end Terminal

end Repl
