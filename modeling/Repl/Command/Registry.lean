import Repl.Command.DispatchTable
import Repl.Command.Lint
import Repl.Log.Entry

/-!
Command parsers and the registry that chooses among them. A registry is built once from a list of
parsers: every example must parse, and every key must be free. Afterwards it turns lines into
commands.
-/

namespace Repl

/-- How a command of type `κ` is recognised and described. Parsing takes what follows the name on
the line; it may succeed without a command. -/
structure Parser (κ : Type) where
  name : Bytes
  shorthand : Option Bytes
  description : Description
  parse : Bytes → Except Bytes (Option κ)

namespace Parser

variable {κ : Type}

def withoutArguments (name : Bytes) (command : κ) (arguments : Bytes) : Except Bytes (Option κ) :=
  if arguments = [] then .ok (some command)
  else .error (ascii "invalid arguments to '" ++ name ++ ascii "': '" ++ arguments ++ ascii "'")

end Parser

/-- Why a list of parsers makes no registry. -/
inductive SpecError where
  | missingParser (position : Nat)
  | emptyExample (command : Bytes)
  | unparsableExample (command error : Bytes)
  | key (error : KeyError)
  deriving DecidableEq, Repr

namespace SpecError

def message : SpecError → Bytes
  | missingParser position => ascii "null command parser at position " ++ Text.decimal position
  | emptyExample command => ascii "example command '" ++ command ++ ascii "' produced no command"
  | unparsableExample command error =>
    ascii "unparsable example command '" ++ command ++ ascii "': " ++ error
  | key error => error.message

/-- The message as it reaches the caller: up to its first NUL. -/
def report (e : SpecError) : Bytes :=
  Text.untilNul e.message

end SpecError

/-- Why a line is no command. -/
inductive LineError where
  | empty
  | unknown (identifier : Bytes)
  | noCommand (identifier : Bytes)
  | refused (message : Bytes)
  deriving DecidableEq, Repr

def LineError.message : LineError → Bytes
  | empty => ascii "empty command string"
  | unknown identifier => ascii "no command parser for '" ++ identifier ++ ascii "'"
  | noCommand identifier =>
    ascii "command parser for '" ++ identifier ++ ascii "' produced no command"
  | refused message => message

/-- Parsers with the table of their keys; the table holds their positions. -/
structure Registry (κ : Type) where
  parsers : List (Parser κ)
  table : DispatchTable

/-- The building of a registry: the names entered, in order, and how it ended. -/
structure Registration (κ : Type) where
  names : List Bytes
  outcome : Except SpecError (Registry κ)

namespace Registry

variable {κ : Type}

def empty : Registry κ :=
  ⟨[], .empty⟩

def checkExample (p : Parser κ) (e : Example) : Except SpecError Unit :=
  match p.parse e.command with
  | .ok (some _) => .ok ()
  | .ok none => .error (.emptyExample e.command)
  | .error error => .error (.unparsableExample e.command error)

def add (r : Registry κ) (p : Parser κ) : Except SpecError (Registry κ) := do
  p.description.examples.forM (checkExample p)
  match r.table.insert r.parsers.length p.name p.shorthand with
  | (some error, _) => .error (.key error)
  | (none, table) => .ok ⟨r.parsers ++ [p], table⟩

/-- Adds parsers in order, up to the first that cannot be added. A missing parser cannot. -/
def addAll (r : Registry κ) : List (Option (Parser κ)) → Registration κ
  | [] => ⟨[], .ok r⟩
  | none :: _ => ⟨[], .error (.missingParser r.parsers.length)⟩
  | some p :: rest =>
    match r.add p with
    | .error error => ⟨[], .error error⟩
    | .ok r =>
      let others := r.addAll rest
      ⟨p.name :: others.names, others.outcome⟩

def register (parsers : List (Option (Parser κ))) : Registration κ :=
  empty.addAll parsers

def size (r : Registry κ) : Nat :=
  r.parsers.length

/-- The parsers in the order of their names. -/
def sorted (r : Registry κ) : List (Parser κ) :=
  r.table.indices.filterMap fun index => r.parsers[index]?

def find? (r : Registry κ) (key : Bytes) : Option (Parser κ) :=
  (r.table.find? key).bind fun index => r.parsers[index]?

def parse (r : Registry κ) (line : Bytes) : Except LineError κ :=
  match CommandLine.ofLine? line with
  | none => .error .empty
  | some ⟨identifier, arguments⟩ =>
    match r.find? identifier with
    | none => .error (.unknown identifier)
    | some p =>
      match p.parse arguments with
      | .error message => .error (.refused message)
      | .ok none => .error (.noCommand identifier)
      | .ok (some command) => .ok command

end Registry

namespace Registration

variable {κ : Type}

def category : Bytes :=
  ascii "Registry"

/-- The log entries about a registration: one for each name entered, and one about the error. -/
def entries (r : Registration κ) : List Log.Entry :=
  (r.names.map fun name =>
    ⟨.debug, category, ascii "Registered command '" ++ name ++ ascii "'."⟩) ++
  match r.outcome with
  | .ok _ => []
  | .error error => [⟨.error, category, error.message⟩]

end Registration

end Repl
