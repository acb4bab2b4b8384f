import Repl.Dictionary

/-!
The table from what users type to commands. A command has a name and may have a shorthand; a key
belongs to one command at most, and to its name or to its shorthand.
-/

namespace Repl

/-- Why a command's keys cannot be entered. -/
inductive KeyError where
  | duplicate (key : Bytes)
  | shortName (name : Bytes)
  deriving DecidableEq, Repr

def KeyError.message : KeyError → Bytes
  | duplicate key => ascii "duplicate command parser for '" ++ key ++ ascii "'"
  | shortName name =>
    ascii "invalid command name '" ++ name ++ ascii "': must contain at least 2 characters"

/-- The positions of commands, by shorthand and by name. -/
structure DispatchTable where
  shorthands : Dictionary Nat
  names : Dictionary Nat

namespace DispatchTable

def empty : DispatchTable :=
  ⟨.empty, .empty⟩

def insertShorthand (t : DispatchTable) (index : Nat) : Option Bytes → Except KeyError DispatchTable
  | none => .ok t
  | some key =>
    if t.names.contains key || t.shorthands.contains key then .error (.duplicate key)
    else .ok { t with shorthands := t.shorthands.insert key index }

def insertName (t : DispatchTable) (index : Nat) (name : Bytes) : Except KeyError DispatchTable :=
  if name.length < 2 then .error (.shortName name)
  else if t.shorthands.contains name || t.names.contains name then .error (.duplicate name)
  else .ok { t with names := t.names.insert name index }

/-- Enters the keys of a command, the shorthand first. -/
def insert (t : DispatchTable) (index : Nat) (name : Bytes) (shorthand : Option Bytes) :
    Option KeyError × DispatchTable :=
  match t.insertShorthand index shorthand with
  | .error e => (some e, t)
  | .ok withShorthand =>
    match withShorthand.insertName index name with
    -- The shorthand stays even if the name is refused.
    | .error e => (some e, withShorthand)
    | .ok complete => (none, complete)

/-- The position of the command with a key. Shorthands go before names. -/
def find? (t : DispatchTable) (key : Bytes) : Option Nat :=
  match t.shorthands.find? key with
  | some index => some index
  | none => t.names.find? key

/-- The positions of all commands, in the order of their names. -/
def indices (t : DispatchTable) : List Nat :=
  t.names.values

def size (t : DispatchTable) : Nat :=
  t.names.size

end DispatchTable

/-- What the user typed: the key of a command and its arguments. -/
structure CommandLine where
  identifier : Bytes
  arguments : Bytes
  deriving DecidableEq, Repr

/-- Splits a line at its first space; what follows the space goes to the command as it is. The empty
line is no command line. -/
def CommandLine.ofLine? (line : Bytes) : Option CommandLine :=
  if line = [] then none
  else
    some ⟨line.takeWhile (· ≠ Ascii.space), (line.dropWhile (· ≠ Ascii.space)).drop 1⟩

end Repl
