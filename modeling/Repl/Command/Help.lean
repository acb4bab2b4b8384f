import Repl.Command.Registry

/-!
The help table: a column of commands and a column of descriptions. The first column is as wide as
its longest label and a space, and no narrower than a minimum; widths count bytes.
-/

namespace Repl

/-- What the help table says about one command. -/
structure HelpEntry where
  name : Bytes
  shorthand : Option Bytes
  description : Description
  deriving DecidableEq, Repr

namespace HelpEntry

def ofParser {κ : Type} (p : Parser κ) : HelpEntry :=
  ⟨p.name, p.shorthand, p.description⟩

def label (e : HelpEntry) : Bytes :=
  match e.shorthand with
  | some shorthand => shorthand ++ ascii ", " ++ e.name
  | none => e.name

def exampleLines (name : Bytes) (e : Example) : List Bytes :=
  [ascii "example - " ++ e.scenario ++ ascii ":", ascii "    " ++ name ++ ascii " " ++ e.command]

def lines (e : HelpEntry) : List Bytes :=
  e.description.purpose ::
    Text.trim (ascii "usage: " ++ e.name ++ ascii " " ++ e.description.usage) ::
    e.description.examples.flatMap (exampleLines e.name)

end HelpEntry

def Registry.helpEntries {κ : Type} (r : Registry κ) : List HelpEntry :=
  r.sorted.map .ofParser

namespace HelpTable

def minWidth : Nat := 15

def columnWidth (entries : List HelpEntry) : Nat :=
  entries.foldl (fun w e => max w (e.label.length + 1)) minWidth

/-- The width that cells are filled up to. It is told as an `int`, to which it is narrowed; a
negative one fills nothing up. -/
def width (entries : List HelpEntry) : Int :=
  Int.bmod (columnWidth entries) 0x100000000

/-- A line of the table: a cell filled up with spaces, and a text. -/
def row (width : Int) (cell text : Bytes) : Bytes :=
  cell ++ List.replicate (width - cell.length).toNat Ascii.space ++ text

/-- The rows about one command. Only the first has the label. -/
def entryRows (width : Int) (e : HelpEntry) : List Bytes :=
  match e.lines with
  | [] => []
  | first :: others => row width e.label first :: others.map (row width [])

def rows (entries : List HelpEntry) : List Bytes :=
  row (width entries) (ascii "Command") (ascii "Description") ::
    entries.flatMap (entryRows (width entries))

def render (entries : List HelpEntry) : Bytes :=
  [Ascii.newline].intercalate (rows entries)

end HelpTable

end Repl
