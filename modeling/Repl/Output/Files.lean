import Repl.Dictionary

/-!
Files by their names. Which of them a path leads to, and whether it leads to a file at all, is up to
the system; files come with what their system takes paths to name.
-/

namespace Repl

/-- The standard streams of a program. -/
inductive StandardStream where
  | input
  | output
  | error
  deriving DecidableEq, Repr

/-- What a path names. -/
inductive Place where
  /-- The file with this name, whether or not it exists. Opening it for writing creates it. -/
  | file (name : Bytes)
  /-- A standard stream of the program, with what reading it to its end gives, if it can be read. -/
  | stream (s : StandardStream) (text : Option Bytes)
  /-- Anything else, with its text if it can be read. If it takes what is written to it, that shows
  nowhere. -/
  | other (text : Option Bytes) (writable : Bool)
  deriving DecidableEq, Repr

namespace Place

/-- Nothing that can be opened or created. -/
def nowhere : Place :=
  .other none false

/-- A directory can be opened, and holds no text. -/
def directory : Place :=
  .other (some []) false

end Place

/-- The files of a system, by name. `resolve` says what the paths of the system name. -/
structure Files where
  resolve : Bytes → Place
  contents : Dictionary Bytes

namespace Files

/-- What a path names. The system sees it up to its first NUL, and an empty one names nothing. -/
def place (files : Files) (path : Bytes) : Place :=
  match Text.untilNul path with
  | [] => .nowhere
  | b :: rest => files.resolve (b :: rest)

/-- The standard stream that a path names, if it names one. -/
def stream? (files : Files) (path : Bytes) : Option StandardStream :=
  match files.place path with
  | .stream s _ => some s
  | .file _ | .other .. => none

/-- The text that reading a path gives, if it can be opened. -/
def read? (files : Files) (path : Bytes) : Option Bytes :=
  match files.place path with
  | .file name => files.contents.find? name
  | .stream _ text | .other text _ => text

/-- Whether a path can be opened for writing. -/
def writable (files : Files) (path : Bytes) : Bool :=
  match files.place path with
  | .file _ | .stream .. => true
  | .other _ writable => writable

/-- Makes a text the content of a file. Nothing happens to the files if the path names none. -/
def write (files : Files) (path content : Bytes) : Files :=
  match files.place path with
  | .file name => { files with contents := files.contents.insert name content }
  | .stream .. | .other .. => files

/-- Puts a text after the content of a file, which is created if it is missing. -/
def append (files : Files) (path content : Bytes) : Files :=
  match files.place path with
  | .file name =>
    let extended := (files.contents.find? name).getD [] ++ content
    { files with contents := files.contents.insert name extended }
  | .stream .. | .other .. => files

def remove (files : Files) (path : Bytes) : Files :=
  match files.place path with
  | .file name => { files with contents := files.contents.erase name }
  | .stream .. | .other .. => files

end Files

/-! ## A directory of its own -/

namespace Directory

/-- Where a path can lead that starts in a directory without subdirectories. The directories above
it can be named, and hold nothing else that can be opened. -/
inductive Spot where
  | here
  | above
  | file (name : Bytes)
  | nowhere
  deriving DecidableEq, Repr

def longestName : Nat :=
  255

def longestPath : Nat :=
  4095

/-- The parts of a path, which slashes divide. -/
def parts : Bytes → List Bytes
  | [] => [[]]
  | b :: rest =>
    if b = Ascii.slash then [] :: parts rest
    else
      match parts rest with
      | [] => [[b]]
      | part :: others => (b :: part) :: others

/-- Where one more part of a path leads. -/
def Spot.step (part : Bytes) : Spot → Spot
  | here =>
    if part = [] ∨ part = ascii "." then here
    else if part = ascii ".." then above
    else if longestName < part.length then nowhere
    else file part
  -- Going up from the topmost directory leads nowhere else.
  | above => if part = [] ∨ part = ascii "." ∨ part = ascii ".." then above else nowhere
  | file _ | nowhere => nowhere

def Spot.place : Spot → Place
  | here | above => .directory
  | file name => .file name
  | nowhere => .nowhere

/-- What a path names that starts in the directory. One that is too long names nothing. -/
def resolve (path : Bytes) : Place :=
  if longestPath < path.length then .nowhere
  else
    -- A slash at the front starts at the topmost directory.
    let start := if path.head? = some Ascii.slash then Spot.above else .here
    ((parts path).foldl (fun spot part => spot.step part) start).place

end Directory

/-- A directory without files. -/
def Files.empty : Files :=
  ⟨Directory.resolve, .empty⟩

end Repl
