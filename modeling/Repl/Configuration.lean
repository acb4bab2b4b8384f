import Repl.Dictionary
import Repl.Output.Files
import Repl.Text.Trim

/-!
Settings in sections, read from INI texts. A text is read as a whole or not at all: one malformed
line leaves the settings as they were.
-/

namespace Repl

inductive IniLine where
  | ignorable
  | header (name : Bytes)
  | pair (key value : Bytes)
  | malformed
  deriving DecidableEq, Repr

namespace IniLine

/-- The text between one pair of double quotes, or the text itself if it is not quoted. -/
def unquote (s : Bytes) : Bytes :=
  if 2 ≤ s.length ∧ s.head? = some Ascii.quote ∧ s.getLast? = some Ascii.quote then
    (s.drop 1).dropLast
  else s

/-- Reads a line that has no white space around it. -/
def ofTrimmed (line : Bytes) : IniLine :=
  if line = [] ∨ line.head? = some Ascii.semicolon ∨ line.head? = some Ascii.numberSign then
    ignorable
  else if line.head? = some Ascii.openBracket ∧ line.getLast? = some Ascii.closeBracket then
    header (Text.trim (line.drop 1).dropLast)
  else if line.contains Ascii.equalsSign then
    -- The first equals sign ends the key; the value may have others.
    pair (Text.trim (line.takeWhile (· ≠ Ascii.equalsSign)))
      (unquote (Text.trim ((line.dropWhile (· ≠ Ascii.equalsSign)).drop 1)))
  else malformed

def ofLine (line : Bytes) : IniLine :=
  ofTrimmed (Text.trim line)

end IniLine

/-- Values by key, by section. -/
abbrev Sections := Dictionary (Dictionary Bytes)

namespace Sections

def keys (sections : Sections) (name : Bytes) : Dictionary Bytes :=
  (sections.find? name).getD .empty

def set (sections : Sections) (name key value : Bytes) : Sections :=
  sections.insert name ((sections.keys name).insert key value)

/-- What the lines of a text add to the sections read so far, `current` being the name of the
section they stand in, or empty before the first header. -/
def readLines (sections : Sections) (current : Bytes) : List Bytes → Option Sections
  | [] => some sections
  | line :: rest =>
    match IniLine.ofLine line with
    | .ignorable => readLines sections current rest
    | .header name =>
      if name = [] then none
      else readLines (sections.insert name (sections.keys name)) name rest
    | .pair key value =>
      if key = [] ∨ current = [] then none
      else readLines (sections.set current key value) current rest
    | .malformed => none

/-- The sections that an INI text describes, unless it is malformed. -/
def ofText? (text : Bytes) : Option Sections :=
  readLines .empty [] (Text.lines text)

end Sections

/-- Settings and the path they are reloaded from. -/
structure Configuration where
  sections : Sections
  source : Bytes

namespace Configuration

def empty : Configuration :=
  ⟨.empty, []⟩

inductive Missing where
  | noSection
  | noKey
  deriving DecidableEq, Repr

def Missing.message : Missing → Bytes
  | .noSection => ascii "Section not found."
  | .noKey => ascii "Key not found in section."

def foundMessage : Bytes :=
  ascii "Value retrieved successfully."

def get (c : Configuration) (name key : Bytes) : Except Missing Bytes :=
  match c.sections.find? name with
  | none => .error .noSection
  | some keys =>
    match keys.find? key with
    | none => .error .noKey
    | some value => .ok value

def get? (c : Configuration) (name key : Bytes) : Option Bytes :=
  (c.get name key).toOption

def getOr (c : Configuration) (name key fallback : Bytes) : Bytes :=
  (c.get? name key).getD fallback

def set (c : Configuration) (name key value : Bytes) : Configuration :=
  { c with sections := c.sections.set name key value }

def setSource (c : Configuration) (path : Bytes) : Configuration :=
  { c with source := path }

/-- Replaces the settings by those of an INI text, if it is well-formed. -/
def load (c : Configuration) (text : Bytes) : Bool × Configuration :=
  match Sections.ofText? text with
  | some sections => (true, { c with sections })
  | none => (false, c)

/-- The outcomes of reloading settings from their path. -/
inductive Reload where
  | noPath
  | notOpened (path : Bytes)
  | malformed (path : Bytes)
  | loaded
  deriving DecidableEq, Repr

def Reload.succeeded (r : Reload) : Bool :=
  r = .loaded

def Reload.message : Reload → Bytes
  | .noPath => ascii "Configuration file path not set."
  | .notOpened path => ascii "Failed to open configuration file: " ++ path
  | .malformed path => ascii "Failed to parse configuration file: " ++ path
  | .loaded => ascii "Configuration reloaded successfully."

/-- Replaces the settings by those of the file they come from. -/
def reload (c : Configuration) (files : Files) : Reload × Configuration :=
  if c.source = [] then (.noPath, c)
  else
    match files.read? c.source with
    | none => (.notOpened c.source, c)
    | some text =>
      match c.load text with
      | (true, loaded) => (.loaded, loaded)
      -- The settings stay as they were.
      | (false, _) => (.malformed c.source, c)

/-- Reloads the settings and tells whoever asked for it how that went: whether it succeeded, and a
message. `callback` says what being told does to a state of theirs. -/
def reloadTelling {σ : Type} (c : Configuration) (files : Files)
    (callback : Option (Bool → Bytes → σ → σ)) (s : σ) : Configuration × σ :=
  let (outcome, reloaded) := c.reload files
  match callback with
  | some tell => (reloaded, tell outcome.succeeded outcome.message s)
  | none => (reloaded, s)

/-- Settings read from a file at once. -/
def ofFile (path : Bytes) (files : Files) : Configuration :=
  ((empty.setSource path).reload files).2

end Configuration

end Repl
