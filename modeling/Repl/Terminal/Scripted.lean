import Repl.Terminal.Basic

/-!
Scripted terminals: the lines that will be read, and the prints that will fail, are laid down in
advance.
-/

namespace Repl

/-- A read laid down in a script: a line, or a failure. -/
inductive ScriptEntry where
  | line (text : Bytes)
  | failure (message : Bytes)
  deriving DecidableEq, Repr

/-- Which prints a rule makes fail: those of one text, or the one of a number, counted from zero. -/
inductive PrintPattern where
  | text (text : Bytes)
  | at (number : Nat)
  deriving DecidableEq, Repr

/-- A rule that makes prints fail with a message. -/
structure PrintRule where
  pattern : PrintPattern
  message : Bytes
  deriving DecidableEq, Repr

namespace PrintRule

/-- Whether the rule is about the print of a text that is the `number`-th one. -/
def applies (rule : PrintRule) (text : Bytes) (number : Nat) : Bool :=
  match rule.pattern with
  | .text other => text == other
  | .at other => number == other

/-- The number of prints after which the rule depends on the text only. -/
def horizon (rule : PrintRule) : Nat :=
  match rule.pattern with
  | .text _ => 0
  | .at number => number + 1

end PrintRule

/-- Where a scripted terminal takes its lines from: a script, or an endless supply of empty ones. -/
inductive Source where
  | script (entries : List ScriptEntry)
  | blank
  deriving DecidableEq, Repr

/-- A scripted terminal. `prints` is the number of prints so far. -/
structure Scripted where
  source : Source
  rules : List PrintRule
  prints : Nat
  deriving DecidableEq, Repr

namespace Scripted

/-- A terminal that reads empty lines and prints everything. -/
def new : Scripted :=
  ⟨.blank, [], 0⟩

def ofScript (entries : List ScriptEntry) (rules : List PrintRule) : Scripted :=
  ⟨.script entries, rules, 0⟩

def withScript (t : Scripted) (entries : List ScriptEntry) : Scripted :=
  { t with source := .script entries }

/-- The terminal with other rules, which count prints from now on. -/
def withRules (t : Scripted) (rules : List PrintRule) : Scripted :=
  { t with rules, prints := 0 }

/-- Prints a text. The first rule that applies makes it fail. -/
def print (text : Bytes) (t : Scripted) : Except Bytes Unit × Scripted :=
  (match t.rules.find? (·.applies text t.prints) with
    | some rule => .error rule.message
    | none => .ok (),
   { t with prints := t.prints + 1 })

def readLine (t : Scripted) : Except Bytes Bytes × Scripted :=
  match t.source with
  | .blank => (.ok [], t)
  | .script [] => (.error (ascii "no more lines"), t)
  | .script (.line text :: rest) => (.ok text, { t with source := .script rest })
  | .script (.failure message :: rest) => (.error message, { t with source := .script rest })

/-- The entries left in the script. -/
def patience (t : Scripted) : Nat :=
  match t.source with
  | .script entries => entries.length
  -- An endless supply lasts until the numbered rules are spent; a reader that refuses the empty line
  -- would go on for ever after that.
  | .blank => (t.rules.map PrintRule.horizon).foldl max 0

instance : Terminal Scripted where
  print := print
  readLine := readLine
  patience := patience

end Scripted

end Repl
