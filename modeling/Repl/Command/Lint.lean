import Repl.Text.Trim

/-!
Descriptions of commands and the rules of good style that they are checked against. A purpose is
made of sentences, a scenario is a clause, and neither usage nor example repeats the command's name.
-/

namespace Repl

/-- An example of a command: what it achieves, and arguments that achieve it. -/
structure Example where
  scenario : Bytes
  command : Bytes
  deriving DecidableEq, Repr

/-- What `help` says about a command. Usage and examples leave out the command's name. -/
structure Description where
  purpose : Bytes
  usage : Bytes
  examples : List Example
  deriving DecidableEq, Repr

/-- A rule of style that a description violates. -/
inductive Lint where
  | purposeHasExcessWhitespace
  | purposeIsEmpty
  | purposeDoesNotBeginWithUppercase
  | purposeDoesNotEndWithPeriod
  | usageHasExcessWhitespace
  | usageBeginsWithCommandName
  | exampleScenarioHasExcessWhitespace
  | exampleScenarioIsEmpty
  | exampleScenarioBeginsWithUppercase
  | exampleScenarioEndsWithPeriod
  | exampleCommandHasExcessWhitespace
  | exampleCommandIsEmpty
  | exampleCommandBeginsWithCommandName
  deriving DecidableEq, Repr

namespace Lint

def all : List Lint :=
  [purposeHasExcessWhitespace, purposeIsEmpty, purposeDoesNotBeginWithUppercase,
    purposeDoesNotEndWithPeriod, usageHasExcessWhitespace, usageBeginsWithCommandName,
    exampleScenarioHasExcessWhitespace, exampleScenarioIsEmpty, exampleScenarioBeginsWithUppercase,
    exampleScenarioEndsWithPeriod, exampleCommandHasExcessWhitespace, exampleCommandIsEmpty,
    exampleCommandBeginsWithCommandName]

def name : Lint → Bytes
  | purposeHasExcessWhitespace => ascii "PurposeHasExcessWhitespace"
  | purposeIsEmpty => ascii "PurposeIsEmpty"
  | purposeDoesNotBeginWithUppercase => ascii "PurposeDoesNotBeginWithUppercase"
  | purposeDoesNotEndWithPeriod => ascii "PurposeDoesNotEndWithPeriod"
  | usageHasExcessWhitespace => ascii "UsageHasExcessWhitespace"
  | usageBeginsWithCommandName => ascii "UsageBeginsWithCommandName"
  | exampleScenarioHasExcessWhitespace => ascii "ExampleScenarioHasExcessWhitespace"
  | exampleScenarioIsEmpty => ascii "ExampleScenarioIsEmpty"
  | exampleScenarioBeginsWithUppercase => ascii "ExampleScenarioBeginsWithUppercase"
  | exampleScenarioEndsWithPeriod => ascii "ExampleScenarioEndsWithPeriod"
  | exampleCommandHasExcessWhitespace => ascii "ExampleCommandHasExcessWhitespace"
  | exampleCommandIsEmpty => ascii "ExampleCommandIsEmpty"
  | exampleCommandBeginsWithCommandName => ascii "ExampleCommandBeginsWithCommandName"

def message (lint : Lint) : Bytes :=
  ascii "failed lint: " ++ lint.name

def when (violated : Bool) (lint : Lint) : List Lint :=
  if violated then [lint] else []

end Lint

/-- The rules that an example of the command `name` violates. -/
def Example.lints (name : Bytes) (e : Example) : List Lint :=
  Lint.when (Text.hasExcessWhiteSpace e.scenario) .exampleScenarioHasExcessWhitespace ++
  (if e.scenario = [] then [.exampleScenarioIsEmpty]
   else
    -- The white space around the scenario has a rule of its own.
    let scenario := Text.trim e.scenario
    Lint.when (Text.beginsWithUppercase scenario) .exampleScenarioBeginsWithUppercase ++
    Lint.when (Text.endsWith scenario Ascii.period) .exampleScenarioEndsWithPeriod) ++
  Lint.when (Text.hasExcessWhiteSpace e.command) .exampleCommandHasExcessWhitespace ++
  (if e.command = [] then [.exampleCommandIsEmpty]
   else Lint.when (Text.startsWith e.command name) .exampleCommandBeginsWithCommandName)

namespace Description

def purposeLints (d : Description) : List Lint :=
  Lint.when (Text.hasExcessWhiteSpace d.purpose) .purposeHasExcessWhitespace ++
  (if d.purpose = [] then [.purposeIsEmpty]
   else
    let purpose := Text.trim d.purpose
    Lint.when (!Text.beginsWithUppercase purpose) .purposeDoesNotBeginWithUppercase ++
    Lint.when (!Text.endsWith purpose Ascii.period) .purposeDoesNotEndWithPeriod)

def usageLints (name : Bytes) (d : Description) : List Lint :=
  Lint.when (Text.hasExcessWhiteSpace d.usage) .usageHasExcessWhitespace ++
  (if d.usage = [] then []
   else Lint.when (Text.startsWith d.usage name) .usageBeginsWithCommandName)

def lints (name : Bytes) (d : Description) : List Lint :=
  d.purposeLints ++ d.usageLints name ++ d.examples.flatMap (·.lints name)

/-- Checks the description of the command `name`: the first violated rule that is not excluded, if
there is one. -/
def failure? (name : Bytes) (d : Description) (exclusions : List Lint) : Option Lint :=
  (d.lints name).find? fun lint => !exclusions.contains lint

end Description

end Repl
