import Repl.Session.Builtin
import Repl.Session.Run

/-!
A stock of ready-made commands, for applications that keep one text. Between them they use all that
a session lends to a command: the terminal, the text, the run flag, sessions inside the session, and
other commands.
-/

namespace Repl.Stock

/-- A command that acts by itself. -/
inductive Direct where
  | present (text : Bytes)
  | respond (result : ApplyResult)
  | say (text : Bytes)
  /-- Asks for a value, called `noun`, and keeps it. -/
  | ask (noun prompt : Bytes) (type : ValueType) (orDefault : Bool)
  /-- Sets the run flag, keeps its name and gives a result. -/
  | flag (settings : List RunFlag) (result : ApplyResult)
  | nest
  | builtin (b : Builtin)
  deriving DecidableEq, Repr

/-- A command of the stock: one that acts by itself, or one that stands for the command on another
line. -/
inductive Command where
  | direct (command : Direct)
  | resolve (line : Bytes)
  deriving DecidableEq, Repr

namespace Direct

def action (entries : List HelpEntry) : Direct → Action Bytes
  | present text =>
    .update (fun _ => text) (.printLine (ascii "the value is " ++ text) (.finish .applied))
  | respond result => .finish result
  | say text => .print text (.orFail fun _ => .finish .applied)
  | ask _ prompt type orDefault =>
    .ask prompt (type.parser orDefault)
      (.orFail fun value => .update (fun _ => value.render) (.finish .applied))
  | flag settings result =>
    .setFlags settings (.consultFlag fun now => .update (fun _ => now.name) (.finish result))
  | nest =>
    .nest fun
      | .ok () => .finish .skipped
      | .error message => .finish (.failed (ascii "nested: " ++ message))
  | builtin b => b.action entries

end Direct

/-- The command that a line stands for in the end, when each line may stand for the command on a
shorter one; at most `length` lines are followed. -/
def settleWithin (r : Registry Command) : Nat → Bytes → Except LineError Direct
  | 0, _ => .error .empty
  | length + 1, line =>
    match r.parse line with
    | .error e => .error e
    | .ok (.direct command) => .ok command
    | .ok (.resolve rest) => settleWithin r length rest

/-- The command that a line stands for in the end. A line that is followed is longer than what it
leads to, and the empty line is no command. -/
def settle (r : Registry Command) (line : Bytes) : Except LineError Direct :=
  settleWithin r line.length line

def Command.action (r : Registry Command) : Command → Action Bytes
  | direct command => command.action r.helpEntries
  | resolve line =>
    match settle r line with
    | .ok command => command.action r.helpEntries
    | .error e => .finish (.failed e.message)

/-- How a parser of the stock makes its commands. -/
inductive Kind where
  /-- From a value of a type. -/
  | value (type : ValueType)
  | respond (result : ApplyResult)
  | say
  | ask (noun prompt : Bytes) (type : ValueType) (orDefault : Bool)
  | flag (settings : List RunFlag) (result : ApplyResult)
  | nest
  | resolve
  | nothing
  | reject (message : Bytes)
  deriving DecidableEq, Repr

def Kind.parse (name : Bytes) (arguments : Bytes) : Kind → Except Bytes (Option Command)
  | value type => (type.parse arguments).map fun v => some (.direct (.present v.render))
  | respond result => plain (.respond result)
  | say => .ok (some (.direct (.say arguments)))
  | ask noun prompt type orDefault => plain (.ask noun prompt type orDefault)
  | flag settings result => plain (.flag settings result)
  | nest => plain .nest
  | resolve => .ok (some (.resolve arguments))
  | nothing => .ok none
  | reject message => .error message
where
  plain (command : Direct) : Except Bytes (Option Command) :=
    Parser.withoutArguments name (Command.direct command) arguments

/-- What a parser of the stock is made from. -/
inductive Spec where
  | missing
  | builtin (b : Builtin)
  | named (name : Bytes) (shorthand : Option Bytes) (description : Description) (kind : Kind)
  deriving DecidableEq, Repr

def Spec.parser : Spec → Option (Parser Command)
  | missing => none
  | builtin b => some (b.parser fun b => .direct (.builtin b))
  | named name shorthand description kind =>
    some { name, shorthand, description, parse := fun arguments => kind.parse name arguments }

def register (specs : List Spec) : Registration Command :=
  Registry.register (specs.map Spec.parser)

def application (r : Registry Command) (prompts : Prompts) : Application Command Bytes where
  registry := r
  action := Command.action r
  prompts := prompts

end Repl.Stock
