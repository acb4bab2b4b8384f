import Repl.Command.Registry
import Repl.Session.Action
import Repl.Session.Event

/-!
Sessions: the cycle of reading, parsing and applying commands. A session ends when a command stops
it, or when the terminal fails. Parse errors are answered and errors of the application are
reported, and the session goes on.
-/

namespace Repl

/-- A terminal that also takes log entries. `log` tells whether the entry was let through. -/
class Host (ω : Type) extends Terminal ω where
  log : Log.Entry → ω → Bool × ω

/-- An application: its commands, what they do, and its prompts. `κ` holds parsed commands and `γ`
is what the application keeps. -/
structure Application (κ γ : Type) where
  registry : Registry κ
  action : κ → Action γ
  prompts : Prompts

namespace Session

/-- The state of a session: the host, what the application keeps, and the run flag. -/
structure State (ω γ : Type) where
  host : ω
  context : γ
  flag : RunFlag
  deriving DecidableEq, Repr

def State.start {ω γ : Type} (host : ω) (context : γ) : State ω γ :=
  ⟨host, context, .stopped⟩

variable {ω κ γ α : Type} [Host ω]

abbrev Step (ω γ α : Type) : Type :=
  Exchange Event (State ω γ) α

def onTerminal (event : Call → Event) (x : Exchange Call ω α) : Step ω γ α :=
  (x.mapEvents event).zoom State.host fun host s => { s with host }

def category : Bytes :=
  ascii "Looper"

def log (level : Log.Level) (message : Bytes) : Step ω γ Unit := fun s =>
  let entry : Log.Entry := ⟨level, category, message⟩
  let (admitted, host) := Host.log entry s.host
  ⟨.ok (), if admitted then [.logged entry] else [], { s with host }⟩

def setFlag (flag : RunFlag) : Step ω γ Unit :=
  .modify fun s => { s with flag }

/-- Does what a command does. `inner` is a session to run inside this one. -/
def perform (inner : Step ω γ Unit) : Action γ → Step ω γ ApplyResult
  | .finish result => pure result
  | .print text next => do
    let printed ← (onTerminal .command (Terminal.write text)).attempt
    perform inner (next printed)
  | .readLine next => do
    let line ← (onTerminal .command Terminal.nextLine).attempt
    perform inner (next line)
  | .ask prompt parse next => do
    let value ← (onTerminal .command (Terminal.readValue prompt parse)).attempt
    perform inner (next value)
  | .update f next => do
    Exchange.modify fun s => { s with context := f s.context }
    perform inner next
  | .consult next => do
    let context ← Exchange.gets State.context
    perform inner (next context)
  | .setFlag flag next => do
    setFlag flag
    perform inner next
  | .consultFlag next => do
    let flag ← Exchange.gets State.flag
    perform inner (next flag)
  | .nest next => do
    let result ← (inner.mapEvents .nested).attempt
    perform inner (next result)

def apply (inner : Step ω γ Unit) (action : Action γ) : Step ω γ ApplyResult := do
  let result ← perform inner action
  let flag ← Exchange.gets State.flag
  Exchange.record [.applied result flag]
  pure result

def errorReport (message : Bytes) : Bytes :=
  ascii "Command error: " ++ message

/-- Goes on after a command: reports an error of the application, and fails if the terminal did. -/
def conclude : ApplyResult → Step ω γ LastOutcome
  | .applied => pure .applied
  | .skipped => pure .skipped
  | .applicationError message _ => do
    log .warning (errorReport message)
    onTerminal .loop (Terminal.writeLine (errorReport message ++ ascii "."))
    pure .erred
  | .accessTerminalError message => .fail message

def readCommand (app : Application κ γ) (last : LastOutcome) : Step ω γ κ :=
  onTerminal .loop <|
    Terminal.readValue (app.prompts.after last) fun line =>
      (app.registry.parse line).mapError LineError.message

/-- A session with the given cycle: starts the run flag, and logs how the session starts and ends.
-/
def bracket (cycle : Step ω γ Unit) : Step ω γ Unit := do
  setFlag .running
  log .debug (ascii "Session started.")
  match ← cycle.attempt with
  | .ok () => log .debug (ascii "Session stopped.")
  | .error message => do
    log .error (ascii "Terminal access failed: " ++ message)
    .fail message

/-- At most the given number of commands. -/
def roundsWithin (app : Application κ γ) : Nat → LastOutcome → Step ω γ Unit
  | 0, _ => .fail []
  | rounds + 1, last => do
    if (← Exchange.gets State.flag) = .running then
      let command ← readCommand app last
      -- A session inside has a line less to go on.
      let inner := bracket (roundsWithin app rounds .applied)
      let result ← apply inner (app.action command)
      let outcome ← conclude result
      roundsWithin app rounds outcome

/-- Runs a session. -/
def run (app : Application κ γ) : Step ω γ Unit := fun s =>
  -- Each command takes a line, so the terminal's patience bounds their number.
  bracket (roundsWithin app (Terminal.patience s.host + 1) .applied) s

/-- Runs sessions one after another, each in the state that the one before it left. -/
def runAll (app : Application κ γ) : Nat → State ω γ → List (Reply Event (State ω γ) Unit)
  | 0, _ => []
  | count + 1, s =>
    let reply := run app s
    reply :: runAll app count reply.state

end Session

end Repl
