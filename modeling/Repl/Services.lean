import Repl.Log.Logger
import Repl.Session.Prompts

/-!
The services of an application: settings and a log, which takes its own settings from them. Settings
that are missing, or that make no sense, leave the log as it is. The services catch nothing that
logging an entry throws, so what they do is told for logs that throw nothing.
-/

namespace Repl

/-- Settings, a logger, and the places that it writes to. -/
structure Services where
  logger : Log.Logger
  configuration : Configuration
  started : Bool
  channels : Channels

namespace Services

def new (channels : Channels) : Services :=
  ⟨.new, .empty, false, channels⟩

def category : Bytes :=
  ascii "Core"

def sectionName : Bytes :=
  ascii "Logging"

def log (now : Log.Timestamp) (e : Log.Entry) (s : Services) : Services :=
  { s with channels := s.logger.log now e s.channels }

def logAll (now : Log.Timestamp) (entries : List Log.Entry) (s : Services) : Services :=
  entries.foldl (fun s e => s.log now e) s

def note (now : Log.Timestamp) (level : Log.Level) (message : Bytes) (s : Services) : Services :=
  s.log now ⟨level, category, message⟩

def setting (s : Services) (key : String) : Option Bytes :=
  s.configuration.get? sectionName (ascii key)

def openLogFile (path : Bytes) (s : Services) : Bool × Services :=
  let (opened, logger, channels) := s.logger.openFile path s.channels
  (opened, { s with logger, channels })

/-- Sets the fallback level to the one of the settings. -/
def applyLevel (now : Log.Timestamp) (s : Services) : Services :=
  match s.setting "level" with
  | none => s
  | some value =>
    match Log.Level.ofName? value with
    | some level => { s with logger := s.logger.setLevel Log.defaultCategory level }
    | none => s.note now .warning (ascii "Ignoring unknown log level '" ++ value ++ ascii "'.")

/-- Turns the console on, unless the settings say `false`. -/
def applyConsole (s : Services) : Services :=
  match s.setting "console" with
  | none => s
  | some value =>
    { s with logger := s.logger.setConsole (Text.toLower value != ascii "false") }

def applyFile (s : Services) : Services :=
  match s.setting "file" with
  | none | some [] => s
  | some path => (s.openLogFile path).2

/-- Loads the settings from a path and logs the outcome. -/
def loadSettings (now : Log.Timestamp) (path : Bytes) (s : Services) : Bool × Services :=
  let (outcome, configuration) := (s.configuration.setSource path).reload s.channels.files
  let s := { s with configuration }
  (outcome.succeeded,
    s.note now (if outcome.succeeded then .debug else .error)
      (ascii "Config load: " ++ outcome.message))

/-- Starts the services with the settings of a file, or with those they have if the path is empty.
-/
def start (now : Log.Timestamp) (path : Bytes) (s : Services) : Bool × Services :=
  if s.started then
    (true, s.note now .warning (ascii "Core::initialize() called multiple times."))
  else
    -- The services start whether or not the settings could be loaded.
    let (loaded, s) := if path = [] then (true, s) else s.loadSettings now path
    let s := ((s.applyLevel now).applyConsole).applyFile
    (loaded, ({ s with started := true }).note now .debug (ascii "Core initialized."))

def stop (now : Log.Timestamp) (s : Services) : Services :=
  if s.started then
    -- The last entry still reaches the log file.
    let s := ({ s with started := false }).note now .debug (ascii "Core shut down.")
    { s with logger := s.logger.closeFile }
  else s.note now .warning (ascii "Core::shutdown() called without prior initialization.")

/-- Gives the services up, stopping them if they are started. -/
def dispose (now : Log.Timestamp) (s : Services) : Services :=
  if s.started then s.stop now else s

/-- Leaves the console to a session: it takes log entries only if the settings say `true`. -/
def prepareSession (s : Services) : Services :=
  let wanted := (s.setting "console").any fun value =>
    Text.toLower (Text.trim value) == ascii "true"
  { s with logger := s.logger.setConsole wanted }

def prompts (s : Services) : Prompts :=
  .ofConfiguration s.configuration

end Services

end Repl
