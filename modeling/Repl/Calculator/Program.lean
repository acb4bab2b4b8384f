import Repl.Calculator.Commands
import Repl.Services
import Repl.Terminal.Stream

/-!
The calculator as a program: one session on the standard streams, which it shares with its log.
-/

namespace Repl.Calculator

/-- A running program: its services, its standard input, and the time that log lines show. -/
structure Process where
  services : Services
  input : InputStream
  now : Log.Timestamp

namespace Process

def withServices (p : Process) (f : Services → Services) : Process :=
  { p with services := f p.services }

def print (text : Bytes) (p : Process) : Except Bytes Unit × Process :=
  let (result, stdout) := p.services.channels.stdout.print text
  (result, p.withServices fun s => { s with channels := { s.channels with stdout } })

def readLine (p : Process) : Except Bytes Bytes × Process :=
  let (result, input) := p.input.readLine
  (result, { p with input })

instance : Host Process where
  print := print
  readLine := readLine
  patience p := p.input.rest.length
  log e p := (p.services.logger.admits e, p.withServices (·.log p.now e))

end Process

structure Launch where
  arguments : List Bytes
  input : Bytes
  files : Files
  stdout : Sink
  now : Log.Timestamp

namespace Launch

/-- The path of the settings: the first argument, which the system sees up to its first NUL. -/
def settingsPath (l : Launch) : Bytes :=
  Text.untilNul (l.arguments.head?.getD [])

/-- What standard input holds for the session. Settings that are read from there take all of it. -/
def sessionInput (l : Launch) : Bytes :=
  if l.files.stream? l.settingsPath = some .input then [] else l.input

end Launch

structure Ending where
  exitCode : Nat
  channels : Channels

def complain (line : Bytes) (s : Services) : Services :=
  { s with channels := s.channels.complain line }

/-- The services of the calculator once they are started. -/
def startServices (l : Launch) : Services :=
  let new := Services.new (Channels.ofFiles l.files l.stdout)
  let (loaded, started) := new.start l.now l.settingsPath
  let told :=
    if loaded then started
    else complain (ascii "Could not load configuration; using defaults.") started
  told.prepareSession

def runSession (r : Registry Command) (l : Launch) (s : Services) : Ending :=
  let host : Process := ⟨s, .ofBytes l.sessionInput, l.now⟩
  let reply := Session.run (application r s.prompts) (.start host 0)
  let stopped := reply.state.host.services.stop l.now
  match reply.outcome with
  | .ok () => ⟨0, stopped.channels⟩
  | .error message => ⟨1, (complain (ascii "Terminal error: " ++ message) stopped).channels⟩

/-- Runs the calculator. Its exit code tells a session that was quit from one that lost its
terminal. -/
def run (l : Launch) : Ending :=
  let registration := Registry.register (parsers.map some)
  let services := (startServices l).logAll l.now registration.entries
  match registration.outcome with
  | .ok r => runSession r l services
  | .error error =>
    let told := complain (ascii "Invalid command set: " ++ error.report) services
    ⟨2, (told.dispose l.now).channels⟩

end Repl.Calculator
