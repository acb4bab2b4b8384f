import Repl.Log.Timestamp
import Repl.Output.Channels

/-!
The logger. An entry that its category admits goes to the console, to the log file and to the
subscribers, each of them once; one that is not admitted goes nowhere. Subscribers may throw. The
logger catches standard exceptions; anything else ends the logging of the entry.
-/

namespace Repl.Log

/-- Someone who receives log entries: keeps them, or throws each time. -/
inductive Subscriber where
  | recording
  /-- Throws a standard exception with the message. -/
  | failing (message : Bytes)
  /-- Throws something that is no standard exception. -/
  | escaping
  deriving DecidableEq, Repr

/-- The category whose level is also the fallback. -/
def defaultCategory : Bytes :=
  ascii "default"

/-- The state of a logger. `file` is the path of the open log file. -/
structure Logger where
  levels : Dictionary Level
  fallback : Level
  console : Bool
  subscribers : List Subscriber
  file : Option Bytes

namespace Logger

/-- A new logger: everything from `info` on goes to the console. -/
def new : Logger where
  levels := Dictionary.empty.insert defaultCategory .info
  fallback := .info
  console := true
  subscribers := []
  file := none

/-- The level of a category: its own, or the fallback. -/
def level (l : Logger) (category : Bytes) : Level :=
  (l.levels.find? category).getD l.fallback

/-- Sets the level of a category. The empty category is ignored. -/
def setLevel (l : Logger) (category : Bytes) (level : Level) : Logger :=
  if category = [] then l
  else
    -- The default category sets the fallback too.
    { l with
      levels := l.levels.insert category level
      fallback := if category = defaultCategory then level else l.fallback }

def setConsole (l : Logger) (enabled : Bool) : Logger :=
  { l with console := enabled }

/-- Adds a subscriber, who receives the entries logged from now on. -/
def subscribe (l : Logger) (s : Subscriber) : Logger :=
  { l with subscribers := l.subscribers ++ [s] }

def admits (l : Logger) (e : Entry) : Bool :=
  (l.level e.category).admits e.level

def line (now : Timestamp) (e : Entry) : Bytes :=
  ascii "[" ++ now.render ++ ascii "] [" ++ e.level.name ++ ascii "] [" ++ e.category ++
    ascii "] " ++ e.message

def toConsole (now : Timestamp) (e : Entry) (c : Channels) : Channels :=
  match e.level with
  | .warning | .error => c.complain (line now e)
  | .debug | .info | .none => { c with stdout := c.stdout.write (Text.withNewline (line now e)) }

def toFile (path : Bytes) (now : Timestamp) (e : Entry) (c : Channels) : Channels :=
  c.append path (Text.withNewline (line now e))

/-- Hands an entry to subscribers with their numbers, one after another. -/
def broadcast (e : Entry) (c : Channels) : List (Subscriber × Nat) → Channels
  | [] => c
  | (.recording, i) :: others => broadcast e { c with notices := c.notices ++ [⟨i, e⟩] } others
  | (.failing message, _) :: others =>
    -- The message is shown as a terminated string.
    let complaint :=
      ascii "[LoggingSystem] Exception in log event callback: " ++ Text.untilNul message
    broadcast e (c.complain complaint) others
  -- What is thrown is not caught here, so the others are not called.
  | (.escaping, _) :: _ => c

/-- Whether logging the entry ends with something thrown that the caller has to catch. -/
def throws (l : Logger) (e : Entry) : Bool :=
  l.admits e && l.subscribers.contains .escaping

/-- Logs an entry. Whatever a subscriber throws comes after console and log file. -/
def log (l : Logger) (now : Timestamp) (e : Entry) (c : Channels) : Channels :=
  if l.admits e then
    let c := if l.console then toConsole now e c else c
    let c := match l.file with
      | some path => toFile path now e c
      | none => c
    broadcast e c l.subscribers.zipIdx
  else c

/-- Opens the log file, in place of the one that is open, and creates it if it is missing. -/
def openFile (l : Logger) (path : Bytes) (c : Channels) : Bool × Logger × Channels :=
  if c.files.writable path then
    (true, { l with file := some path }, { c with files := c.files.append path [] })
  else
    -- The file that was open is given up all the same.
    (false, { l with file := none },
      c.complain (ascii "[LoggingSystem] Error: Could not open log file: " ++ path))

def closeFile (l : Logger) : Logger :=
  { l with file := none }

end Logger

end Repl.Log
