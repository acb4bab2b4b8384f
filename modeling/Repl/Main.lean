import Std.Time.DateTime.Timestamp
import Repl.Calculator.Program

/-!
The calculator's command line. The session runs on the whole of standard input; its first argument
is the path of its settings. Only the paths that the calculator opens are looked at, and standard
streams are known by the names of their devices.
-/

namespace Repl.Program

/-- Reads a stream to its end. -/
partial def readAll (stream : IO.FS.Stream) (sofar : ByteArray) : IO ByteArray := do
  let chunk ← stream.read 65536
  if chunk.isEmpty then return sofar else readAll stream (sofar ++ chunk)

def argument (s : String) : Bytes :=
  s.toUTF8.toList

/-- The file name that bytes spell, if they are UTF-8. -/
def fileName (path : Bytes) : Option String :=
  String.fromUTF8? path.toByteArray

/-- The standard stream whose device a path names. -/
def device? (path : Bytes) : Option StandardStream :=
  if path = ascii "/dev/stdin" then some .input
  else if path = ascii "/dev/stdout" then some .output
  else if path = ascii "/dev/stderr" then some .error
  else none

/-- The content of a file, if it can be read. -/
def read? (name : String) : IO (Option Bytes) := do
  try return some (← IO.FS.readBinFile name).toList
  catch _ => return none

/-- Opens a file for writing, which creates it, and tells whether that worked. -/
def opens (name : String) : IO Bool := do
  try
    discard <| IO.FS.Handle.mk name .append
    return true
  catch _ => return false

/-- Adds what a path names. -/
def learn (path : Bytes) (place : Place) (files : Files) : Files :=
  { files with resolve := fun other => if other = path then place else files.resolve other }

/-- Adds a path that is read. -/
def learnSettings (input path : Bytes) (files : Files) : IO Files := do
  match device? path, fileName path with
  | some .input, _ => return learn path (.stream .input (some input)) files
  | some s, _ => return learn path (.stream s none) files
  | none, none => return files
  | none, some name =>
    match ← read? name with
    | some content => return (learn path (.file path) files).write path content
    | none => return files

/-- Adds a path that is written to. -/
def learnLogFile (path : Bytes) (files : Files) : IO Files := do
  match device? path, fileName path with
  | some s, _ =>
    if files.stream? path = some s then return files
    else return learn path (.stream s none) files
  | none, none => return files
  | none, some name =>
    let content ← read? name
    if ← opens name then
      return (learn path (.file path) files).write path (content.getD [])
    else return learn path (.other content false) files

/-- Stores the file of a path, if it has changed. -/
def store (before after : Files) (path : Bytes) : IO Unit := do
  let some name := fileName path | return
  let some content := after.read? path | return
  if before.read? path != some content then
    IO.FS.writeBinFile name content.toByteArray

def put (stream : IO.FS.Stream) (s : Bytes) : IO Unit := do
  stream.write s.toByteArray
  stream.flush

end Repl.Program

open Repl Repl.Program in
/-- Runs the calculator on the standard streams. -/
def main (args : List String) : IO UInt32 := do
  let arguments := args.map argument
  let settings := Text.untilNul (arguments.head?.getD [])
  let input := (← readAll (← IO.getStdin) .empty).toList
  let now ← Std.Time.Timestamp.now
  let withSettings ← learnSettings input settings ⟨fun _ => .nowhere, .empty⟩
  let logFile := (Configuration.ofFile settings withSettings).getOr
    Services.sectionName (ascii "file") []
  let files ← learnLogFile (Text.untilNul logFile) withSettings
  let ending := Calculator.run
    { arguments, input, files, stdout := .unlimited
      now := ⟨now.toMillisecondsSinceUnixEpoch.val⟩ }
  store files ending.channels.files (Text.untilNul logFile)
  put (← IO.getStdout) ending.channels.stdout.written
  put (← IO.getStderr) ending.channels.stderr
  return ending.exitCode.toUInt32
