import Repl.Log.Entry
import Repl.Output.Files
import Repl.Output.Sink

/-!
Everything a program writes to: standard output, standard error, files, and the entries that
subscribers of the log have received.
-/

namespace Repl

/-- A log entry that a subscriber received. -/
structure Notice where
  subscriber : Nat
  entry : Log.Entry
  deriving DecidableEq, Repr

/-- The places that a program writes to, with what they hold. -/
structure Channels where
  stdout : Sink
  stderr : Bytes
  notices : List Notice
  files : Files

namespace Channels

def ofFiles (files : Files) (stdout : Sink) : Channels :=
  ⟨stdout, [], [], files⟩

def complain (c : Channels) (line : Bytes) : Channels :=
  { c with stderr := c.stderr ++ Text.withNewline line }

/-- Puts a text after what a path holds. The program's own output streams show it at once; standard
input takes it, but does not show it. -/
def append (c : Channels) (path text : Bytes) : Channels :=
  { c with
    stdout := if c.files.stream? path = some .output then c.stdout.append text else c.stdout
    stderr := c.stderr ++ if c.files.stream? path = some .error then text else []
    files := c.files.append path text }

end Channels

end Repl
