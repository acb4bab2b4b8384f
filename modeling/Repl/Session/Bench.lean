import Repl.Log.Logger
import Repl.Session.Run
import Repl.Terminal.Scripted

/-!
A host for trying sessions out: a scripted terminal, and a logger that may be missing. The logger is
silent; what it lets through shows in the transcript.
-/

namespace Repl

/-- A scripted terminal with a logger. -/
structure Bench where
  terminal : Scripted
  logger : Option Log.Logger

namespace Bench

/-- Whether a log entry is let through. Without a logger, none is. -/
def admits (b : Bench) (e : Log.Entry) : Bool :=
  match b.logger with
  | some logger => logger.admits e
  | none => false

/-- The logger for a level: silent, with that level for every category. -/
def loggerAt (level : Log.Level) : Log.Logger :=
  (Log.Logger.new.setConsole false).setLevel Log.defaultCategory level

instance : Host Bench where
  print text b :=
    let (result, terminal) := b.terminal.print text
    (result, { b with terminal })
  readLine b :=
    let (result, terminal) := b.terminal.readLine
    (result, { b with terminal })
  patience b := b.terminal.patience
  log e b := (b.admits e, b)

end Bench

end Repl
