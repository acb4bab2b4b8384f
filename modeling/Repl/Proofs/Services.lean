import Repl.Proofs.Output.Files
import Repl.Proofs.Terminal.Stream
import Repl.Services

/-!
Services on a standard output with unlimited room: whatever they log, and wherever, the room stays.
-/

namespace Repl

namespace Configuration

/-- The standard stream that the settings name as log file, if they name one. -/
def logStream? (c : Configuration) (files : Files) : Option StandardStream :=
  (c.get? Services.sectionName (ascii "file")).bind files.stream?

theorem logStream?_congr {c : Configuration} {files files' : Files}
    (h : files'.resolve = files.resolve) : c.logStream? files' = c.logStream? files :=
  congrArg (c.get? Services.sectionName (ascii "file")).bind (funext (Files.stream?_congr h))

end Configuration

namespace Channels

/-- Standard output takes everything that is written to it. -/
abbrev Roomy (c : Channels) : Prop :=
  c.stdout.Unlimited

theorem append_roomy {c : Channels} (path text : Bytes) (h : c.Roomy) :
    (c.append path text).Roomy := by
  show (if c.files.stream? path = some .output then _ else c.stdout).Unlimited
  split
  · exact h.append text
  · exact h

end Channels

namespace Log.Logger

variable {c : Channels}

theorem toConsole_roomy (now : Timestamp) (e : Entry) (h : c.Roomy) :
    (toConsole now e c).Roomy := by
  unfold toConsole
  cases e.level with
  | warning | error => exact h
  | debug | info | none => exact Sink.Unlimited.write h _

theorem broadcast_roomy (e : Entry) (subscribers : List (Subscriber × Nat)) (h : c.Roomy) :
    (broadcast e c subscribers).Roomy := by
  induction subscribers generalizing c with
  | nil => exact h
  | cons first others ih =>
    obtain ⟨subscriber, i⟩ := first
    cases subscriber with
    | recording | failing message => exact ih h
    | escaping => exact h

theorem log_roomy (l : Logger) (now : Timestamp) (e : Entry) (h : c.Roomy) :
    (l.log now e c).Roomy := by
  unfold log
  split
  · have hconsole : (if l.console then toConsole now e c else c).Roomy := by
      split
      · exact toConsole_roomy now e h
      · exact h
    apply broadcast_roomy
    cases l.file with
    | some path => exact Channels.append_roomy path _ hconsole
    | none => exact hconsole
  · exact h

theorem openFile_roomy (l : Logger) (path : Bytes) (h : c.Roomy) :
    (l.openFile path c).2.2.Roomy := by
  unfold openFile
  split <;> exact h

end Log.Logger

namespace Services

variable {s : Services}

abbrev Roomy (s : Services) : Prop :=
  s.channels.Roomy

theorem log_roomy (now : Log.Timestamp) (e : Log.Entry) (h : s.Roomy) : (s.log now e).Roomy :=
  s.logger.log_roomy now e h

theorem logAll_roomy (now : Log.Timestamp) (entries : List Log.Entry) (h : s.Roomy) :
    (s.logAll now entries).Roomy :=
  List.foldlRecOn _ _ h fun _ hs e _ => log_roomy now e hs

theorem note_roomy (now : Log.Timestamp) (level : Log.Level) (message : Bytes) (h : s.Roomy) :
    (s.note now level message).Roomy :=
  log_roomy now _ h

theorem applyLevel_roomy (now : Log.Timestamp) (h : s.Roomy) : (s.applyLevel now).Roomy := by
  unfold applyLevel
  cases s.setting "level" with
  | none => exact h
  | some value =>
    dsimp only
    cases Log.Level.ofName? value with
    | some level => exact h
    | none => exact note_roomy now _ _ h

theorem applyConsole_roomy (h : s.Roomy) : s.applyConsole.Roomy := by
  unfold applyConsole
  cases s.setting "console" with
  | none | some value => exact h

theorem applyFile_roomy (h : s.Roomy) : s.applyFile.Roomy := by
  unfold applyFile
  split
  · exact h
  · exact h
  · exact s.logger.openFile_roomy _ h

theorem loadSettings_roomy (now : Log.Timestamp) (path : Bytes) (h : s.Roomy) :
    (s.loadSettings now path).2.Roomy :=
  note_roomy now _ _ h

theorem start_roomy (now : Log.Timestamp) (path : Bytes) (h : s.Roomy) :
    (s.start now path).2.Roomy := by
  unfold start
  split
  · exact note_roomy now _ _ h
  · have hloaded : (if path = [] then (true, s) else s.loadSettings now path).2.Roomy := by
      split
      · exact h
      · exact loadSettings_roomy now path h
    have happlied := applyFile_roomy (applyConsole_roomy (applyLevel_roomy now hloaded))
    exact note_roomy now _ _ happlied

theorem prepareSession_roomy (h : s.Roomy) : s.prepareSession.Roomy :=
  h

end Services

end Repl
