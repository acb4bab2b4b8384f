import Repl.Proofs.Log.Delivery
import Repl.Proofs.Text.Trim

/-!
Services that keep their log off standard output. They begin with the console on, and apply their
settings one by one, logging on the way. If the settings turn the console off, none of that shows, as
long as the log file is not standard output itself.
-/

namespace Repl

/-- The settings turn the console off. -/
def Configuration.TurnsOffConsole (c : Configuration) : Prop :=
  (c.get? Services.sectionName (ascii "console")).map Text.toLower = some (ascii "false")

instance : DecidablePred Configuration.TurnsOffConsole :=
  fun _ => inferInstanceAs (Decidable (_ = _))

namespace Services

variable {s : Services} {c : Configuration} {stdout : Sink} (now : Log.Timestamp) (e : Log.Entry)

/-! ## Logging -/

/-- An entry gets to standard output only if the console is on and shows it there, or if that is the
log file. -/
theorem log_stdout (hfile : s.logger.logStream? s.channels.files ≠ some .output)
    (h : s.logger.console = true → s.logger.admits e = true → e.Grave) :
    (s.log now e).channels.stdout = s.channels.stdout := by
  show (s.logger.log now e s.channels).stdout = _
  by_cases hadmits : s.logger.admits e = true
  · rw [Log.Logger.log_of_admits hadmits]
    dsimp only
    rw [if_neg hfile]
    exact if_neg fun hshown => hshown.2 (h hshown.1 hadmits)
  · rw [Log.Logger.log_of_not_admits hadmits]

theorem log_resolve (s : Services) :
    (s.log now e).channels.files.resolve = s.channels.files.resolve :=
  s.logger.log_resolve now e s.channels

/-- A new logger lets nothing through at debug level. -/
theorem note_debug_of_new (message : Bytes) (hs : s.logger = .new) :
    s.note now .debug message = s := by
  have hadmits : ¬s.logger.admits ⟨.debug, category, message⟩ = true := by
    rw [hs]
    exact Bool.false_ne_true
  rw [note, log, Log.Logger.log_of_not_admits hadmits]

/-- The log file is not standard output, which is as given. -/
structure Aside (stdout : Sink) (s : Services) : Prop where
  logFile : s.logger.logStream? s.channels.files ≠ some .output
  stdout : s.channels.stdout = stdout

/-- The console is off, too. -/
structure Hushed (stdout : Sink) (s : Services) : Prop extends s.Aside stdout where
  console : s.logger.console = false

theorem Aside.log (h : s.Aside stdout)
    (he : s.logger.console = true → s.logger.admits e = true → e.Grave) :
    (s.log now e).Aside stdout where
  logFile := by
    have hstream : s.logger.logStream? (s.log now e).channels.files = _ :=
      Log.Logger.logStream?_congr (log_resolve now e s)
    exact hstream ▸ h.logFile
  stdout := (log_stdout now e h.logFile he).trans h.stdout

theorem Hushed.log (h : s.Hushed stdout) : (s.log now e).Hushed stdout where
  toAside := h.toAside.log now e fun hconsole => nomatch h.console.symm.trans hconsole
  console := h.console

theorem Hushed.logAll (h : s.Hushed stdout) (entries : List Log.Entry) :
    (s.logAll now entries).Hushed stdout :=
  List.foldlRecOn _ _ h fun _ hs e _ => hs.log now e

theorem Hushed.stop (h : s.Hushed stdout) : (s.stop now).Hushed stdout := by
  unfold Services.stop
  split
  · have hstopping : ({ s with started := false } : Services).Hushed stdout :=
      ⟨⟨h.logFile, h.stdout⟩, h.console⟩
    have hnoted := hstopping.log now ⟨.debug, category, ascii "Core shut down."⟩
    exact ⟨⟨nofun, hnoted.stdout⟩, hnoted.console⟩
  · exact h.log now _

theorem logAll_configuration (entries : List Log.Entry) (s : Services) :
    (s.logAll now entries).configuration = s.configuration :=
  List.foldlRecOn entries _ (motive := fun t : Services => t.configuration = s.configuration) rfl
    fun _ hs _ _ => hs

/-! ## Settings -/

/-- A level that is not known is a warning, and warnings go to standard error. -/
theorem Aside.applyLevel (h : s.Aside stdout) : (s.applyLevel now).Aside stdout := by
  unfold Services.applyLevel
  cases s.setting "level" with
  | none => exact h
  | some value =>
    dsimp only
    cases Log.Level.ofName? value with
    | some level => exact ⟨h.logFile, h.stdout⟩
    | none => exact h.log now _ fun _ _ => .inl rfl

theorem applyLevel_resolve (s : Services) :
    (s.applyLevel now).channels.files.resolve = s.channels.files.resolve := by
  unfold applyLevel
  cases s.setting "level" with
  | none => rfl
  | some value =>
    dsimp only
    cases Log.Level.ofName? value with
    | some level => rfl
    | none => exact log_resolve now _ s

theorem applyLevel_configuration : (s.applyLevel now).configuration = s.configuration := by
  unfold applyLevel
  cases s.setting "level" with
  | none => rfl
  | some value =>
    dsimp only
    cases Log.Level.ofName? value with
    | some level | none => rfl

theorem applyConsole_console_eq {value : Bytes} (h : s.setting "console" = some value) :
    s.applyConsole.logger.console = (Text.toLower value != ascii "false") := by
  rw [applyConsole, h]
  rfl

theorem applyConsole_console (h : s.configuration.TurnsOffConsole) :
    s.applyConsole.logger.console = false := by
  obtain ⟨value, hvalue, hfalse⟩ := Option.map_eq_some_iff.1 h
  rw [applyConsole_console_eq hvalue, hfalse, bne_self_eq_false]

theorem applyConsole_channels : s.applyConsole.channels = s.channels := by
  unfold applyConsole
  split <;> rfl

theorem Aside.applyConsole (h : s.Aside stdout) : s.applyConsole.Aside stdout := by
  unfold Services.applyConsole
  cases s.setting "console" with
  | none => exact h
  | some value => exact ⟨h.logFile, h.stdout⟩

theorem applyConsole_configuration : s.applyConsole.configuration = s.configuration := by
  unfold applyConsole
  split <;> rfl

theorem applyFile_console : s.applyFile.logger.console = s.logger.console := by
  unfold applyFile
  split
  · rfl
  · rfl
  · show (s.logger.openFile _ s.channels).2.1.console = _
    rw [Log.Logger.openFile_logger]

theorem Aside.applyFile (h : s.Aside stdout)
    (hlog : s.configuration.logStream? s.channels.files ≠ some .output) :
    s.applyFile.Aside stdout := by
  unfold Services.applyFile
  cases hsetting : s.setting "file" with
  | none => exact h
  | some path =>
    cases path with
    | nil => exact h
    | cons b rest =>
      have hstream : s.channels.files.stream? (b :: rest) ≠ some .output := by
        rw [Configuration.logStream?] at hlog
        change s.configuration.get? sectionName (ascii "file") = some (b :: rest) at hsetting
        rwa [hsetting] at hlog
      refine ⟨?_, (s.logger.openFile_stdout (b :: rest) s.channels).trans h.stdout⟩
      show (s.logger.openFile (b :: rest) s.channels).2.1.logStream?
        (s.logger.openFile (b :: rest) s.channels).2.2.files ≠ some .output
      rw [Log.Logger.logStream?_congr (s.logger.openFile_resolve (b :: rest) s.channels),
        Log.Logger.openFile_logger, Log.Logger.logStream?]
      dsimp only
      by_cases hwritable : s.channels.files.writable (b :: rest) = true
      · rw [if_pos hwritable]
        exact hstream
      · rw [if_neg hwritable]
        exact (Option.some_ne_none _).symm

theorem applyFile_resolve (s : Services) :
    s.applyFile.channels.files.resolve = s.channels.files.resolve := by
  unfold applyFile
  split
  · rfl
  · rfl
  · exact s.logger.openFile_resolve _ s.channels

theorem applySettings_resolve (s : Services) :
    (s.applyLevel now).applyConsole.applyFile.channels.files.resolve =
      s.channels.files.resolve := by
  rw [applyFile_resolve, applyConsole_channels, applyLevel_resolve]

theorem applyFile_configuration : s.applyFile.configuration = s.configuration := by
  unfold applyFile
  split <;> rfl

theorem applySettings_configuration :
    (s.applyLevel now).applyConsole.applyFile.configuration = s.configuration := by
  rw [applyFile_configuration, applyConsole_configuration, applyLevel_configuration]

/-- The console is turned off before the log file is opened. -/
theorem applySettings_hushed (hconsole : s.configuration.TurnsOffConsole)
    (hlog : s.configuration.logStream? s.channels.files ≠ some .output) (h : s.Aside stdout) :
    (s.applyLevel now).applyConsole.applyFile.Hushed stdout where
  toAside := by
    refine (h.applyLevel now).applyConsole.applyFile ?_
    rw [applyConsole_configuration, applyLevel_configuration, applyConsole_channels,
      Configuration.logStream?_congr (applyLevel_resolve now s)]
    exact hlog
  console := by
    rw [applyFile_console]
    apply applyConsole_console
    rw [applyLevel_configuration]
    exact hconsole

/-! ## Starting -/

theorem loadSettings_eq {path text : Bytes} {sections : Sections}
    (hread : s.channels.files.read? path = some text)
    (hsections : Sections.ofText? text = some sections) :
    s.loadSettings now path =
      (true, Services.note now .debug (ascii "Config load: " ++ Configuration.Reload.loaded.message)
        { s with configuration := ⟨sections, path⟩ }) := by
  have hload : (s.configuration.setSource path).load text = (true, ⟨sections, path⟩) := by
    rw [Configuration.load, hsections]
    rfl
  have hreload : (s.configuration.setSource path).reload s.channels.files =
      (.loaded, ⟨sections, path⟩) := by
    have hpath : (s.configuration.setSource path).source ≠ [] := Files.ne_nil_of_read? hread
    have hsource : s.channels.files.read? (s.configuration.setSource path).source = some text := hread
    rw [Configuration.reload, if_neg hpath, hsource]
    dsimp only
    rw [hload]
  rw [loadSettings, hreload]
  rfl

/-- Services that are not started yet apply the settings that they load. -/
theorem start_eq {loaded : Bool} {path : Bytes} {settled : Services} (hstarted : s.started = false)
    (h : (if path = [] then (true, s) else s.loadSettings now path) = (loaded, settled)) :
    s.start now path =
      (loaded, Services.note now .debug (ascii "Core initialized.")
        { (settled.applyLevel now).applyConsole.applyFile with started := true }) := by
  rw [start, hstarted, if_neg Bool.false_ne_true, h]

/-- Whatever the settings say besides, starting shows nothing if they turn the console off. -/
theorem start_of_loaded (channels : Channels) {path text : Bytes} {sections : Sections}
    (hread : channels.files.read? path = some text)
    (hsections : Sections.ofText? text = some sections)
    (hconsole : (Configuration.mk sections path).TurnsOffConsole)
    (hlog : (Configuration.mk sections path).logStream? channels.files ≠ some .output) :
    ((new channels).start now path).2.Aside channels.stdout ∧
      ((new channels).start now path).2.configuration = ⟨sections, path⟩ := by
  -- The load is noted while the console is still on.
  have hquiet : Services.note now .debug
      (ascii "Config load: " ++ Configuration.Reload.loaded.message)
      { new channels with configuration := ⟨sections, path⟩ } =
        { new channels with configuration := ⟨sections, path⟩ } := note_debug_of_new now _ rfl
  have hload := (loadSettings_eq (s := new channels) now hread hsections).trans
    (congrArg (Prod.mk true) hquiet)
  have haside : ({ new channels with configuration := ⟨sections, path⟩ } : Services).Aside
      channels.stdout := ⟨nofun, rfl⟩
  obtain ⟨⟨hlogFile, hstdout⟩, hoff⟩ := applySettings_hushed now hconsole hlog haside
  have hstarted : Hushed channels.stdout
      { ((applyLevel now { new channels with configuration := ⟨sections, path⟩ }).applyConsole).applyFile
        with started := true } := ⟨⟨hlogFile, hstdout⟩, hoff⟩
  rw [start_eq now rfl ((if_neg (Files.ne_nil_of_read? hread)).trans hload)]
  exact ⟨(hstarted.log now _).toAside, applySettings_configuration now⟩

/-- Without settings the console stays on, but nothing is said at its level. -/
theorem start_of_unset (channels : Channels) :
    ((new channels).start now []).2.Aside channels.stdout ∧
      ((new channels).start now []).2.configuration = .empty := by
  have hstart : ((new channels).start now []).2 = { new channels with started := true } :=
    note_debug_of_new now _ rfl
  rw [hstart]
  exact ⟨⟨nofun, rfl⟩, rfl⟩

/-! ## The session to come -/

/-- Settings that turn the console off do not ask for it: what says `false` does not say `true`,
whatever is trimmed from it. -/
theorem prepareSession_of_turnsOffConsole (h : s.configuration.TurnsOffConsole)
    (haside : s.Aside stdout) : s.prepareSession.Hushed stdout := by
  refine ⟨⟨haside.logFile, haside.stdout⟩, ?_⟩
  obtain ⟨value, hvalue, hfalse⟩ := Option.map_eq_some_iff.1 h
  show ((s.configuration.get? _ _).any _) = false
  rw [hvalue, Option.any_some, beq_eq_false_iff_ne]
  intro htrue
  have hinfix := Text.toLower_trim_isInfix value
  rw [hfalse, htrue] at hinfix
  exact absurd hinfix (by decide)

theorem prepareSession_of_unset (h : s.configuration = .empty) (haside : s.Aside stdout) :
    s.prepareSession.Hushed stdout := by
  refine ⟨⟨haside.logFile, haside.stdout⟩, ?_⟩
  show ((s.configuration.get? _ _).any _) = false
  rw [h]
  rfl

end Services

end Repl
