import Repl.Proofs.Log.History
import Repl.Proofs.Services.Console

/-!
Services that are started and stopped again and again. A start takes all its settings from its file,
and a stop gives up the log file. But the level of the log and the switch of its console outlast the
stop, and settings that say nothing about them leave them as earlier settings wanted them.
-/

namespace Repl

theorem getD_eq_getD_iff {α : Type} {o : Option α} {a b : α} :
    o.getD a = o.getD b ↔ o ≠ none ∨ a = b := by
  cases o with
  | none => simp
  | some c => simp

/-! ## What settings want of the log -/

namespace Configuration

variable {α : Type}

/-- The level that the settings name, if it is known. -/
def level? (c : Configuration) : Option Log.Level :=
  (c.get? Services.sectionName (ascii "level")).bind Log.Level.ofName?

/-- Whether the settings want the console on, if they mention it. -/
def console? (c : Configuration) : Option Bool :=
  (c.get? Services.sectionName (ascii "console")).map fun value =>
    Text.toLower value != ascii "false"

/-- The log file that the settings name, if it can be opened among the files. -/
def logFile? (c : Configuration) (files : Files) : Option Bytes :=
  (c.get? Services.sectionName (ascii "file")).filter files.writable

theorem logFile?_congr {c : Configuration} {files files' : Files}
    (h : files'.resolve = files.resolve) : c.logFile? files' = c.logFile? files :=
  congrArg (fun opens => (c.get? Services.sectionName (ascii "file")).filter opens)
    (funext (Files.writable_congr h))

/-- What is left of a value after settings have replaced it, one after another. -/
def replaced (wanted : Configuration → Option α) (settings : List Configuration) (value : α) : α :=
  settings.foldl (fun value c => (wanted c).getD value) value

/-- Only a text that was read as a whole is a success. -/
theorem exists_sections_of_reload {c : Configuration} {files : Files}
    (h : (c.reload files).1.succeeded = true) :
    ∃ text sections, files.read? c.source = some text ∧ Sections.ofText? text = some sections := by
  unfold reload at h
  by_cases hsource : c.source = []
  · rw [if_pos hsource] at h
    cases h
  · rw [if_neg hsource] at h
    cases htext : files.read? c.source with
    | none =>
      rw [htext] at h
      cases h
    | some text =>
      cases hsections : Sections.ofText? text with
      | some sections => exact ⟨text, sections, rfl, hsections⟩
      | none =>
        rw [htext] at h
        dsimp only at h
        rw [load, hsections] at h
        cases h

end Configuration

/-! ## The logger -/

namespace Log.Logger

variable {l : Logger} {level : Level} {console : Bool} {file : Option Bytes}

/-- The logger has one level for all categories, and the switch and the file that are given. -/
structure Stands (l : Logger) (level : Level) (console : Bool) (file : Option Bytes) : Prop where
  levels : ∀ category,
    l.levels.find? category = if category = defaultCategory then some level else none
  fallback : l.fallback = level
  console : l.console = console
  file : l.file = file

theorem stands_new : new.Stands .info true none where
  levels _ := Dictionary.find?_insert _ _ _ _
  fallback := rfl
  console := rfl
  file := rfl

theorem Stands.level_eq (h : l.Stands level console file) (category : Bytes) :
    l.level category = level := by
  rw [Logger.level, h.levels, h.fallback]
  split <;> rfl

theorem Stands.setLevel (h : l.Stands level console file) (other : Level) :
    (l.setLevel defaultCategory other).Stands other console file where
  levels category := by
    show (l.levels.insert defaultCategory other).find? category = _
    rw [Dictionary.find?_insert, h.levels]
    split <;> rfl
  fallback := rfl
  console := h.console
  file := h.file

end Log.Logger

namespace Services

variable {s : Services} {level : Log.Level} {console : Bool} {file : Option Bytes}
  (now : Log.Timestamp) (path : Bytes)

/-! ## Settings -/

theorem applyLevel_stands (h : s.logger.Stands level console file) :
    (s.applyLevel now).logger.Stands (s.configuration.level?.getD level) console file := by
  show (s.applyLevel now).logger.Stands
    (((s.setting "level").bind Log.Level.ofName?).getD level) console file
  unfold applyLevel
  cases s.setting "level" with
  | none => exact h
  | some value =>
    rw [Option.bind_some]
    dsimp only
    cases Log.Level.ofName? value with
    | some level => exact h.setLevel level
    | none => exact h

theorem applyConsole_stands (h : s.logger.Stands level console file) :
    s.applyConsole.logger.Stands level (s.configuration.console?.getD console) file := by
  show s.applyConsole.logger.Stands level
    (((s.setting "console").map fun value => Text.toLower value != ascii "false").getD console) file
  unfold applyConsole
  cases s.setting "console" with
  | none => exact h
  | some value => exact ⟨h.levels, h.fallback, rfl, h.file⟩

theorem applyFile_stands (h : s.logger.Stands level console none) :
    s.applyFile.logger.Stands level console (s.configuration.logFile? s.channels.files) := by
  show s.applyFile.logger.Stands level console ((s.setting "file").filter s.channels.files.writable)
  unfold applyFile
  match s.setting "file" with
  | none => exact h
  | some [] => exact h
  | some (b :: rest) =>
    show (s.logger.openFile (b :: rest) s.channels).2.1.Stands level console _
    rw [Log.Logger.openFile_logger]
    exact ⟨h.levels, h.fallback, h.console, (Option.filter_some ..).symm⟩

theorem applySettings_stands (h : s.logger.Stands level console none) :
    (s.applyLevel now).applyConsole.applyFile.logger.Stands
      (s.configuration.level?.getD level) (s.configuration.console?.getD console)
      (s.configuration.logFile? s.channels.files) := by
  have hlevel := applyLevel_stands now h
  have hconsole := applyConsole_stands hlevel
  have hfile := applyFile_stands hconsole
  rw [applyConsole_configuration, applyLevel_configuration, applyConsole_channels,
    Configuration.logFile?_congr (applyLevel_resolve now s)] at hfile
  exact hfile

/-! ## Starts -/

theorem loadSettings_resolve (s : Services) :
    (s.loadSettings now path).2.channels.files.resolve = s.channels.files.resolve :=
  log_resolve now _ _

/-- A start goes on from services with the same logger, which it gives the settings that it leaves. -/
theorem exists_settled (hstarted : s.started = false) : ∃ settled : Services,
    settled.logger = s.logger ∧
      settled.channels.files.resolve = s.channels.files.resolve ∧
      (s.start now path).2.logger = (settled.applyLevel now).applyConsole.applyFile.logger ∧
      (s.start now path).2.configuration = settled.configuration ∧
      (s.start now path).2.started = true := by
  obtain ⟨loaded, settled, hload⟩ : ∃ loaded settled,
      (if path = [] then (true, s) else s.loadSettings now path) = (loaded, settled) :=
    ⟨_, _, rfl⟩
  refine ⟨settled, ?_, ?_, ?_⟩
  · by_cases hpath : path = []
    · rw [if_pos hpath] at hload
      rw [(Prod.mk.inj hload).2]
    · rw [if_neg hpath] at hload
      rw [← (Prod.mk.inj hload).2]
      rfl
  · by_cases hpath : path = []
    · rw [if_pos hpath] at hload
      rw [(Prod.mk.inj hload).2]
    · rw [if_neg hpath] at hload
      rw [← (Prod.mk.inj hload).2]
      exact loadSettings_resolve now path s
  · rw [start_eq now hstarted hload]
    exact ⟨rfl, applySettings_configuration now, rfl⟩

theorem start_resolve (s : Services) :
    (s.start now path).2.channels.files.resolve = s.channels.files.resolve := by
  cases hstarted : s.started with
  | true =>
    rw [start, hstarted]
    exact log_resolve now _ s
  | false =>
    have hload : (if path = [] then (true, s) else s.loadSettings now path).2.channels.files.resolve =
        s.channels.files.resolve := by
      split
      · rfl
      · exact loadSettings_resolve now path s
    rw [start_eq now hstarted rfl]
    exact (log_resolve now _ _).trans ((applySettings_resolve now _).trans hload)

theorem stop_resolve (s : Services) :
    (s.stop now).channels.files.resolve = s.channels.files.resolve := by
  unfold stop
  split
  · exact log_resolve now _ { s with started := false }
  · exact log_resolve now _ s

/-- A start that succeeds takes its settings from the text of the file, and from nothing else. -/
theorem start_configuration (hstarted : s.started = false) {text : Bytes} {sections : Sections}
    (hread : s.channels.files.read? path = some text)
    (hsections : Sections.ofText? text = some sections) :
    (s.start now path).1 = true ∧ (s.start now path).2.configuration = ⟨sections, path⟩ := by
  rw [start_eq now hstarted ((if_neg (Files.ne_nil_of_read? hread)).trans
    (loadSettings_eq now hread hsections))]
  exact ⟨rfl, applySettings_configuration now⟩

theorem exists_sections_of_start (hstarted : s.started = false) (hpath : path ≠ [])
    (hloaded : (s.start now path).1 = true) : ∃ text sections,
      s.channels.files.read? path = some text ∧ Sections.ofText? text = some sections := by
  have hload : (if path = [] then (true, s) else s.loadSettings now path) =
      ((s.loadSettings now path).1, (s.loadSettings now path).2) := if_neg hpath
  rw [start_eq now hstarted hload] at hloaded
  exact Configuration.exists_sections_of_reload hloaded

/-- The log has one level for all categories. Only services that are started have a log file, which
is the one of their settings. -/
def Carries (s : Services) (level : Log.Level) (console : Bool) : Prop :=
  s.logger.Stands level console
    (if s.started then s.configuration.logFile? s.channels.files else none)

theorem carries_new (channels : Channels) : (new channels).Carries .info true :=
  Log.Logger.stands_new

theorem Carries.start_stands (h : s.Carries level console) (hstarted : s.started = false) :
    (s.start now path).2.started = true ∧
      (s.start now path).2.logger.Stands
        ((s.start now path).2.configuration.level?.getD level)
        ((s.start now path).2.configuration.console?.getD console)
        ((s.start now path).2.configuration.logFile? s.channels.files) := by
  obtain ⟨settled, hlogger, hresolve, hleft, hconfiguration, hdone⟩ :=
    exists_settled now path hstarted
  rw [Carries, hstarted, if_neg Bool.false_ne_true, ← hlogger] at h
  rw [hleft, hconfiguration, ← Configuration.logFile?_congr hresolve]
  exact ⟨hdone, applySettings_stands now h⟩

theorem Carries.start (h : s.Carries level console) (hstarted : s.started = false) :
    (s.start now path).2.Carries
      ((s.start now path).2.configuration.level?.getD level)
      ((s.start now path).2.configuration.console?.getD console) := by
  have ⟨hdone, hstands⟩ := h.start_stands now path hstarted
  rw [Carries, hdone, if_pos rfl, Configuration.logFile?_congr (start_resolve now path s)]
  exact hstands

theorem Carries.stop (h : s.Carries level console) : (s.stop now).Carries level console := by
  have hresolve := stop_resolve now s
  cases hstarted : s.started with
  | true =>
    rw [Services.stop, hstarted, if_pos rfl]
    exact ⟨h.levels, h.fallback, h.console, rfl⟩
  | false =>
    have hfile := h.file
    rw [hstarted] at hfile
    rw [Services.stop, hstarted, if_neg Bool.false_ne_true]
    refine ⟨h.levels, h.fallback, h.console, hfile.trans ?_⟩
    show none = if s.started then _ else _
    rw [hstarted]
    rfl

/-! ## Turns -/

open Repl.Configuration

/-- A start or a stop. -/
inductive Turn where
  | start (now : Log.Timestamp) (path : Bytes)
  | stop (now : Log.Timestamp)
  deriving DecidableEq, Repr

def turn (s : Services) : Turn → Services
  | .start now path => (s.start now path).2
  | .stop now => s.stop now

def after (s : Services) (turns : List Turn) : Services :=
  turns.foldl turn s

/-- The settings that the turn applies. Services that are started already apply none. -/
def settings? (s : Services) : Turn → Option Configuration
  | .start now path => if s.started then none else some (s.start now path).2.configuration
  | .stop _ => none

/-- The settings that the turns apply, in order. -/
def applied (s : Services) : List Turn → List Configuration
  | [] => []
  | t :: rest => (s.settings? t).toList ++ (s.turn t).applied rest

theorem turn_resolve (s : Services) (t : Turn) :
    (s.turn t).channels.files.resolve = s.channels.files.resolve := by
  cases t with
  | start now path => exact start_resolve now path s
  | stop now => exact stop_resolve now s

theorem after_resolve (s : Services) (turns : List Turn) :
    (s.after turns).channels.files.resolve = s.channels.files.resolve :=
  List.foldlRecOn turns turn (motive := fun other : Services =>
    other.channels.files.resolve = s.channels.files.resolve) rfl
    fun other h t _ => (other.turn_resolve t).trans h

theorem Carries.turn (h : s.Carries level console) (t : Turn) :
    (s.turn t).Carries (replaced level? (s.settings? t).toList level)
      (replaced console? (s.settings? t).toList console) := by
  cases t with
  | stop now => exact h.stop now
  | start now path =>
    cases hstarted : s.started with
    | true =>
      have hagain : s.Carries level console := h
      rw [Carries, ← Configuration.logFile?_congr (log_resolve now
        ⟨.warning, category, ascii "Core::initialize() called multiple times."⟩ s)] at hagain
      rw [settings?, hstarted, Services.turn, Services.start, hstarted]
      exact hagain
    | false =>
      rw [settings?, hstarted]
      exact h.start now path hstarted

/-- Whatever the turns, the log has the level and the switch that were wanted last. -/
theorem Carries.after (h : s.Carries level console) (turns : List Turn) :
    (s.after turns).Carries (replaced level? (s.applied turns) level)
      (replaced console? (s.applied turns) console) := by
  induction turns generalizing s level console with
  | nil => exact h
  | cons t rest ih =>
    rw [applied, replaced, replaced, List.foldl_append, List.foldl_append]
    exact ih (h.turn t)

/-- Services that were stopped, whatever came before, take their settings and their log file from
the file that they are started with, as new services of the same system do. Their level is that of
new services just if the file names one or the settings before it left the one that new services
have, and so is the switch of the console. -/
theorem restart_eq_fresh_start_iff (channels channels' : Channels) (turns : List Turn)
    (now now' : Log.Timestamp) (path : Bytes)
    (hstopped : ((new channels).after turns).started = false) (hpath : path ≠ [])
    (hsystem : channels'.files.resolve = channels.files.resolve)
    (hfiles : channels'.files.read? path =
      ((new channels).after turns).channels.files.read? path)
    (hloaded : (((new channels).after turns).start now path).1 = true) :
    let before := (new channels).applied turns
    let again := (((new channels).after turns).start now path).2
    let fresh := ((new channels').start now' path).2
    again.configuration = fresh.configuration ∧ again.logger.file = fresh.logger.file ∧
      (∀ category, fresh.logger.level category = fresh.configuration.level?.getD .info) ∧
      fresh.logger.console = fresh.configuration.console?.getD true ∧
      ((∀ category, again.logger.level category = fresh.logger.level category) ↔
        fresh.configuration.level? ≠ none ∨ replaced level? before .info = .info) ∧
      (again.logger.console = fresh.logger.console ↔
        fresh.configuration.console? ≠ none ∨ replaced console? before true = true) := by
  intro before again fresh
  obtain ⟨text, sections, hread, hsections⟩ :=
    exists_sections_of_start now path hstopped hpath hloaded
  have hagain := (start_configuration now path hstopped hread hsections).2
  have hfresh := (start_configuration (s := new channels') now' path rfl
    (hfiles.trans hread) hsections).2
  have hsame : again.configuration = fresh.configuration := hagain.trans hfresh.symm
  have ⟨_, hold⟩ := ((carries_new channels).after turns).start_stands now path hstopped
  have ⟨_, hnew⟩ := (carries_new channels').start_stands now' path rfl
  change again.logger.Stands (again.configuration.level?.getD _)
    (again.configuration.console?.getD _) (again.configuration.logFile? _) at hold
  have hsame_system : (new channels').channels.files.resolve =
      ((new channels).after turns).channels.files.resolve :=
    hsystem.trans (after_resolve (new channels) turns).symm
  rw [hsame, ← Configuration.logFile?_congr hsame_system] at hold
  refine ⟨hsame, hold.file.trans hnew.file.symm, hnew.level_eq, hnew.console, ?_, ?_⟩
  · rw [← getD_eq_getD_iff]
    constructor
    · intro h
      exact (hold.level_eq []).symm.trans ((h []).trans (hnew.level_eq []))
    · intro h category
      rw [hold.level_eq, hnew.level_eq]
      exact h
  · rw [← getD_eq_getD_iff, hold.console, hnew.console]

/-- Files of two applications: the settings of one mute the log, those of the other leave it alone. -/
def mutingFiles : Channels :=
  .ofFiles ((Files.empty.write (ascii "a.ini")
    (ascii "[Logging]\nlevel = error\nconsole = false\n")).write (ascii "b.ini")
      (ascii "[Other]\nkey = value\n")) .unlimited

def muted : Services :=
  (new mutingFiles).after [.start ⟨0⟩ (ascii "a.ini"), .stop ⟨0⟩]

theorem restart_of_muted :
    let again := (muted.start ⟨0⟩ (ascii "b.ini")).2
    let fresh := ((new mutingFiles).start ⟨0⟩ (ascii "b.ini")).2
    again.configuration = fresh.configuration ∧ again.logger.file = fresh.logger.file ∧
      (¬∀ category, again.logger.level category = fresh.logger.level category) ∧
      ¬again.logger.console = fresh.logger.console := by
  intro again fresh
  have ⟨hconfiguration, hfile, _, _, hlevel, hconsole⟩ := restart_eq_fresh_start_iff mutingFiles
    mutingFiles [.start ⟨0⟩ (ascii "a.ini"), .stop ⟨0⟩] ⟨0⟩ ⟨0⟩ (ascii "b.ini")
    (by decide) (by decide) rfl (by decide) (by decide)
  exact ⟨hconfiguration, hfile, mt hlevel.1 (by decide), mt hconsole.1 (by decide)⟩

/-- A log that was muted stays muted, where a new one is not. -/
theorem muted_log_stays_muted :
    muted.started = false ∧ (muted.start ⟨0⟩ (ascii "b.ini")).1 = true ∧
      (muted.start ⟨0⟩ (ascii "b.ini")).2.logger.level Log.defaultCategory = .error ∧
      (muted.start ⟨0⟩ (ascii "b.ini")).2.logger.console = false ∧
      ((new mutingFiles).start ⟨0⟩ (ascii "b.ini")).2.logger.level Log.defaultCategory = .info ∧
      ((new mutingFiles).start ⟨0⟩ (ascii "b.ini")).2.logger.console = true := by
  decide

end Services

end Repl
