import Repl.Proofs.Configuration.History
import Repl.Proofs.Configuration.Loading
import Repl.Proofs.Services.Restarting

/-!
The first start of services. They are started whatever becomes of their settings. Those of a
well-formed file are applied one by one; from any other file, or if there is none, nothing is taken,
and the log says so once.
-/

namespace Repl

/-! ## Names of levels -/

namespace Log.Level

/-- The text names the level, in either case and with white space around it. -/
def NamedBy (level : Level) (text : Bytes) : Prop :=
  Text.toLower (Text.trim text) = Text.toLower level.name

theorem ofName?_eq_some_iff {text : Bytes} {level : Level} :
    ofName? text = some level ↔ level.NamedBy text := by
  unfold ofName? NamedBy
  generalize Text.toLower (Text.trim text) = lowered
  constructor
  · intro h
    have hname := List.find?_some (p := fun level : Level => Text.toLower level.name == lowered) h
    exact (beq_iff_eq.1 hname).symm
  · rintro rfl
    cases level <;> rfl

theorem ofName?_eq_none_iff {text : Bytes} :
    ofName? text = Option.none ↔ ∀ level : Level, ¬level.NamedBy text := by
  rw [Option.eq_none_iff_forall_ne_some]
  exact forall_congr' fun level => not_congr ofName?_eq_some_iff

end Log.Level

/-! ## Settings from a file -/

namespace Configuration

open IniLine

variable {c : Configuration} {files : Files} {text : Bytes} {ms : List IniLine}

/-- Why there are no settings at the path: it cannot be opened, or what it holds is malformed. -/
def failure (files : Files) (path : Bytes) : Bytes :=
  match files.read? path with
  | none => ascii "Failed to open configuration file: " ++ path
  | some _ => ascii "Failed to parse configuration file: " ++ path

theorem get?_eq_some_iff {name key value : Bytes} :
    c.get? name key = some value ↔ c.get name key = .ok value := by
  rw [get?]
  cases c.get name key <;> simp [Except.toOption]

theorem reload_of_failed (hsource : c.source ≠ []) (h : (c.reload files).1.succeeded = false) :
    (c.reload files).2 = c ∧ (c.reload files).1.message = failure files c.source := by
  unfold failure
  cases hread : files.read? c.source with
  | none =>
    rw [reload_of_no_text (text?_reload_eq_none_iff.2 (.inr hread)), if_neg hsource]
    exact ⟨rfl, rfl⟩
  | some text =>
    rw [reload_of_text (text?_reload_eq_some_iff.2 ⟨hsource, hread⟩)] at h ⊢
    cases hload : (c.load text).1 with
    | false => exact ⟨load_of_refused hload, rfl⟩
    | true =>
      rw [hload] at h
      cases h

/-- Settings are reloaded just if there is a text whose lines make settings. -/
theorem reload_succeeded_iff (hsource : c.source ≠ []) :
    (c.reload files).1.succeeded = true ↔
      ∃ text ms, files.read? c.source = some text ∧ Describes text ms ∧ WellFormed ms := by
  constructor
  · intro h
    obtain ⟨text, sections, hread, hsections⟩ := exists_sections_of_reload h
    have hms : Describes text ((Text.lines text).map ofLine) := describes_iff.2 rfl
    refine ⟨text, _, hread, hms, (c.load_describes hms).1.1 ?_⟩
    rw [load_eq, hsections]
    rfl
  · rintro ⟨text, ms, hread, hms, hwell⟩
    rw [reload_of_text (text?_reload_eq_some_iff.2 ⟨hsource, hread⟩),
      if_pos ((c.load_describes hms).1.2 hwell)]
    rfl

theorem holds_of_ofText? (h : Describes text ms) {sections : Sections}
    (hsections : Sections.ofText? text = some sections) (source : Bytes) :
    (Configuration.mk sections source).Holds ms := by
  have hload := load_eq ⟨.empty, source⟩ text
  rw [hsections] at hload
  have hholds := (Configuration.load_describes ⟨.empty, source⟩ h).2
  rw [hload] at hholds
  exact hholds rfl

end Configuration

namespace Services

open Repl.Configuration IniLine

variable {s : Services} {files : Files} {subscribers : List Log.Subscriber}
  {path text : Bytes} {sections : Sections} {ms : List IniLine} {i : Nat} (now : Log.Timestamp)

/-! ## New services -/

/-- New services among files, with subscribers to their log. -/
def watched (subscribers : List Log.Subscriber) (files : Files) : Services :=
  { new (.ofFiles files .unlimited) with logger := subscribers.foldl Log.Logger.subscribe .new }

/-- The log of the services, with the places that it writes to. -/
def desk (s : Services) : Log.Desk :=
  ⟨s.logger, s.channels⟩

theorem foldl_subscribe (l : Log.Logger) (subscribers : List Log.Subscriber) :
    subscribers.foldl Log.Logger.subscribe l =
      { l with subscribers := l.subscribers ++ subscribers } := by
  induction subscribers generalizing l with
  | nil =>
    rw [List.append_nil]
    rfl
  | cons first others ih =>
    rw [List.foldl_cons, ih, Log.Logger.subscribe, List.append_assoc]
    rfl

theorem watched_logger (subscribers : List Log.Subscriber) (files : Files) :
    (watched subscribers files).logger = { Log.Logger.new with subscribers } :=
  foldl_subscribe .new subscribers

theorem watched_subscribers (subscribers : List Log.Subscriber) (files : Files) :
    (watched subscribers files).logger.subscribers = subscribers :=
  congrArg Log.Logger.subscribers (watched_logger subscribers files)

theorem after_subscribe (d : Log.Desk) (subscribers : List Log.Subscriber) :
    d.after (subscribers.map .subscribe) =
      ⟨subscribers.foldl Log.Logger.subscribe d.logger, d.channels⟩ := by
  induction subscribers generalizing d with
  | nil => rfl
  | cons first others ih => exact ih (d.use (.subscribe first))

theorem watched_desk (subscribers : List Log.Subscriber) (files : Files) :
    (watched subscribers files).desk =
      (Log.Desk.new files).after (subscribers.map .subscribe) :=
  (after_subscribe (.new files) subscribers).symm

theorem watched_stands (subscribers : List Log.Subscriber) (files : Files) :
    (watched subscribers files).logger.Stands .info true none := by
  have hnew := Log.Logger.stands_new
  rw [watched_logger]
  exact ⟨hnew.levels, hnew.fallback, hnew.console, hnew.file⟩

/-- New services let an entry through unless its level is `debug`. -/
theorem watched_admits_iff (subscribers : List Log.Subscriber) (files : Files)
    (e : Log.Entry) :
    (watched subscribers files).logger.admits e = true ↔ e.level ≠ .debug := by
  rw [Log.Logger.admits, (watched_stands subscribers files).level_eq]
  cases e.level <;> decide

/-! ## What is reported -/

/-- The entry about settings that could not be loaded. -/
def loadFailed (reason : Bytes) : Log.Entry :=
  ⟨.error, category, ascii "Config load: " ++ reason⟩

/-- The entry about a level that does not exist. -/
def unknownLevel (value : Bytes) : Log.Entry :=
  ⟨.warning, category, ascii "Ignoring unknown log level '" ++ value ++ ascii "'."⟩

def initialized : Log.Entry :=
  ⟨.debug, category, ascii "Core initialized."⟩

/-- The subscriber with the number records, and no other one keeps entries from it. -/
def Reaches (s : Services) (i : Nat) : Prop :=
  (Log.Subscriber.audience s.logger.subscribers)[i]? = some .recording

theorem log_received (hi : s.Reaches i) (e : Log.Entry) :
    (s.log now e).desk.received i =
      s.desk.received i ++ if s.logger.admits e then [e] else [] := by
  have hlogged := s.desk.received_log i now e
  have hthere : (Log.Subscriber.audience s.desk.logger.subscribers)[i]? = some .recording := hi
  simp only [hthere, and_true] at hlogged
  exact hlogged

theorem log_of_not_admits {e : Log.Entry} (h : ¬s.logger.admits e = true) : s.log now e = s := by
  rw [log, Log.Logger.log_of_not_admits h]

/-- Applying the level reports one that does not exist, and nothing else. -/
theorem applyLevel_received (hi : s.Reaches i)
    (hadmits : ∀ value, s.logger.admits (unknownLevel value) = true) :
    (s.applyLevel now).desk.received i = s.desk.received i ++
      ((s.setting "level").filter fun value => (Log.Level.ofName? value).isNone).toList.map
        unknownLevel := by
  unfold applyLevel
  cases s.setting "level" with
  | none => exact (List.append_nil _).symm
  | some value =>
    rw [Option.filter_some]
    dsimp only
    cases Log.Level.ofName? value with
    | some level => exact (List.append_nil _).symm
    | none =>
      have hlog := log_received now hi (unknownLevel value)
      rw [if_pos (hadmits value)] at hlog
      exact hlog

theorem applyConsole_received : s.applyConsole.desk.received i = s.desk.received i := by
  unfold applyConsole
  cases s.setting "console" with
  | none | some value => rfl

theorem applyFile_received : s.applyFile.desk.received i = s.desk.received i := by
  unfold applyFile
  match s.setting "file" with
  | none => rfl
  | some [] => rfl
  | some (b :: rest) =>
    exact congrArg (fun notices => (notices.filter (·.subscriber = i)).map Notice.entry)
      (s.desk.use_openFile_notices (b :: rest))

theorem applyLevel_subscribers : (s.applyLevel now).logger.subscribers = s.logger.subscribers := by
  unfold applyLevel
  cases s.setting "level" with
  | none => rfl
  | some value =>
    dsimp only
    cases Log.Level.ofName? value with
    | none => rfl
    | some level =>
      show (s.logger.setLevel Log.defaultCategory level).subscribers = _
      rw [Log.Logger.setLevel_eq]

theorem applyConsole_subscribers : s.applyConsole.logger.subscribers = s.logger.subscribers := by
  unfold applyConsole
  cases s.setting "console" with
  | none | some value => rfl

theorem applyFile_subscribers : s.applyFile.logger.subscribers = s.logger.subscribers := by
  unfold applyFile
  match s.setting "file" with
  | none => rfl
  | some [] => rfl
  | some (b :: rest) =>
    show (s.logger.openFile (b :: rest) s.channels).2.1.subscribers = _
    rw [Log.Logger.openFile_logger]

theorem reaches_of_caught (hsame : s.logger.subscribers = subscribers)
    (hcaught : .escaping ∉ subscribers) (hi : subscribers[i]? = some .recording) :
    s.Reaches i := by
  rwa [Reaches, hsame, Log.Subscriber.audience_eq_self hcaught]

/-- Every subscriber that records has received the entries, and no others. -/
def Reports (s : Services) (subscribers : List Log.Subscriber) (entries : List Log.Entry) : Prop :=
  ∀ i, subscribers[i]? = some .recording → s.desk.received i = entries

/-! ## Starting with settings -/

/-- Services that have taken the settings that the lines make. Besides, they have only reported a
level that does not exist, or, at the level that shows it, that they were started. -/
structure SettledBy (s : Services) (files : Files) (ms : List IniLine)
    (subscribers : List Log.Subscriber) : Prop where
  setting : ∀ key value,
    s.setting key = some value ↔ LastPair ms sectionName (ascii key) value
  named : ∀ value (level : Log.Level), s.setting "level" = some value → level.NamedBy value →
    ∀ category, s.logger.level category = level
  unnamed : (∀ value (level : Log.Level), s.setting "level" = some value → ¬level.NamedBy value) →
    ∀ category, s.logger.level category = .info
  console : s.logger.console = false ↔
    ∃ value, s.setting "console" = some value ∧ Text.toLower value = ascii "false"
  file : ∀ file, s.logger.file = some file ↔
    s.setting "file" = some file ∧ file ≠ [] ∧ files.writable file = true
  unknown : ∀ value, s.setting "level" = some value → (∀ level : Log.Level, ¬level.NamedBy value) →
    s.Reports subscribers [unknownLevel value]
  known : (∀ value, s.setting "level" = some value → ∃ level : Log.Level, level.NamedBy value) →
    s.Reports subscribers (if s.logger.level category = .debug then [initialized] else [])

/-- Applies settings, whatever the settings were before. -/
def settle (c : Configuration) (s : Services) : Services :=
  (applyLevel now { s with configuration := c }).applyConsole.applyFile

theorem settle_configuration (c : Configuration) (s : Services) :
    (s.settle now c).configuration = c :=
  applySettings_configuration now

theorem settle_stands (c : Configuration) (h : s.logger.Stands .info true none) :
    (s.settle now c).logger.Stands (c.level?.getD .info) (c.console?.getD true)
      (c.logFile? s.channels.files) :=
  applySettings_stands now (s := { s with configuration := c }) h

theorem settle_subscribers (c : Configuration) (s : Services) :
    (s.settle now c).logger.subscribers = s.logger.subscribers := by
  rw [settle, applyFile_subscribers, applyConsole_subscribers, applyLevel_subscribers]

/-- Applying settings reports a level that does not exist, and nothing else. -/
theorem settle_received (c : Configuration) (hi : s.Reaches i)
    (hadmits : ∀ value, s.logger.admits (unknownLevel value) = true) :
    (s.settle now c).desk.received i = s.desk.received i ++
      ((c.get? sectionName (ascii "level")).filter fun value =>
        (Log.Level.ofName? value).isNone).toList.map unknownLevel := by
  rw [settle, applyFile_received, applyConsole_received]
  exact applyLevel_received now hi hadmits

/-- The load of settings that succeeds is not reported: new services are too quiet for that. -/
theorem watched_start_of_loaded (hread : files.read? path = some text)
    (hsections : Sections.ofText? text = some sections) :
    (watched subscribers files).start now path =
      (true, Services.log now initialized
        { (watched subscribers files).settle now ⟨sections, path⟩ with started := true }) := by
  have hquiet : (watched subscribers files).loadSettings now path =
      (true, { watched subscribers files with configuration := ⟨sections, path⟩ }) := by
    rw [loadSettings_eq now hread hsections]
    refine congrArg (Prod.mk true) (log_of_not_admits now ?_)
    exact fun h => (watched_admits_iff subscribers files _).1 h rfl
  exact start_eq now rfl ((if_neg (Files.ne_nil_of_read? hread)).trans hquiet)

theorem admits_initialized_iff : s.logger.admits initialized = true ↔
    s.logger.level category = .debug := by
  show (s.logger.level category).admits .debug = true ↔ _
  cases s.logger.level category <;> decide

theorem level?_eq_some_iff {level : Log.Level} : s.configuration.level? = some level ↔
    ∃ value, s.setting "level" = some value ∧ level.NamedBy value := by
  rw [level?, Option.bind_eq_some_iff]
  exact exists_congr fun value => and_congr_right' Log.Level.ofName?_eq_some_iff

theorem level?_eq_none_iff : s.configuration.level? = none ↔
    ∀ value (level : Log.Level), s.setting "level" = some value → ¬level.NamedBy value := by
  rw [Option.eq_none_iff_forall_ne_some]
  simp only [ne_eq, level?_eq_some_iff, not_exists, not_and]
  exact forall_comm

theorem console?_getD_eq_false_iff : s.configuration.console?.getD true = false ↔
    ∃ value, s.setting "console" = some value ∧ Text.toLower value = ascii "false" := by
  show ((s.setting "console").map fun value => Text.toLower value != ascii "false").getD true =
    false ↔ _
  cases s.setting "console" with
  | none => simp
  | some value => simp

theorem logFile?_eq_some_iff {file : Bytes} : s.configuration.logFile? files = some file ↔
    s.setting "file" = some file ∧ file ≠ [] ∧ files.writable file = true := by
  rw [logFile?, Option.filter_eq_some_iff, and_iff_right_of_imp Files.ne_nil_of_writable]
  rfl

/-- The logger is as the settings want it, and the reports are those of applying them. -/
theorem settledBy_of_stands (hholds : s.configuration.Holds ms)
    (hstands : s.logger.Stands (s.configuration.level?.getD .info)
      (s.configuration.console?.getD true) (s.configuration.logFile? files))
    (hreports : s.Reports subscribers
      (((s.setting "level").filter fun value => (Log.Level.ofName? value).isNone).toList.map
        unknownLevel ++ if s.logger.level category = .debug then [initialized] else [])) :
    s.SettledBy files ms subscribers where
  setting key value := get?_eq_some_iff.trans hholds.get_eq_ok_iff
  named value level hvalue hnamed category := by
    rw [hstands.level_eq, level?_eq_some_iff.2 ⟨value, hvalue, hnamed⟩, Option.getD_some]
  unnamed hunnamed category := by
    rw [hstands.level_eq, level?_eq_none_iff.2 hunnamed, Option.getD_none]
  console := by rw [hstands.console, console?_getD_eq_false_iff]
  file file := by rw [hstands.file, logFile?_eq_some_iff]
  unknown value hvalue hunknown := by
    have hlevel : s.configuration.level? = none := by
      rw [level?_eq_none_iff, hvalue]
      rintro other level ⟨⟩
      exact hunknown level
    rw [hvalue, Option.filter_some, Log.Level.ofName?_eq_none_iff.2 hunknown, hstands.level_eq,
      hlevel] at hreports
    exact hreports
  known hknown := by
    cases hvalue : s.setting "level" with
    | none =>
      rw [hvalue] at hreports
      exact hreports
    | some value =>
      obtain ⟨level, hnamed⟩ := hknown value hvalue
      rw [hvalue, Option.filter_some, Log.Level.ofName?_eq_some_iff.2 hnamed] at hreports
      exact hreports

theorem settledBy_of_loaded (hcaught : .escaping ∉ subscribers)
    (hread : files.read? path = some text) (hsections : Sections.ofText? text = some sections)
    (hms : Describes text ms) :
    ((watched subscribers files).start now path).2.SettledBy files ms subscribers := by
  have hstands := watched_stands subscribers files
  -- The level is still that of a new log when it is reported that another does not exist.
  have hadmits (value : Bytes) :=
    (watched_admits_iff subscribers files (unknownLevel value)).2 nofun
  obtain ⟨settled, hsettled⟩ : ∃ settled,
      (watched subscribers files).settle now ⟨sections, path⟩ = settled := ⟨_, rfl⟩
  have hconfiguration := settle_configuration now ⟨sections, path⟩ (watched subscribers files)
  have hleft := settle_stands now ⟨sections, path⟩ hstands
  have hthere := settle_subscribers now ⟨sections, path⟩ (watched subscribers files)
  rw [watched_start_of_loaded now hread hsections, hsettled]
  rw [hsettled] at hconfiguration hleft hthere
  rw [← hconfiguration] at hleft
  refine settledBy_of_stands ?_ hleft fun i hi => ?_
  · show settled.configuration.Holds ms
    rw [hconfiguration]
    exact holds_of_ofText? hms hsections path
  · have hsubscribers := watched_subscribers subscribers files
    have hreceived := settle_received now ⟨sections, path⟩
      (reaches_of_caught hsubscribers hcaught hi) hadmits
    rw [hsettled, ← hconfiguration] at hreceived
    have hlogged := log_received (s := { settled with started := true }) now
      (reaches_of_caught (hthere.trans hsubscribers) hcaught hi) initialized
    refine hlogged.trans (congrArg₂ (· ++ ·) hreceived ?_)
    simp only [admits_initialized_iff]
    rfl

/-! ## Starting without settings -/

/-- Services that could not load settings from the path: everything is as in new services, and all
that was reported, once and to everyone, is that the load failed. -/
structure Unsettled (s : Services) (files : Files) (subscribers : List Log.Subscriber)
    (now : Log.Timestamp) (path : Bytes) : Prop where
  level : ∀ category, s.logger.level category = .info
  console : s.logger.console = true
  file : s.logger.file = none
  values : ∀ name key, s.configuration.get? name key = none
  prompts : s.prompts = .standard
  delivered : Log.Desk.Delivered files (subscribers.map .subscribe) subscribers now
    (loadFailed (failure files path)) (watched subscribers files).desk s.desk
  reports : s.Reports subscribers [loadFailed (failure files path)]

/-- Services without values take nothing from them. -/
theorem applySettings_of_empty (h : s.configuration.sections = .empty) :
    (s.applyLevel now).applyConsole.applyFile = s := by
  obtain ⟨logger, ⟨sections, source⟩, started, channels⟩ := s
  cases h
  rfl

theorem watched_start_of_failed (hpath : path ≠ [])
    (hfailed : ((Configuration.mk .empty path).reload files).1.succeeded = false) :
    (watched subscribers files).start now path =
      (false, Services.log now (loadFailed (failure files path))
        { watched subscribers files with configuration := ⟨.empty, path⟩, started := true }) := by
  have hload : (watched subscribers files).loadSettings now path =
      (false, Services.log now (loadFailed (failure files path))
        { watched subscribers files with configuration := ⟨.empty, path⟩ }) := by
    obtain ⟨hsame, hmessage⟩ := reload_of_failed (c := ⟨.empty, path⟩) hpath hfailed
    have hreload : ((watched subscribers files).configuration.setSource path).reload
        (watched subscribers files).channels.files =
          (Configuration.mk .empty path).reload files := rfl
    rw [loadSettings, hreload]
    generalize (Configuration.mk .empty path).reload files = reloaded at *
    dsimp only
    rw [hfailed, hsame, hmessage]
    rfl
  -- Nothing was loaded, so there is nothing to apply.
  rw [start_eq now rfl ((if_neg hpath).trans hload), applySettings_of_empty now rfl]
  refine congrArg (Prod.mk false) (log_of_not_admits now ?_)
  exact fun h => (watched_admits_iff subscribers files _).1 h rfl

/-- What becomes of an entry that new services let through. -/
theorem watched_delivered (files : Files) {e : Log.Entry} (he : e.level ≠ .debug)
    (hcaught : .escaping ∉ subscribers) :
    Log.Desk.Delivered files (subscribers.map .subscribe) subscribers now e
      (watched subscribers files).desk ((watched subscribers files).desk.use (.log now e)) := by
  have hfollows := Log.Logger.follows_after files (subscribers.map .subscribe)
  have hkept := Log.Desk.kept_after files (subscribers.map .subscribe)
  have haudience : Log.Subscriber.audience (Log.History.subscribers (subscribers.map .subscribe)) =
      subscribers := by
    rw [← hfollows.subscribers, ← watched_desk]
    exact (congrArg _ (watched_subscribers subscribers files)).trans
      (Log.Subscriber.audience_eq_self hcaught)
  rw [← watched_desk] at hfollows hkept
  have hdelivered := hkept.delivered hfollows rfl
    ((hfollows.admits_iff e).1 ((watched_admits_iff subscribers files e).2 he)) now
  rwa [haudience] at hdelivered

theorem unsettled_of_failed (hcaught : .escaping ∉ subscribers) (hpath : path ≠ [])
    (hfailed : ((Configuration.mk .empty path).reload files).1.succeeded = false) :
    ((watched subscribers files).start now path).2.Unsettled files subscribers now path := by
  have hstands := watched_stands subscribers files
  have hlevel : (loadFailed (failure files path)).level ≠ .debug := nofun
  rw [watched_start_of_failed now hpath hfailed]
  refine ⟨hstands.level_eq, hstands.console, hstands.file, fun _ _ => rfl, rfl,
    watched_delivered now files hlevel hcaught, fun i hi => ?_⟩
  have hreaches := reaches_of_caught (watched_subscribers subscribers files) hcaught hi
  have hlogged := log_received now hreaches (loadFailed (failure files path))
  rw [if_pos ((watched_admits_iff subscribers files _).2 hlevel)] at hlogged
  exact hlogged

/-! ## The first start -/

/-- New services, with a log from which nothing escapes, are started with the settings of a path,
and say that this succeeded just if there is a text to read that is well-formed. Then they take
their level, the switch of their console and their log file from it, as far as it sets them. If not,
they are as new ones, and have said once that they found no settings, and why. -/
theorem first_start (files : Files) (subscribers : List Log.Subscriber) (now : Log.Timestamp)
    (path : Bytes) (hcaught : .escaping ∉ subscribers) (hpath : path ≠ []) :
    let result := (watched subscribers files).start now path
    result.2.started = true ∧
      (result.1 = true ↔
        ∃ text ms, files.read? path = some text ∧ Describes text ms ∧ WellFormed ms) ∧
      (result.1 = true → ∀ text ms, files.read? path = some text → Describes text ms →
        result.2.SettledBy files ms subscribers) ∧
      (result.1 = false → result.2.Unsettled files subscribers now path) := by
  intro result
  have hiff : ((Configuration.mk .empty path).reload files).1.succeeded = true ↔ _ :=
    reload_succeeded_iff hpath
  cases hloaded : ((Configuration.mk .empty path).reload files).1.succeeded with
  | false =>
    have hresult : result = _ := watched_start_of_failed now hpath hloaded
    rw [hloaded] at hiff
    refine ⟨?_, ?_, ?_, fun _ => unsettled_of_failed now hcaught hpath hloaded⟩
    · rw [hresult]
      rfl
    · rw [hresult]
      exact hiff
    · rw [hresult]
      exact nofun
  | true =>
    obtain ⟨text, sections, hread, hsections⟩ := exists_sections_of_reload hloaded
    have hresult : result = _ := watched_start_of_loaded now hread hsections
    rw [hloaded] at hiff
    refine ⟨?_, ?_, fun _ other ms hother hms => ?_, ?_⟩
    · rw [hresult]
      rfl
    · rw [hresult]
      exact hiff
    · cases hother.symm.trans hread
      exact settledBy_of_loaded now hcaught hread hsections hms
    · rw [hresult]
      exact nofun

/-- A file whose level does not exist. -/
def loudFiles : Files :=
  Files.empty.write (ascii "a.ini") (ascii "[Logging]\nlevel = loud\nfile = a.log\n")

theorem first_start_loud :
    let loaded := (watched [.recording] loudFiles).start ⟨0⟩ (ascii "a.ini")
    let failed := (watched [.recording] loudFiles).start ⟨0⟩ (ascii "b.ini")
    (loaded.1 = true ∧ loaded.2.logger.file = some (ascii "a.log") ∧
        loaded.2.Reports [.recording] [unknownLevel (ascii "loud")]) ∧
      failed.1 = false ∧ failed.2.Reports [.recording]
        [loadFailed (ascii "Failed to open configuration file: b.ini")] := by
  intro loaded failed
  have ⟨_, _, hsettled, _⟩ :=
    first_start loudFiles [.recording] ⟨0⟩ (ascii "a.ini") (by decide) (List.cons_ne_nil _ _)
  have ⟨_, _, _, hunsettled⟩ :=
    first_start loudFiles [.recording] ⟨0⟩ (ascii "b.ini") (by decide) (List.cons_ne_nil _ _)
  have hloaded : loaded.1 = true := by decide
  have hfailed : failed.1 = false := by decide
  have hsettled := hsettled hloaded _ _ rfl (describes_iff.2 rfl)
  have hunknown := Log.Level.ofName?_eq_none_iff.1 (rfl : Log.Level.ofName? (ascii "loud") = none)
  exact ⟨⟨hloaded, (hsettled.file _).2 (by decide), hsettled.unknown _ rfl hunknown⟩, hfailed,
    (hunsettled hfailed).reports⟩

end Services

end Repl
