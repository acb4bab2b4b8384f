import Repl.Proofs.Configuration.RoundTrip
import Repl.Proofs.Services.Starting
import Repl.Proofs.Text.Trimmed

/-!
The setting of the console and its two readers. Preparing a session reads it in either case and
without the white space around it. Starting reads it in either case too, but with its white space: a
quoted `false` between spaces does not turn the console off.
-/

namespace Repl.Services

open Repl.Configuration IniLine

variable {s : Services} {v : Bytes} {word : String} (now : Log.Timestamp) (path : Bytes)

/-- The text says the word, in either case and with white space around it. -/
def Says (text : Bytes) (word : String) : Prop :=
  Text.toLower (Text.trim text) = ascii word

instance (text : Bytes) (word : String) : Decidable (Says text word) :=
  inferInstanceAs (Decidable (_ = _))

/-- A word of letters is said without white space just if there is none to trim. -/
theorem toLower_eq_iff_says (hword : (ascii word).all Text.isSmallLetter = true) :
    Text.toLower v = ascii word ↔ Says v word ∧ Text.hasExcessWhiteSpace v = false := by
  rw [Says, Text.hasExcessWhiteSpace_eq_false_iff]
  constructor
  · intro h
    have htrim : Text.trim v = v := by
      apply Text.trim_eq_self_of_letters
      rw [h]
      exact hword
    exact ⟨by rw [htrim, h], htrim⟩
  · rintro ⟨h, htrim⟩
    rwa [htrim] at h

/-! ## The two readers -/

theorem prepareSession_console_iff (h : s.setting "console" = some v) :
    s.prepareSession.logger.console = true ↔ Says v "true" := by
  show (s.setting "console").any _ = true ↔ _
  rw [h, Option.any_some, beq_iff_eq, Says]

/-- Whatever else the settings do, a start leaves the console as the stored text has it. -/
theorem start_console_iff (hstopped : s.started = false)
    (hstored : (s.start now path).2.setting "console" = some v) :
    (s.start now path).2.logger.console = false ↔ Text.toLower v = ascii "false" := by
  obtain ⟨settled, -, -, hlogger, hconfiguration, -⟩ := exists_settled now path hstopped
  have hsetting : (settled.applyLevel now).setting "console" = some v := by
    rw [setting, applyLevel_configuration, ← hconfiguration]
    exact hstored
  rw [hlogger, applyFile_console, applyConsole_console_eq hsetting, bne_eq_false_iff_eq]

/-! ## The stored text -/

/-- The text of a file that sets the console to a value, in quotes. -/
def quotedSetting (value : Bytes) : Bytes :=
  ascii "[Logging]\nconsole = \"" ++ value ++ ascii "\"\n"

/-- The listing that the file is written from. -/
def consoleListing (value : Bytes) : Listing :=
  [(sectionName, [(ascii "console", value)])]

theorem write_consoleListing (value : Bytes) :
    (consoleListing value).write = quotedSetting value := by
  have hfront : Text.withNewline (Listing.headerLine sectionName) ++ ascii "console" ++
      ascii " = \"" = ascii "[Logging]\nconsole = \"" := rfl
  have hback : ascii "\"" ++ [Ascii.newline] = ascii "\"\n" := rfl
  rw [quotedSetting, ← hfront, ← hback]
  simp [consoleListing, Listing.write, Listing.lines, Listing.pairLine, Text.withNewline]

theorem writable_consoleListing (h : Ascii.newline ∉ v) : (consoleListing v).Writable where
  names := by
    have hname : Listing.IsName sectionName := by decide
    rw [consoleListing, List.forall_mem_singleton]
    exact hname
  keys := by
    have hkey : Listing.IsKey (ascii "console") := by decide
    rw [consoleListing, List.forall_mem_singleton, List.forall_mem_singleton]
    exact hkey
  values := by
    rw [consoleListing, List.forall_mem_singleton, List.forall_mem_singleton]
    exact h
  distinctNames := List.nodup_singleton _
  distinctKeys := by
    rw [consoleListing, List.forall_mem_singleton]
    exact List.nodup_singleton _

/-- Quotes keep the value as it is, so that every text on one line can be stored. -/
theorem start_setting_of_quoted (hstopped : s.started = false) (hline : Ascii.newline ∉ v)
    (hread : s.channels.files.read? path = some (quotedSetting v)) :
    (s.start now path).2.setting "console" = some v := by
  have hwritable := writable_consoleListing hline
  have hdescribes : Describes (quotedSetting v) (consoleListing v).meanings :=
    hwritable.describes (.inl (write_consoleListing v).symm)
  have hloads := (Configuration.empty.load_describes hdescribes).1.2 hwritable.wellFormed_meanings
  obtain ⟨sections, hsections⟩ : ∃ sections, Sections.ofText? (quotedSetting v) = some sections := by
    rw [load_eq] at hloads
    exact Option.isSome_iff_exists.1 hloads
  have hconfiguration := (start_configuration now path hstopped hread hsections).2
  have hholds := holds_of_ofText? hdescribes hsections path
  rw [setting, hconfiguration, get?_eq_some_iff, hholds.get_eq_ok_iff, hwritable.lastPair_iff]
  exact ⟨_, List.mem_singleton_self _, List.mem_singleton_self _⟩

/-! ## Both readers -/

/-- What becomes of a text that is stored as the setting of the console. Any text on one line can be
stored, its white space included, by services with a log from which nothing escapes. The session
takes log entries just if the text says `true`, in either case and with any white space around it. A
start turns the console off just if the text is `false` in either case. So both leave it on if the
text says `true`. If it says `false`, the session leaves it off, but the start only if there is no
white space to trim. -/
theorem console_setting_heard (v : Bytes) :
    (Ascii.newline ∉ v → ∀ (s : Services) (now : Log.Timestamp) (path : Bytes),
      .escaping ∉ s.logger.subscribers → s.started = false →
      s.channels.files.read? path = some (quotedSetting v) →
        (s.start now path).2.setting "console" = some v) ∧
    (∀ s : Services, s.setting "console" = some v →
      (s.prepareSession.logger.console = true ↔ Says v "true")) ∧
    ∀ (s : Services) (now : Log.Timestamp) (path : Bytes), .escaping ∉ s.logger.subscribers →
      s.started = false →
      let started := (s.start now path).2
      started.setting "console" = some v →
        (started.logger.console = false ↔ Text.toLower v = ascii "false") ∧
        (Says v "true" →
          started.logger.console = true ∧ started.prepareSession.logger.console = true) ∧
        (Says v "false" → started.prepareSession.logger.console = false ∧
          (started.logger.console = false ↔ Text.hasExcessWhiteSpace v = false)) := by
  refine ⟨fun hline s now path _ hstopped => start_setting_of_quoted now path hstopped hline,
    fun s => prepareSession_console_iff, fun s now path _ hstopped => ?_⟩
  intro started hstored
  have hstart : started.logger.console = false ↔ Text.toLower v = ascii "false" :=
    start_console_iff now path hstopped hstored
  have hsession := prepareSession_console_iff hstored
  have hsays : Text.toLower v = ascii "false" ↔ Says v "false" ∧ Text.hasExcessWhiteSpace v = false :=
    toLower_eq_iff_says (by decide)
  -- No text says both words.
  have hone : Says v "true" → ¬Says v "false" := fun htrue hfalse =>
    absurd (htrue.symm.trans hfalse) (by decide)
  refine ⟨hstart, fun htrue => ⟨?_, hsession.2 htrue⟩, fun hfalse => ⟨?_, ?_⟩⟩
  · rw [← Bool.not_eq_false, hstart, hsays]
    exact fun hfalse => hone htrue hfalse.1
  · rw [← Bool.not_eq_true, hsession]
    exact fun htrue => hone htrue hfalse
  · rw [hstart, hsays, and_iff_right hfalse]

/-- Files with the words between spaces. -/
def spacedFiles : Channels :=
  .ofFiles ((Files.empty.write (ascii "a.ini") (quotedSetting (ascii " TRUE "))).write
    (ascii "b.ini") (quotedSetting (ascii " false "))) .unlimited

theorem spaced_true_heard :
    let started := ((new spacedFiles).start ⟨0⟩ (ascii "a.ini")).2
    started.setting "console" = some (ascii " TRUE ") ∧ started.logger.console = true ∧
      started.prepareSession.logger.console = true := by
  intro started
  obtain ⟨hstores, -, hread⟩ := console_setting_heard (ascii " TRUE ")
  have hcaught : .escaping ∉ (new spacedFiles).logger.subscribers := List.not_mem_nil
  have hstored := hstores (by decide) (new spacedFiles) ⟨0⟩ (ascii "a.ini") hcaught rfl (by decide)
  obtain ⟨-, htrue, -⟩ := hread (new spacedFiles) ⟨0⟩ (ascii "a.ini") hcaught rfl hstored
  obtain ⟨hon, hprepared⟩ := htrue (by decide)
  exact ⟨hstored, hon, hprepared⟩

/-- The text says `false`, and still the console is on after the start. -/
theorem spaced_false_leaves_console_on :
    let started := ((new spacedFiles).start ⟨0⟩ (ascii "b.ini")).2
    started.setting "console" = some (ascii " false ") ∧ Says (ascii " false ") "false" ∧
      started.logger.console = true ∧ started.prepareSession.logger.console = false := by
  decide

end Repl.Services
