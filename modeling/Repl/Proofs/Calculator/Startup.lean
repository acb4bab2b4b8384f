import Repl.Proofs.Calculator.Quitting
import Repl.Proofs.Services.Console

/-!
How the calculator starts. If its settings turn the console off, or if there are none, nothing shows
on standard output before the session begins, and nothing of the log does after, unless the settings
name standard output as the log file.
-/

namespace Repl

namespace Calculator

/-- The launch has the settings, and they keep the log off the console: there are none at all, or
they are those of a file that turn it off. -/
inductive Launch.Quiet (l : Launch) : Configuration → Prop where
  | unset (hpath : l.settingsPath = []) : Quiet l .empty
  | loaded {text : Bytes} {sections : Sections}
    (hread : l.files.read? l.settingsPath = some text)
    (hsections : Sections.ofText? text = some sections)
    (hconsole : (Configuration.mk sections l.settingsPath).TurnsOffConsole) :
    Quiet l ⟨sections, l.settingsPath⟩

/-- Standard input and output are left to the session: the settings are not read from there, and the
log is not written there by way of its file. -/
structure Launch.SparesStreams (l : Launch) : Prop extends l.SparesInput where
  output : l.settings.logStream? l.files ≠ some .output

variable {l : Launch} {c : Configuration}

/-- The services that a launch starts with. -/
abbrev Launch.services (l : Launch) : Services :=
  .new (.ofFiles l.files l.stdout)

theorem startServices_eq (l : Launch) :
    startServices l =
      let started := l.services.start l.now l.settingsPath
      Services.prepareSession <|
        if started.1 then started.2
        else complain (ascii "Could not load configuration; using defaults.") started.2 :=
  rfl

theorem Launch.settings_of_loaded {text : Bytes} {sections : Sections}
    (hread : l.files.read? l.settingsPath = some text)
    (hsections : Sections.ofText? text = some sections) :
    l.settings = ⟨sections, l.settingsPath⟩ := by
  have hload : (Configuration.empty.setSource l.settingsPath).load text =
      (true, ⟨sections, l.settingsPath⟩) := by
    rw [Configuration.load, hsections]
    rfl
  have hpath : (Configuration.empty.setSource l.settingsPath).source ≠ [] :=
    Files.ne_nil_of_read? hread
  have hsource : l.files.read? (Configuration.empty.setSource l.settingsPath).source = some text :=
    hread
  rw [Launch.settings, Configuration.ofFile, Configuration.reload, if_neg hpath, hsource]
  dsimp only
  rw [hload]

theorem prepareSession_of_quiet (h : l.Quiet c) {s : Services} {stdout : Sink}
    (hs : s.configuration = c) (haside : s.Aside stdout) : s.prepareSession.Hushed stdout := by
  cases h with
  | unset _ => exact Services.prepareSession_of_unset hs haside
  | loaded _ _ hconsole => exact Services.prepareSession_of_turnsOffConsole (hs ▸ hconsole) haside

/-- The services are hushed when the session begins, and standard output is as it was at first. -/
theorem startServices_of_quiet (h : l.Quiet c) (hspares : l.SparesStreams) :
    (startServices l).Hushed l.stdout ∧ (startServices l).configuration = c := by
  have ⟨haside, hconfiguration⟩ :
      (l.services.start l.now l.settingsPath).2.Aside l.stdout ∧
        (l.services.start l.now l.settingsPath).2.configuration = c := by
    cases h with
    | unset hpath =>
      rw [hpath]
      exact Services.start_of_unset l.now (.ofFiles l.files l.stdout)
    | loaded hread hsections hconsole =>
      have hlog := hspares.output
      rw [Launch.settings_of_loaded hread hsections] at hlog
      exact Services.start_of_loaded l.now (.ofFiles l.files l.stdout) hread hsections hconsole hlog
  rw [startServices_eq]
  generalize l.services.start l.now l.settingsPath = started at haside hconfiguration ⊢
  obtain ⟨loaded, s⟩ := started
  -- A failure to load would only be told on standard error.
  cases loaded with
  | true => exact ⟨prepareSession_of_quiet h hconfiguration haside, hconfiguration⟩
  | false =>
    have htold : (complain (ascii "Could not load configuration; using defaults.") s).Aside
        l.stdout := ⟨haside.logFile, haside.stdout⟩
    exact ⟨prepareSession_of_quiet h hconfiguration htold, hconfiguration⟩

/-- A launch on a system where standard output has a name, with settings that log there. -/
def loggingToOutput : Launch where
  arguments := [ascii "calc.ini"]
  input := []
  files :=
    { Files.empty.write (ascii "calc.ini")
        (ascii "[Logging]\nlevel = debug\nconsole = false\nfile = out\n") with
      resolve := fun path => if path = ascii "out" then .stream .output none else .file path }
  stdout := .unlimited
  now := ⟨0⟩

/-- Settings that turn off the console do not hush a log whose file is standard output. -/
example : loggingToOutput.Quiet (startServices loggingToOutput).configuration ∧
    (startServices loggingToOutput).channels.stdout.written =
      ascii "[1970-01-01 00:00:00] [DEBUG] [Core] Core initialized.\n" := by
  refine ⟨.loaded rfl (Option.eq_some_of_isSome (by decide +kernel)) (by decide +kernel), ?_⟩
  decide +kernel

/-! ## The session -/

variable {r : Registry Command}

theorem run_of_ok (hr : registration.outcome = .ok r) (l : Launch) :
    run l = runSession r l ((startServices l).logAll l.now registration.entries) := by
  unfold run
  unfold registration at hr ⊢
  generalize Registry.register (parsers.map some) = registration at hr ⊢
  dsimp only
  rw [hr]

/-- What is said of a session that failed goes to standard error. -/
theorem runSession_stdout (r : Registry Command) (l : Launch) (s : Services) :
    (runSession r l s).channels.stdout =
      ((session r l s).state.host.services.stop l.now).channels.stdout := by
  cases hresult : (session r l s).outcome with
  | ok _ => rw [runSession_of_ok hresult]
  | error message =>
    rw [runSession_of_error hresult]
    rfl

theorem runSession_exitCode (r : Registry Command) (l : Launch) (s : Services) :
    (runSession r l s).exitCode = if (session r l s).outcome.isOk then 0 else 1 := by
  cases hresult : (session r l s).outcome with
  | ok _ =>
    rw [runSession_of_ok hresult]
    rfl
  | error message =>
    rw [runSession_of_error hresult]
    rfl

end Calculator

end Repl
