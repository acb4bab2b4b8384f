import Repl.Proofs.Calculator.Startup
import Repl.Proofs.Session.Pairing

/-!
What settings of the log can do to the calculator's output. As long as they keep it off the console
they do nothing: of all settings, only the prompts show.
-/

namespace Repl.Calculator

namespace Process

/-- The processes have written the same to standard output, and keep their logs off it. -/
structure Alike (p q : Process) : Prop where
  input : q.input = p.input
  hushed : ∃ stdout, p.services.Hushed stdout ∧ q.services.Hushed stdout

theorem pairs : Host.Pairs Alike where
  print text h := by
    obtain ⟨hinput, stdout, hp, hq⟩ := h
    rw [print_eq, print_eq, hp.stdout, hq.stdout]
    exact ⟨rfl, hinput, _, ⟨⟨hp.logFile, rfl⟩, hp.console⟩, ⟨⟨hq.logFile, rfl⟩, hq.console⟩⟩
  readLine h := by
    obtain ⟨hinput, hhushed⟩ := h
    rw [readLine_eq, readLine_eq, hinput]
    exact ⟨rfl, rfl, hhushed⟩
  log entry h := by
    obtain ⟨hinput, stdout, hp, hq⟩ := h
    rw [log_eq, log_eq]
    exact ⟨hinput, stdout, hp.log _ entry, hq.log _ entry⟩

end Process

variable {r : Registry Command} {l l' : Launch} {s s' : Services} {stdout : Sink}

theorem session_of_hushed (hs : s.Hushed stdout) (hs' : s'.Hushed stdout)
    (hprompts : s'.prompts = s.prompts) (hinput : l'.sessionInput = l.sessionInput) :
    (session r l' s').outcome = (session r l s).outcome ∧
      Process.Alike (session r l s).state.host (session r l' s').state.host := by
  have halike : Process.Alike ⟨s, .ofBytes l.sessionInput, l.now⟩
      ⟨s', .ofBytes l'.sessionInput, l'.now⟩ :=
    ⟨congrArg InputStream.ofBytes hinput, stdout, hs, hs'⟩
  unfold session
  rw [hprompts]
  exact Session.run_of_pairs Process.supply Process.pairs _ trivial trivial halike

/-- Sessions with the same prompts and input show the same on the same standard output, if their
logs stay off the console. -/
theorem runSession_of_hushed (hs : s.Hushed stdout) (hs' : s'.Hushed stdout)
    (hprompts : s'.prompts = s.prompts) (hinput : l'.sessionInput = l.sessionInput) :
    (runSession r l' s').channels.stdout = (runSession r l s).channels.stdout ∧
      (runSession r l' s').exitCode = (runSession r l s).exitCode := by
  obtain ⟨houtcome, -, shown, hended, hended'⟩ := session_of_hushed (r := r) hs hs' hprompts hinput
  rw [runSession_stdout, runSession_stdout, runSession_exitCode, runSession_exitCode, houtcome]
  exact ⟨(hended'.stop l'.now).stdout.trans (hended.stop l.now).stdout.symm, rfl⟩

theorem prompts_of_get?_eq {c c' : Configuration}
    (h : ∀ key ∈ [ascii "applied", ascii "skipped", ascii "erred"],
      c'.get? Prompts.sectionName key = c.get? Prompts.sectionName key) :
    Prompts.ofConfiguration c' = .ofConfiguration c := by
  simp only [List.forall_mem_cons] at h
  obtain ⟨happlied, hskipped, herred, -⟩ := h
  simp only [Prompts.ofConfiguration, Configuration.getOr, happlied, hskipped, herred]

/-- Settings that log as much as there is, to a file. -/
def verboseSettings : Bytes :=
  ascii "[Prompts]\nerred = ?\n[Logging]\nlevel = debug\nconsole = False\nfile = calc.log\n"

/-- Settings that name no level, and no file that can be opened. -/
def brokenSettings : Bytes :=
  ascii "[Logging]\nlevel = loud\nconsole = FALSE\nfile = no/calc.log\n[Prompts]\nerred = ?\n"

/-- A launch that divides by zero, with settings from a file. -/
def dividing (settings : Bytes) : Launch where
  arguments := [ascii "calc.ini"]
  input := ascii "add 1\ndivide 0\nquit\n"
  files := Files.empty.write (ascii "calc.ini") settings
  stdout := .unlimited
  now := ⟨0⟩

end Repl.Calculator
