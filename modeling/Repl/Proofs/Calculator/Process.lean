import Repl.Calculator.Program
import Repl.Proofs.Services
import Repl.Proofs.Session.Feeding
import Repl.Proofs.Session.LookAhead

/-!
The calculator's process as the host of a session. It is fed the lines of its input, and it cannot
tell apart two inputs until it has read the lines that they share.
-/

namespace Repl.Calculator.Process

open Terminal

variable {p q : Process} {k : Nat} {lines : List Bytes}

/-! ## The parts of the host -/

theorem print_eq (text : Bytes) (p : Process) :
    Terminal.print text p =
      ((p.services.channels.stdout.print text).1,
        { p with
          services.channels.stdout := (p.services.channels.stdout.print text).2 }) :=
  rfl

theorem readLine_eq (p : Process) :
    Terminal.readLine p = (p.input.readLine.1, { p with input := p.input.readLine.2 }) :=
  rfl

theorem log_eq (e : Log.Entry) (p : Process) :
    Host.log e p =
      (p.services.logger.admits e, { p with services := p.services.log p.now e }) :=
  rfl

theorem supply : Host.Supply fun _ : Process => True where
  closed n :=
    { print := fun _ _ hp => hp
      readLine := fun p hp =>
        ⟨trivial, Nat.lt_of_le_of_lt p.input.length_rest_readLine.1 hp.2⟩ }
  spend := by
    intro n p line hp hline
    have hshorter := p.input.length_rest_readLine.2 line hline
    exact ⟨trivial, Nat.lt_of_lt_of_le hshorter (Nat.lt_succ_iff.1 hp.2)⟩
  log _ _ _ hp := hp

/-! ## Lines -/

/-- The process has the lines before it, and can print. -/
structure Given (lines : List Bytes) (p : Process) : Prop where
  input : p.input.Gives lines
  services : p.services.Roomy

theorem feeds : Host.Feeds Given (ascii "end of input stream") where
  print text hp :=
    have ⟨hprinted, hroomy⟩ := Sink.Unlimited.print hp.services text
    ⟨hprinted, hp.input, hroomy⟩
  line hp :=
    have ⟨hline, hothers⟩ := hp.input.readLine_cons
    ⟨hline, hothers, hp.services⟩
  ended hp :=
    have ⟨hended, hafter⟩ := hp.input.readLine_nil
    ⟨hended, hafter, hp.services⟩
  log entry hp := ⟨hp.input, Services.log_roomy _ entry hp.services⟩

/-- The processes have written the same, and the next `k` lines before them are the same. -/
structure Agree (k : Nat) (p q : Process) : Prop where
  services : q.services = p.services
  now : q.now = p.now
  input : ∃ shared others others', shared.length = k ∧ p.input.Gives (shared ++ others) ∧
    q.input.Gives (shared ++ others')

theorem agree : Host.Agree Agree where
  print text h := by
    obtain ⟨hservices, hnow, hinput⟩ := h
    rw [print_eq, print_eq, hservices, hnow]
    exact ⟨rfl, rfl, rfl, hinput⟩
  readLine h := by
    obtain ⟨hservices, hnow, shared, others, others', hlength, hp, hq⟩ := h
    cases shared with
    | nil => cases hlength
    | cons line shared =>
      have ⟨hline, hafter⟩ := hp.readLine_cons
      have ⟨hline', hafter'⟩ := hq.readLine_cons
      rw [readLine_eq, readLine_eq]
      exact ⟨hline'.trans hline.symm, hservices, hnow, shared, others, others',
        Nat.succ.inj hlength, hafter, hafter'⟩
  log entry h := by
    obtain ⟨hservices, hnow, hinput⟩ := h
    rw [log_eq, log_eq, hservices, hnow]
    exact ⟨rfl, rfl, rfl, hinput⟩

end Repl.Calculator.Process
