import Repl.Proofs.Session.Cycle

/-!
Scripts end, so a bench whose terminal reads from a script keeps to its patience. What holds of
sessions on any terminal that runs out then holds of every session on the bench.
-/

namespace Repl.Bench

open Terminal

def HasScript (b : Bench) : Prop :=
  ∃ entries, b.terminal.source = .script entries

theorem patience_eq {b : Bench} {entries : List ScriptEntry}
    (h : b.terminal.source = .script entries) : patience b = entries.length := by
  show b.terminal.patience = entries.length
  rw [Scripted.patience, h]

theorem within_hasScript_iff {n : Nat} {b : Bench} :
    Within HasScript n b ↔ ∃ entries, b.terminal.source = .script entries ∧ entries.length < n := by
  constructor
  · rintro ⟨⟨entries, h⟩, hlt⟩
    exact ⟨entries, h, patience_eq h ▸ hlt⟩
  · rintro ⟨entries, h, hlt⟩
    exact ⟨⟨entries, h⟩, patience_eq h ▸ hlt⟩

/-- A read takes the first entry off the script. -/
theorem source_readLine {b : Bench} {entries : List ScriptEntry}
    (h : b.terminal.source = .script entries) :
    (readLine b).2.terminal.source = .script entries.tail := by
  show (b.terminal.readLine).2.source = .script entries.tail
  rw [Scripted.readLine, h]
  cases entries with
  | nil => exact h
  | cons entry rest => cases entry <;> rfl

theorem readLine_nil {b : Bench} (h : b.terminal.source = .script []) :
    (readLine b).1 = .error (ascii "no more lines") := by
  show (b.terminal.readLine).1 = _
  rw [Scripted.readLine, h]

theorem supply : Host.Supply HasScript where
  closed n :=
    { print := fun _ _ hb => hb
      readLine := by
        intro b hb
        obtain ⟨entries, h, hlt⟩ := within_hasScript_iff.1 hb
        refine within_hasScript_iff.2 ⟨entries.tail, source_readLine h, ?_⟩
        rw [List.length_tail]
        omega }
  spend := by
    intro n b line hb hline
    obtain ⟨entries, h, hlt⟩ := within_hasScript_iff.1 hb
    refine within_hasScript_iff.2 ⟨entries.tail, source_readLine h, ?_⟩
    cases entries with
    | nil =>
      rw [readLine_nil h] at hline
      cases hline
    | cons entry rest => exact Nat.lt_of_succ_lt_succ hlt
  log _ _ _ hb := hb

theorem hasScript_closed : Host.Closed HasScript where
  print _ _ hb := hb
  readLine b hb := by
    obtain ⟨entries, h⟩ := hb
    exact ⟨_, source_readLine h⟩
  log _ _ hb := hb

/-- What the terminal of the bench gives, as a reply of the bench. -/
def reply {α : Type} (b : Bench) (given : Reply Call Scripted α) : Reply Call Bench α :=
  ⟨given.outcome, given.events, { b with terminal := given.state }⟩

theorem printFor_eq (purpose : Purpose) (text : Bytes) (b : Bench) :
    printFor purpose text b = b.reply (printFor purpose text b.terminal) := by
  rw [printFor_apply, printFor_apply]
  rfl

theorem nextLine_eq (b : Bench) : nextLine b = b.reply (nextLine b.terminal) := by
  rw [nextLine_apply, nextLine_apply]
  rfl

section

variable (purpose : Purpose) {text : Bytes} (source : Source) {rules : List PrintRule} {prints : Nat}
  (logger : Option Log.Logger)

/-- A print that no rule is about succeeds. -/
theorem printFor_of_none (h : rules.find? (·.applies text prints) = none) :
    printFor purpose text (⟨⟨source, rules, prints⟩, logger⟩ : Bench) =
      ⟨.ok (), [⟨purpose, .printed text⟩], ⟨⟨source, rules, prints + 1⟩, logger⟩⟩ := by
  have hprint : print text (⟨source, rules, prints⟩ : Scripted) =
      (.ok (), ⟨source, rules, prints + 1⟩) := by
    show Scripted.print text _ = _
    rw [Scripted.print, h]
  rw [printFor_eq, printFor, hprint]
  rfl

/-- The first rule that is about a print makes it fail. -/
theorem printFor_of_some {rule : PrintRule} (h : rules.find? (·.applies text prints) = some rule) :
    printFor purpose text (⟨⟨source, rules, prints⟩, logger⟩ : Bench) =
      ⟨.error rule.message, [⟨purpose, .printFailed text rule.message⟩],
        ⟨⟨source, rules, prints + 1⟩, logger⟩⟩ := by
  have hprint : print text (⟨source, rules, prints⟩ : Scripted) =
      (.error rule.message, ⟨source, rules, prints + 1⟩) := by
    show Scripted.print text _ = _
    rw [Scripted.print, h]
  rw [printFor_eq, printFor, hprint]
  rfl

/-- What is read depends on the source alone. -/
theorem exists_nextLine : ∃ outcome i source', ∀ rules prints logger,
    nextLine (⟨⟨source, rules, prints⟩, logger⟩ : Bench) =
      ⟨outcome, [⟨.line, i⟩], ⟨⟨source', rules, prints⟩, logger⟩⟩ := by
  match source with
  | .blank => exact ⟨_, _, _, fun _ _ _ => rfl⟩
  | .script [] => exact ⟨_, _, _, fun _ _ _ => rfl⟩
  | .script (.line text :: rest) => exact ⟨_, _, _, fun _ _ _ => rfl⟩
  | .script (.failure message :: rest) => exact ⟨_, _, _, fun _ _ _ => rfl⟩

end

/-- On the bench every session goes by the results of its commands, from any script, print rules
and context. Sessions that a command runs are `run app` again, so it holds of those as well. -/
theorem session_followsOutcomes {κ γ : Type} (app : Application κ γ) (script : List ScriptEntry)
    (rules : List PrintRule) (prints : Nat) (logger : Option Log.Logger) (context : γ)
    (flag : RunFlag) :
    Transcript.FollowsOutcomes app.prompts
      (Session.run (ω := Bench) app
        ⟨⟨⟨.script script, rules, prints⟩, logger⟩, context, flag⟩).events := by
  apply Session.run_followsOutcomes supply app
  exact ⟨script, rfl⟩

end Repl.Bench
