import Repl.Command.Help
import Repl.Proofs.Command.Resolution

/-!
The order in which parsers are registered. It decides their positions in the table, and which of
several errors is reported; what users get from the registry does not depend on it.
-/

namespace Repl

variable {κ : Type} {parsers others : List (Option (Parser κ))}

theorem allKeys_perm (h : parsers.Perm others) : (allKeys parsers).Perm (allKeys others) := by
  unfold allKeys
  exact (h.filterMap _).append (h.filterMap _)

/-- What a list must be like to make a registry does not speak of its order. -/
theorem Registrable.perm (hr : Registrable parsers) (h : parsers.Perm others) :
    Registrable others where
  present hnone := hr.present (h.mem_iff.2 hnone)
  examples p hp := hr.examples p (h.mem_iff.2 hp)
  names p hp := hr.names p (h.mem_iff.2 hp)
  keys := (allKeys_perm h).nodup_iff.1 hr.keys

namespace Registry

variable {r r' : Registry κ}

/-- The key may stand for other positions, but it stands for the same parser. -/
theorem Sound.find?_eq_of_perm (hr : r.Sound) (hr' : r'.Sound) (h : r.parsers.Perm r'.parsers)
    (key : Bytes) : r.find? key = r'.find? key := by
  apply Option.ext
  intro p
  rw [hr.find?_eq_some_iff, hr'.find?_eq_some_iff, h.mem_iff]

theorem Sound.parse_eq_of_perm (hr : r.Sound) (hr' : r'.Sound) (h : r.parsers.Perm r'.parsers)
    (line : Bytes) : r.parse line = r'.parse line := by
  unfold parse
  cases CommandLine.ofLine? line with
  | none => rfl
  | some split =>
    dsimp only
    rw [hr.find?_eq_of_perm hr' h]

/-- The listings hold the same parsers, and names leave no choice of their order. -/
theorem Sound.sorted_eq_of_perm (hr : r.Sound) (hr' : r'.Sound) (h : r.parsers.Perm r'.parsers) :
    r.sorted = r'.sorted := by
  have hperm : r.sorted.Perm r'.sorted := hr.sorted_perm.trans (h.trans hr'.sorted_perm.symm)
  refine hperm.eq_of_pairwise ?_ hr.sorted_pairwise hr'.sorted_pairwise
  intro p q _ _ hlt hgt
  exact absurd (List.lt_trans hlt hgt) (List.lt_irrefl p.name)

/-- Of two lists of the same parsers both make a registry or neither does. The two registries give
every line the same answer, list the same parsers in the same order, and have the same help. -/
theorem register_order_irrelevant (h : parsers.Perm others) :
    ((∃ r, (register parsers).outcome = .ok r) ↔ ∃ r', (register others).outcome = .ok r') ∧
      ∀ r r', (register parsers).outcome = .ok r → (register others).outcome = .ok r' →
        (∀ line, r.parse line = r'.parse line) ∧ r.sorted = r'.sorted ∧
          HelpTable.render r.helpEntries = HelpTable.render r'.helpEntries := by
  constructor
  · rw [register, register, sound_empty.addAll_ok_iff, sound_empty.addAll_ok_iff]
    exact ⟨fun hr => hr.perm h, fun hr => hr.perm h.symm⟩
  · intro r r' hok hok'
    have hr := sound_of_register hok
    have hr' := sound_of_register hok'
    have hperm : r.parsers.Perm r'.parsers := by
      apply (List.map_perm_map_iff fun _ _ => Option.some.inj).1
      rwa [parsers_of_register hok, parsers_of_register hok']
    have hsorted := hr.sorted_eq_of_perm hr' hperm
    refine ⟨hr.parse_eq_of_perm hr' hperm, hsorted, ?_⟩
    rw [helpEntries, helpEntries, hsorted]

/-- Two registries of the same parsers list them alike, with the same key at different positions. -/
theorem swapped_parsers_listed_alike :
    let save := some (plain (ascii "save") (some (ascii "s")))
    let load := some (plain (ascii "load") none)
    [save, load].Perm [load, save] ∧
      ∃ r r', (register [save, load]).outcome = .ok r ∧ (register [load, save]).outcome = .ok r' ∧
        r.table.find? (ascii "s") = some 0 ∧ r'.table.find? (ascii "s") = some 1 ∧
        r.parse (ascii "s now") = r'.parse (ascii "s now") ∧ r.sorted = r'.sorted ∧
        HelpTable.render r.helpEntries = HelpTable.render r'.helpEntries := by
  intro save load
  have hperm : [save, load].Perm [load, save] := .swap load save []
  have hok : (register [save, load]).outcome = .ok _ := rfl
  have hok' : (register [load, save]).outcome = .ok _ := rfl
  obtain ⟨hparse, hsorted, hhelp⟩ := (register_order_irrelevant hperm).2 _ _ hok hok'
  exact ⟨hperm, _, _, hok, hok', rfl, rfl, hparse _, hsorted, hhelp⟩

/-- The error may be another one: the first parser that cannot be added is reported. -/
example :
    (register [some (plain [] none), none]).outcome = .error (.key (.shortName [])) ∧
      (register [none, some (plain [] none)]).outcome = .error (.missingParser 0) :=
  ⟨rfl, rfl⟩

end Registry

end Repl
