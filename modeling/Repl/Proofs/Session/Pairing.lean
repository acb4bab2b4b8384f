import Repl.Proofs.Session.Alignment

/-!
Sessions on a pair of hosts. If prints and reads give the same on both and keep them a pair, and log
entries keep them one too, wherever these go, then sessions end the same on both and leave a pair.
-/

namespace Repl

open Terminal

variable {ω κ γ α : Type} {R : ω → ω → Prop}

/-- Hosts that are related give the same for prints and reads. What their logs do with an entry may
differ. -/
structure Host.Pairs [Host ω] (R : ω → ω → Prop) : Prop where
  print : ∀ {h h'} text, R h h' →
    (Terminal.print text h').1 = (Terminal.print text h).1 ∧
      R (Terminal.print text h).2 (Terminal.print text h').2
  readLine : ∀ {h h'}, R h h' →
    (Terminal.readLine h').1 = (Terminal.readLine h).1 ∧
      R (Terminal.readLine h).2 (Terminal.readLine h').2
  log : ∀ {h h'} entry, R h h' → R (Host.log entry h).2 (Host.log entry h').2

/-- Two sessions on related hosts. They never part, and since their logs may let different entries
through, nothing is said of their events. -/
def paired (R : ω → ω → Prop) : Alignment ω Unit where
  Hosts _ := R
  Events _ _ _ _ := True
  Parted _ _ := False

namespace Host.Pairs

theorem composes : (paired R).Composes where
  nil _ := trivial
  append _ _ := trivial
  nested _ := trivial
  applied _ _ _ := trivial
  parted_append h _ := h
  append_parted _ h := h
  parted_nested h := h

variable [Host ω] {h h' : ω} {event : Call → Event}

theorem prints (hR : Host.Pairs R) : (paired R).Prints := by
  intro _ h h' event purpose text _ hh
  have ⟨hsame, hafter⟩ := hR.print text hh
  rw [printFor_apply, printFor_apply]
  exact .inl ⟨hsame, trivial, hafter⟩

theorem nextLine_alike (hR : Host.Pairs R) (hh : R h h') :
    (paired R).Alike event () (nextLine h) (nextLine h') () := by
  have ⟨hsame, hafter⟩ := hR.readLine hh
  rw [nextLine_apply, nextLine_apply]
  exact ⟨hsame, trivial, hafter⟩

theorem lawful (hR : Host.Pairs R) : (paired R).Lawful where
  toComposes := composes
  print := hR.prints
  line _ _ _ _ _ hh := .inl ⟨(), hR.nextLine_alike hh⟩
  round := by
    intro α _ h h' event prompt parse hevent hh
    have hround := composes.goes_askOnce hR.prints hevent
      (fun hh => .inl ⟨(), hR.nextLine_alike hh⟩) prompt parse hh
    cases hround with
    | inl halike => exact .inl halike
    | inr hbreaks => exact hbreaks.events.elim
  log entry hh := ⟨trivial, hR.log entry hh⟩

end Host.Pairs

/-- On related hosts a session ends the same, and leaves related ones. -/
theorem Session.run_of_pairs [Host ω] {P : ω → Prop} (hP : Host.Supply P) (hR : Host.Pairs R)
    (app : Application κ γ) {h h' : ω} {context : γ} (hhost : P h) (hhost' : P h') (hh : R h h') :
    (run app (.start h' context)).outcome = (run app (.start h context)).outcome ∧
      R (run app (.start h context)).state.host (run app (.start h' context)).state.host := by
  have hstates : (paired R).States () (State.start h context) (.start h' context) := ⟨hh, rfl, rfl⟩
  cases run_follows hP hR.lawful app hhost hhost' hstates with
  | inl hfollows =>
    obtain ⟨_, _, rfl, houtcome, -, hafter⟩ := hfollows
    exact ⟨houtcome, hafter.hosts⟩
  | inr hparted => exact hparted.elim

end Repl
