import Mathlib.Data.List.DropRight

/-!
Lists without what stands at their ends. Elements that satisfy a predicate are taken off at both
ends, up to the first one and from the last one on that do not.
-/

namespace Repl

variable {α : Type} {p : α → Bool} {front back l : List α} {a : α}

/-- The list without the elements at both ends that satisfy the predicate. -/
abbrev stripped (p : α → Bool) (l : List α) : List α :=
  (l.dropWhile p).rdropWhile p

theorem exists_append_stripped (p : α → Bool) (l : List α) : ∃ front back,
    l = front ++ stripped p l ++ back ∧ (∀ a ∈ front, p a = true) ∧ ∀ a ∈ back, p a = true := by
  refine ⟨l.takeWhile p, (l.dropWhile p).rtakeWhile p, ?_, fun a => List.mem_takeWhile_imp,
    fun a => List.mem_rtakeWhile_imp⟩
  rw [List.append_assoc, List.rdropWhile_append_rtakeWhile, List.takeWhile_append_dropWhile]

theorem head?_stripped (h : (stripped p l).head? = some a) : p a = false := by
  obtain ⟨back, hback⟩ := List.rdropWhile_prefix p (l.dropWhile p)
  have hhead : (l.dropWhile p).head? = some a := by
    rw [← hback, List.head?_append]
    exact Option.or_eq_some_iff.2 (.inl h)
  have hnot := List.head?_dropWhile_not p l
  rw [hhead] at hnot
  exact hnot

theorem getLast?_stripped (h : (stripped p l).getLast? = some a) : p a = false := by
  have hne : stripped p l ≠ [] := by
    intro hnil
    rw [hnil] at h
    cases h
  have hnot := List.rdropWhile_last_not p (l.dropWhile p) hne
  rw [List.getLast?_eq_some_getLast hne] at h
  cases h
  exact Bool.eq_false_iff.2 hnot

theorem stripped_eq_self_iff :
    stripped p l = l ↔ (∀ a ∈ l.head?, p a = false) ∧ ∀ a ∈ l.getLast?, p a = false := by
  constructor
  · intro h
    rw [← h]
    exact ⟨fun a => head?_stripped, fun a => getLast?_stripped⟩
  · rintro ⟨hhead, hlast⟩
    have hdrop : l.dropWhile p = l := by
      cases l with
      | nil => rfl
      | cons a l => exact List.dropWhile_cons_of_neg (Bool.eq_false_iff.1 (hhead a rfl))
    rw [stripped, hdrop, List.rdropWhile_eq_self_iff]
    intro hne
    rw [hlast _ (List.getLast?_eq_some_getLast hne)]
    exact Bool.false_ne_true

theorem stripped_stripped (p : α → Bool) (l : List α) : stripped p (stripped p l) = stripped p l :=
  stripped_eq_self_iff.2 ⟨fun _ => head?_stripped, fun _ => getLast?_stripped⟩

/-- What is put at the ends and satisfies the predicate is taken off again. -/
theorem stripped_append (hfront : ∀ a ∈ front, p a = true) (hback : ∀ a ∈ back, p a = true)
    (l : List α) : stripped p (front ++ l ++ back) = stripped p l := by
  have hlast (l : List α) : (l ++ back).rdropWhile p = l.rdropWhile p := by
    rw [List.rdropWhile, List.reverse_append,
      List.dropWhile_append_of_pos fun a ha => hback a (List.mem_reverse.1 ha)]
    rfl
  rw [stripped, List.append_assoc, List.dropWhile_append_of_pos hfront, List.dropWhile_append]
  split
  · rename_i hempty
    rw [stripped, List.isEmpty_iff.1 hempty, List.dropWhile_eq_nil_iff.2 hback]
  · exact hlast (l.dropWhile p)

end Repl
