import Mathlib.Data.List.TakeWhile
import Repl.Text.Bytes

/-! The lines of a text, told by its newlines. -/

namespace Repl

theorem mem_concat_iff {α : Type} {l : List α} {a b : α} : a ∈ l ++ [b] ↔ a ∈ l ∨ a = b := by
  rw [List.mem_append, List.mem_singleton]

theorem concat_eq_append_cons_iff {α : Type} {l before after : List α} {a b : α} :
    l ++ [a] = before ++ b :: after ↔
      (l = before ∧ a = b ∧ after = []) ∨
        ∃ front, after = front ++ [a] ∧ l = before ++ b :: front := by
  constructor
  · intro h
    rcases List.eq_nil_or_concat after with rfl | ⟨front, last, rfl⟩
    · obtain ⟨hl, ha⟩ := List.append_inj' h rfl
      exact .inl ⟨hl, List.head_eq_of_cons_eq ha, rfl⟩
    · rw [List.concat_eq_append, ← List.cons_append, ← List.append_assoc] at h
      obtain ⟨hl, ha⟩ := List.append_inj' h rfl
      rw [List.concat_eq_append, List.head_eq_of_cons_eq ha]
      exact .inr ⟨front, rfl, hl⟩
  · rintro (⟨rfl, rfl, rfl⟩ | ⟨front, rfl, rfl⟩)
    · rfl
    · rw [List.append_assoc, List.cons_append]

theorem filterMap_concat {α β : Type} (f : β → Option α) (l : List β) (b : β) :
    (l ++ [b]).filterMap f = l.filterMap f ++ (f b).toList := by
  rw [List.filterMap_append]
  cases h : f b with
  | none => rw [List.filterMap_cons_none h]; rfl
  | some a => rw [List.filterMap_cons_some h]; rfl

namespace Text

/-! ## Up to the first separator -/

variable {c : UInt8} {before : Bytes}

theorem forall_ne_of_not_mem (h : c ∉ before) : ∀ b ∈ before, decide (b ≠ c) = true :=
  fun _ hb => decide_eq_true (ne_of_mem_of_not_mem hb h)

theorem takeWhile_ne_append (h : c ∉ before) (after : Bytes) :
    (before ++ c :: after).takeWhile (· ≠ c) = before := by
  rw [List.takeWhile_append_of_pos (forall_ne_of_not_mem h)]
  simp

theorem dropWhile_ne_append (h : c ∉ before) (after : Bytes) :
    (before ++ c :: after).dropWhile (· ≠ c) = c :: after := by
  rw [List.dropWhile_append_of_pos (forall_ne_of_not_mem h)]
  simp

theorem takeWhile_ne_of_not_mem (h : c ∉ before) : before.takeWhile (· ≠ c) = before :=
  List.takeWhile_eq_self_iff.2 (forall_ne_of_not_mem h)

theorem dropWhile_ne_of_not_mem (h : c ∉ before) : before.dropWhile (· ≠ c) = [] :=
  List.dropWhile_eq_nil_iff.2 (forall_ne_of_not_mem h)

/-! ## Lines -/

/-- Each newline ends a line, and what stands after the last one is a line unless it is empty. -/
inductive HasLines : Bytes → List Bytes → Prop where
  | empty : HasLines [] []
  | unterminated {line : Bytes} (hline : Ascii.newline ∉ line) (hne : line ≠ []) :
    HasLines line [line]
  | terminated {line rest : Bytes} {others : List Bytes} (hline : Ascii.newline ∉ line)
    (hrest : HasLines rest others) : HasLines (line ++ Ascii.newline :: rest) (line :: others)

theorem lines_append_newline {line : Bytes} (h : Ascii.newline ∉ line) (rest : Bytes) :
    lines (line ++ Ascii.newline :: rest) = line :: lines rest := by
  induction line with
  | nil => rw [List.nil_append, lines, if_pos rfl]
  | cons b line ih =>
    have hb := List.ne_of_not_mem_cons h
    rw [List.cons_append, lines, if_neg hb.symm, ih (List.not_mem_of_not_mem_cons h)]

theorem lines_of_not_mem {line : Bytes} (h : Ascii.newline ∉ line) (hne : line ≠ []) :
    lines line = [line] := by
  induction line with
  | nil => exact absurd rfl hne
  | cons b line ih =>
    have hb := List.ne_of_not_mem_cons h
    rw [lines, if_neg hb.symm]
    by_cases hempty : line = []
    · rw [hempty]
      rfl
    · rw [ih (List.not_mem_of_not_mem_cons h) hempty]

theorem HasLines.eq_lines {text : Bytes} {ls : List Bytes} (h : HasLines text ls) :
    ls = lines text := by
  induction h with
  | empty => rfl
  | unterminated hline hne => rw [lines_of_not_mem hline hne]
  | terminated hline _ ih => rw [lines_append_newline hline, ih]

theorem hasLines_lines (text : Bytes) : HasLines text (lines text) := by
  induction text with
  | nil => exact .empty
  | cons b rest ih =>
    unfold lines
    by_cases hb : b = Ascii.newline
    · rw [if_pos hb, hb]
      show HasLines ([] ++ Ascii.newline :: rest) ([] :: lines rest)
      exact .terminated List.not_mem_nil ih
    · rw [if_neg hb]
      -- The byte stands in front of the first line of the rest.
      generalize hls : lines rest = ls at ih
      cases ih with
      | empty => exact .unterminated (by simpa using Ne.symm hb) (List.cons_ne_nil _ _)
      | unterminated hline _ =>
        have hlonger := List.not_mem_cons_of_ne_of_not_mem (Ne.symm hb) hline
        exact .unterminated hlonger (List.cons_ne_nil _ _)
      | @terminated line rest others hline hrest =>
        have hlonger := List.not_mem_cons_of_ne_of_not_mem (Ne.symm hb) hline
        show HasLines ((b :: line) ++ Ascii.newline :: rest) ((b :: line) :: others)
        exact .terminated hlonger hrest

theorem hasLines_iff {text : Bytes} {ls : List Bytes} : HasLines text ls ↔ ls = lines text := by
  constructor
  · exact HasLines.eq_lines
  · rintro rfl
    exact hasLines_lines text

theorem hasLines_flatMap {ls : List Bytes} (h : ∀ line ∈ ls, Ascii.newline ∉ line) :
    HasLines (ls.flatMap withNewline) ls := by
  induction ls with
  | nil => exact .empty
  | cons line ls ih =>
    have hline := h line List.mem_cons_self
    have hrest := ih fun other hother => h other (List.mem_cons_of_mem _ hother)
    rw [List.flatMap_cons, withNewline, List.append_assoc, List.singleton_append]
    exact .terminated hline hrest

/-- A text without its last newline has the same lines, as long as none of them is empty. -/
theorem HasLines.of_concat {text : Bytes} {ls : List Bytes}
    (h : HasLines (text ++ [Ascii.newline]) ls) (hne : ∀ line ∈ ls, line ≠ []) :
    HasLines text ls := by
  generalize hwhole : text ++ [Ascii.newline] = whole at h
  induction h generalizing text with
  | empty => simp at hwhole
  | unterminated hline _ =>
    subst hwhole
    exact absurd (List.mem_append_right _ List.mem_cons_self) hline
  | @terminated line rest others hline hrest ih =>
    obtain ⟨rfl, -, rfl⟩ | ⟨front, rfl, rfl⟩ := concat_eq_append_cons_iff.1 hwhole
    · rw [hasLines_iff.1 hrest]
      exact .unterminated hline (hne _ List.mem_cons_self)
    · exact .terminated hline (ih (fun other h => hne other (List.mem_cons_of_mem _ h)) rfl)

end Text

end Repl
