import Mathlib.Data.List.Basic
import Repl.Text.Trim

/-!
What trimming leaves as it is. A character that is cut off by the end of a text decodes as it does
when a byte comes after it that continues nothing, so what is appended to a trimmed text does not
change its front.
-/

namespace Repl.Text

variable {b c lead : UInt8} {s : Bytes}

/-! ## Only the ends -/

theorem trimStartAfter_suffix (skip : Nat) (s : Bytes) : trimStartAfter skip s <:+ s := by
  induction s generalizing skip with
  | nil => exact List.suffix_refl []
  | cons b rest ih =>
    cases skip with
    | succ skip => exact (ih skip).trans (List.suffix_cons b rest)
    | zero =>
      rw [trimStartAfter]
      split
      · exact (ih _).trans (List.suffix_cons b rest)
      · exact List.suffix_refl _

theorem trimStart_suffix_self (s : Bytes) : trimStart s <:+ s :=
  trimStartAfter_suffix 0 s

theorem trimEndBefore_prefix_append (tail before : Bytes) :
    trimEndBefore tail before <+: before.reverse ++ tail := by
  induction before generalizing tail with
  | nil => exact List.prefix_refl tail
  | cons b before ih =>
    rw [List.reverse_cons, List.append_assoc, List.singleton_append, trimEndBefore]
    split
    · exact ih (b :: tail)
    split
    · refine (ih []).trans ?_
      rw [List.append_nil]
      exact List.prefix_append _ _
    · exact List.prefix_refl _

theorem trimEnd_prefix_self (s : Bytes) : trimEnd s <+: s := by
  have h := trimEndBefore_prefix_append [] s.reverse
  rwa [List.reverse_reverse, List.append_nil] at h

theorem trim_isInfix_self (s : Bytes) : trim s <:+: s :=
  (trimEnd_prefix_self _).isInfix.trans (trimStart_suffix_self s).isInfix

theorem toLower_trim_isInfix (s : Bytes) : toLower (trim s) <:+: toLower s :=
  (trim_isInfix_self s).map lowerByte

/-- A trimmed text is trimmed at both ends. -/
theorem trim_eq_self_iff : trim s = s ↔ trimStart s = s ∧ trimEnd s = s := by
  constructor
  · intro h
    have hstart : trimStart s = s := by
      refine (trimStart_suffix_self s).eq_of_length_le ?_
      calc s.length = (trim s).length := by rw [h]
        _ ≤ (trimStart s).length := (trimEnd_prefix_self _).length_le
    rw [trim, hstart] at h
    exact ⟨hstart, h⟩
  · rintro ⟨hstart, hend⟩
    rw [trim, hstart, hend]

theorem hasExcessWhiteSpace_eq_false_iff : hasExcessWhiteSpace s = false ↔ trim s = s := by
  rw [hasExcessWhiteSpace, bne_eq_false_iff_eq]

/-! ## The first character -/

theorem continueValue_append (hc : isContinuation c = false) (value n : Nat) (front back : Bytes) :
    continueValue value n (front ++ c :: back) = continueValue value n front := by
  induction n generalizing value front with
  | zero => rw [continueValue, continueValue]
  | succ n ih =>
    cases front with
    | nil => rw [List.nil_append, continueValue, continueValue, hc, if_neg Bool.false_ne_true]
    | cons b front =>
      rw [List.cons_append, continueValue, continueValue]
      split
      · exact ih _ front
      · rfl

theorem decode_append (hc : isContinuation c = false) (lead : UInt8) (front back : Bytes) :
    decode lead (front ++ c :: back) = decode lead front := by
  simp only [decode, decodeSequence, continueValue_append hc]

theorem trimStart_cons_eq_self_iff {rest : Bytes} :
    trimStart (lead :: rest) = lead :: rest ↔
      isWhiteSpace (decode lead rest).codePoint = false := by
  rw [trimStart, trimStartAfter]
  cases isWhiteSpace (decode lead rest).codePoint with
  | false => simp
  | true =>
    rw [if_pos rfl]
    refine iff_of_false (fun h => ?_) nofun
    have hlength := (trimStartAfter_suffix ((decode lead rest).length - 1) rest).length_le
    rw [h, List.length_cons] at hlength
    omega

/-- What is appended to a text does not reach the front of it, if it continues no character. -/
theorem trimStart_append (hne : s ≠ []) (hs : trimStart s = s) (hc : isContinuation c = false)
    (back : Bytes) : trimStart (s ++ c :: back) = s ++ c :: back := by
  cases s with
  | nil => exact absurd rfl hne
  | cons lead front =>
    rw [List.cons_append, trimStart_cons_eq_self_iff, decode_append hc]
    exact trimStart_cons_eq_self_iff.1 hs

theorem trimStart_space_cons (s : Bytes) : trimStart (Ascii.space :: s) = trimStart s :=
  rfl

/-! ## The last character -/

theorem trimEnd_concat (hb : isContinuation b = false) (s : Bytes) :
    trimEnd (s ++ [b]) = if isSpaceCharacter b [] then trimEnd s else s ++ [b] := by
  rw [trimEnd, List.reverse_concat, trimEndBefore, hb, Bool.false_and, if_neg Bool.false_ne_true,
    List.reverse_reverse]
  rfl

theorem isSpaceCharacter_space_cons (c : UInt8) (tail : Bytes) :
    isSpaceCharacter Ascii.space (c :: tail) = false := by
  have hlength : (decode Ascii.space (c :: tail)).length = 1 := rfl
  rw [isSpaceCharacter, hlength, List.length_cons]
  simp

/-- The back of a text is scanned no further than a space that stands before something. -/
theorem trimEndBefore_append_space {tail before : Bytes} (hne : before.reverse ++ tail ≠ [])
    (h : trimEndBefore tail before = before.reverse ++ tail) (others : Bytes) :
    trimEndBefore tail (before ++ Ascii.space :: others) =
      (before ++ Ascii.space :: others).reverse ++ tail := by
  induction before generalizing tail with
  | nil =>
    cases tail with
    | nil => exact absurd rfl hne
    | cons c tail =>
      have hspace : isContinuation Ascii.space = false := rfl
      rw [List.nil_append, trimEndBefore, hspace, Bool.false_and, if_neg Bool.false_ne_true,
        isSpaceCharacter_space_cons, if_neg Bool.false_ne_true, List.reverse_cons,
        List.append_assoc, List.singleton_append]
  | cons b before ih =>
    rw [List.reverse_cons, List.append_assoc, List.singleton_append] at h
    rw [List.cons_append, List.reverse_cons, List.append_assoc, List.singleton_append,
      trimEndBefore]
    cases hb : isContinuation b with
    | true =>
      -- The scan steps over `b` here, and if `b` is the first byte of the text it stops there alone.
      have hmore : (before ++ Ascii.space :: others).isEmpty = false := by simp
      rw [hmore, Bool.not_false, Bool.and_true, if_pos rfl]
      refine ih (by simp) ?_
      cases before with
      | nil => rfl
      | cons c before =>
        rwa [trimEndBefore, hb, List.isEmpty_cons, Bool.not_false, Bool.and_true, if_pos rfl] at h
    | false =>
      rw [trimEndBefore, hb, Bool.false_and, if_neg Bool.false_ne_true] at h
      rw [Bool.false_and, if_neg Bool.false_ne_true]
      cases hspace : isSpaceCharacter b tail with
      | true =>
        -- What is left without the last character is too short.
        rw [hspace, if_pos rfl] at h
        have hlength := (trimEndBefore_prefix_append [] before).length_le
        rw [h, List.length_append, List.length_append, List.length_cons, List.length_nil] at hlength
        omega
      | false => rw [if_neg Bool.false_ne_true]

/-- What is put before a trimmed text and a space does not reach the back of it. -/
theorem trimEnd_append_space (hne : s ≠ []) (hs : trimEnd s = s) (front : Bytes) :
    trimEnd (front ++ Ascii.space :: s) = front ++ Ascii.space :: s := by
  have hreverse : (front ++ Ascii.space :: s).reverse = s.reverse ++ Ascii.space :: front.reverse := by
    simp
  have hunchanged : trimEndBefore [] s.reverse = s.reverse.reverse ++ [] := by
    rw [List.reverse_reverse, List.append_nil]
    exact hs
  have hscan := trimEndBefore_append_space (by simpa using hne) hunchanged front.reverse
  rw [trimEnd, hreverse, hscan, ← hreverse, List.reverse_reverse, List.append_nil]

/-- Two trimmed texts with a space between them make a trimmed text, whatever is cut off at their
ends. -/
theorem trim_append_space {s t : Bytes} (hs : trim s = s) (hsne : s ≠ []) (ht : trim t = t)
    (htne : t ≠ []) : trim (s ++ Ascii.space :: t) = s ++ Ascii.space :: t := by
  rw [trim_eq_self_iff] at hs ht ⊢
  exact ⟨trimStart_append hsne hs.1 rfl t, trimEnd_append_space htne ht.2 s⟩

theorem getLast?_ne_space_of_continuation {tail : Bytes}
    (h : ∀ c ∈ tail, isContinuation c = true) : tail.getLast? ≠ some Ascii.space := by
  intro hlast
  cases h _ (List.mem_of_getLast? hlast)

theorem getLast?_trimEndBefore_ne_space {tail : Bytes}
    (htail : ∀ c ∈ tail, isContinuation c = true) (before : Bytes) :
    (trimEndBefore tail before).getLast? ≠ some Ascii.space := by
  induction before generalizing tail with
  | nil => exact getLast?_ne_space_of_continuation htail
  | cons b before ih =>
    rw [trimEndBefore]
    split
    · rename_i hb
      have hcontinuation : isContinuation b = true := (Bool.and_eq_true_iff.1 hb).1
      exact ih (List.forall_mem_cons.2 ⟨hcontinuation, htail⟩)
    · split
      · exact ih (List.forall_mem_nil _)
      · rename_i hspace
        cases tail with
        | nil =>
          rw [List.getLast?_concat]
          rintro ⟨⟩
          exact hspace rfl
        | cons c tail =>
          rw [List.getLast?_append_of_ne_nil _ (List.cons_ne_nil _ _), List.getLast?_cons_cons]
          exact getLast?_ne_space_of_continuation htail

/-- A trimmed text does not end in a space. -/
theorem trim_ne_concat_space (s text : Bytes) : trim s ≠ text ++ [Ascii.space] := by
  intro h
  apply getLast?_trimEndBefore_ne_space (List.forall_mem_nil _) (trimStart s).reverse
  show (trim s).getLast? = _
  rw [h, List.getLast?_concat]

end Repl.Text
