import Repl.Proofs.Text.Spelling
import Repl.Proofs.Text.Tokens

/-!
Trimmed texts. What trimming takes off is white space, at either end, and the text that it leaves has
none to take off: a character that is cut short there stays cut short without the white space behind
it. So trimming once is enough, and white space around a text makes no difference to it.
-/

namespace Repl.Text

variable {s u w : Bytes}

theorem Blank.append (hu : Blank u) (hw : Blank w) : Blank (u ++ w) := by
  induction hu with
  | nil => exact hw
  | cons hspace _ ih =>
    rw [List.append_assoc]
    exact .cons hspace ih

theorem blank_of_isSpaceCharacter {lead : UInt8} {rest : Bytes}
    (h : isSpaceCharacter lead rest = true) : Blank (lead :: rest) := by
  have hblank := Blank.cons h .nil
  rwa [List.append_nil] at hblank

/-! ## What is taken off -/

theorem exists_blank_trimStart (s : Bytes) : ∃ u, Blank u ∧ s = u ++ trimStart s := by
  induction s using tokens_induction with
  | nil => exact ⟨[], .nil, rfl⟩
  | cons lead rest ih =>
    cases hwhite : isWhiteSpace (decode lead rest).codePoint with
    | false => exact ⟨[], .nil, (trimStart_cons_eq_self_iff.2 hwhite).symm⟩
    | true =>
      obtain ⟨u, hu, hsplit⟩ := ih
      have hfirst : (Token.first lead rest).isWhite = true := hwhite
      have hspace := isSpaceCharacter_of_first hfirst
      have hwhole := first_bytes_append lead rest
      have hstart : trimStart (lead :: rest) = trimStart (afterFirst lead rest) := by
        rw [← hwhole]
        exact trimStart_space_append hspace _
      refine ⟨(Token.first lead rest).bytes ++ u, .cons hspace hu, ?_⟩
      calc lead :: rest = (Token.first lead rest).bytes ++ afterFirst lead rest := hwhole.symm
        _ = (Token.first lead rest).bytes ++ (u ++ trimStart (afterFirst lead rest)) := by
          rw [← hsplit]
        _ = (Token.first lead rest).bytes ++ u ++ trimStart (lead :: rest) := by
          rw [hstart, List.append_assoc]

theorem exists_blank_trimEndBefore (tail before : Bytes) :
    ∃ w, Blank w ∧ before.reverse ++ tail = trimEndBefore tail before ++ w := by
  induction before generalizing tail with
  | nil => exact ⟨[], .nil, (List.append_nil _).symm⟩
  | cons b before ih =>
    rw [List.reverse_cons, List.append_assoc, List.singleton_append, trimEndBefore]
    split
    · exact ih (b :: tail)
    split
    · rename_i hspace
      obtain ⟨w, hw, hsplit⟩ := ih []
      rw [List.append_nil] at hsplit
      refine ⟨w ++ b :: tail, hw.append (blank_of_isSpaceCharacter hspace), ?_⟩
      rw [← List.append_assoc, ← hsplit]
    · exact ⟨[], .nil, (List.append_nil _).symm⟩

theorem exists_blank_trimEnd (s : Bytes) : ∃ w, Blank w ∧ s = trimEnd s ++ w := by
  have hscan := exists_blank_trimEndBefore [] s.reverse
  rwa [List.reverse_reverse, List.append_nil] at hscan

/-- A text is what trimming leaves of it, with white space around. -/
theorem exists_blank_trim (s : Bytes) : ∃ u w, Blank u ∧ Blank w ∧ s = u ++ trim s ++ w := by
  obtain ⟨u, hu, hstart⟩ := exists_blank_trimStart s
  obtain ⟨w, hw, hend⟩ := exists_blank_trimEnd (trimStart s)
  refine ⟨u, w, hu, hw, ?_⟩
  calc s = u ++ trimStart s := hstart
    _ = u ++ (trim s ++ w) := by rw [trim, ← hend]
    _ = u ++ trim s ++ w := (List.append_assoc ..).symm

/-! ## Texts without white space -/

theorem Blank.eq_nil_of_visible (hw : Blank w)
    (h : ∀ b ∈ w, ∀ rest, isWhiteSpace (decode b rest).codePoint = false) : w = [] := by
  cases hw with
  | nil => rfl
  | @cons lead rest others hspace _ =>
    have hvisible := h lead List.mem_cons_self rest
    rw [isSpaceCharacter, hvisible, Bool.and_false] at hspace
    cases hspace

/-- A text is trimmed if white space begins with none of its bytes. -/
theorem trim_eq_self_of_visible
    (h : ∀ b ∈ s, ∀ rest, isWhiteSpace (decode b rest).codePoint = false) : trim s = s := by
  obtain ⟨u, w, hu, hw, hsplit⟩ := exists_blank_trim s
  have hfront : u = [] := hu.eq_nil_of_visible fun b hb => h b (by rw [hsplit]; simp [hb])
  have hback : w = [] := hw.eq_nil_of_visible fun b hb => h b (by rw [hsplit]; simp [hb])
  rw [hfront, hback, List.nil_append, List.append_nil] at hsplit
  exact hsplit.symm

def isSmallLetter (b : UInt8) : Bool :=
  0x61 ≤ b && b ≤ 0x7A

/-- White space is no ASCII letter, nor does it begin with one. -/
theorem trim_eq_self_of_letters (h : (toLower s).all isSmallLetter = true) : trim s = s := by
  have hletter : ∀ b : UInt8, isSmallLetter (lowerByte b) = true →
      b < 0x80 ∧ isWhiteSpace b.toNat = false := forall_byte (by decide +kernel)
  refine trim_eq_self_of_visible fun b hb rest => ?_
  obtain ⟨hascii, hvisible⟩ := hletter b (List.all_eq_true.1 h _ (List.mem_map_of_mem hb))
  rw [decode, if_pos hascii]
  exact hvisible

/-! ## Trimming once is enough -/

theorem trimStart_trimStart (s : Bytes) : trimStart (trimStart s) = trimStart s := by
  obtain ⟨u, hu, hsplit⟩ := exists_blank_trimStart s
  calc trimStart (trimStart s) = trimStart (u ++ trimStart s) := (hu.trimStart_append _).symm
    _ = trimStart s := by rw [← hsplit]

theorem trimEnd_trimEnd (s : Bytes) : trimEnd (trimEnd s) = trimEnd s := by
  obtain ⟨w, hw, hsplit⟩ := exists_blank_trimEnd s
  calc trimEnd (trimEnd s) = trimEnd (trimEnd s ++ w) := (hw.trimEnd_append _).symm
    _ = trimEnd s := by rw [← hsplit]

/-- The first character of a text is the same without white space at its end. -/
theorem Blank.trimStart_eq_self (hw : Blank w) (h : trimStart (s ++ w) = s ++ w) :
    trimStart s = s := by
  cases s with
  | nil => rfl
  | cons lead rest =>
    rw [List.cons_append, trimStart_cons_eq_self_iff, hw.decode_append] at h
    exact trimStart_cons_eq_self_iff.2 h

theorem trim_trim (s : Bytes) : trim (trim s) = trim s := by
  obtain ⟨w, hw, hsplit⟩ := exists_blank_trimEnd (trimStart s)
  rw [trim_eq_self_iff]
  constructor
  · refine hw.trimStart_eq_self ?_
    rw [trim, ← hsplit, trimStart_trimStart]
  · exact trimEnd_trimEnd (trimStart s)

/-- Trimming a text with any white space around it gives what trimming the text gives, and that is
trimmed: it is the text without some white space at both ends. -/
theorem trim_absorbs_white_space {us ws : List Bytes} (hu : ∀ e ∈ us, SpellsWhiteSpace e)
    (hw : ∀ e ∈ ws, SpellsWhiteSpace e) (s : Bytes) :
    trim (us.flatten ++ s ++ ws.flatten) = trim s ∧ trim (trim s) = trim s ∧
      hasExcessWhiteSpace (trim s) = false ∧
      ∃ front back : List Bytes, (∀ e ∈ front, SpellsWhiteSpace e) ∧
        (∀ e ∈ back, SpellsWhiteSpace e) ∧ s = front.flatten ++ trim s ++ back.flatten := by
  have hfront : Blank us.flatten := blank_iff_exists_flatten.2 ⟨us, hu, rfl⟩
  have hback : Blank ws.flatten := blank_iff_exists_flatten.2 ⟨ws, hw, rfl⟩
  refine ⟨trim_padded hfront hback s, trim_trim s, ?_, ?_⟩
  · rw [hasExcessWhiteSpace, trim_trim, bne_self_eq_false]
  · obtain ⟨u, w, hu, hw, hsplit⟩ := exists_blank_trim s
    obtain ⟨front, hfront, rfl⟩ := blank_iff_exists_flatten.1 hu
    obtain ⟨back, hback, rfl⟩ := blank_iff_exists_flatten.1 hw
    exact ⟨front, back, hfront, hback, hsplit⟩

/-- An overlong space comes before the first two bytes of a wide one, and a whole one after them. -/
theorem trim_absorbs_overlong_space :
    (∀ e ∈ [[0xC0, 0xA0]], SpellsWhiteSpace e) ∧ (∀ e ∈ [[0xE3, 0x80, 0x80]], SpellsWhiteSpace e) ∧
      trim ([0xC0, 0xA0] ++ [0xE3, 0x80] ++ [0xE3, 0x80, 0x80]) = trim [0xE3, 0x80] ∧
      hasExcessWhiteSpace (trim [0xE3, 0x80]) = false := by
  have hoverlong : SpellsWhiteSpace [0xC0, 0xA0] := spellsWhiteSpace_cons_iff.2 rfl
  have hwide : SpellsWhiteSpace [0xE3, 0x80, 0x80] := spellsWhiteSpace_cons_iff.2 rfl
  have hfront := List.forall_mem_singleton.2 hoverlong
  have hback := List.forall_mem_singleton.2 hwide
  obtain ⟨hsame, -, htrimmed, -⟩ := trim_absorbs_white_space hfront hback [0xE3, 0x80]
  exact ⟨hfront, hback, hsame, htrimmed⟩

end Repl.Text
