import Mathlib.Data.List.Basic
import Repl.Proofs.Text.Trim

/-!
White space around a text. Trimming takes away all that stands there, whatever bytes the text itself
is made of: a character of white space decodes as one wherever it stands, and it begins with a byte
that ends whatever the text leaves unfinished.
-/

namespace Repl.Text

variable {lead : UInt8} {rest s t u w : Bytes}

/-! ## Well-formed sequences -/

theorem isContinuation_eq_false_of_ascii (h : lead < 0x80) : isContinuation lead = false := by
  have hle : (lead &&& 0xC0).toNat ≤ lead.toNat := by
    rw [UInt8.toNat_and]
    exact Nat.and_le_left
  have hlt : lead.toNat < 128 := h
  rw [isContinuation, beq_eq_false_iff_ne]
  intro heq
  rw [heq] at hle
  exact absurd hlt (Nat.not_lt.2 hle)

/-- A byte whose upper bits start a sequence continues none. -/
theorem isContinuation_eq_false_of_mask {mask bits : UInt8} (h : (lead &&& mask == bits) = true)
    (hmask : mask &&& 0xC0 = 0xC0) (hbits : bits &&& 0xC0 = 0xC0) : isContinuation lead = false := by
  rw [beq_iff_eq] at h
  have hupper : lead &&& 0xC0 = 0xC0 := by
    calc lead &&& 0xC0 = lead &&& mask &&& 0xC0 := by rw [UInt8.and_assoc, hmask]
      _ = 0xC0 := by rw [h, hbits]
  rw [isContinuation, hupper]
  rfl

/-- A byte either starts a sequence of a length of its own, or never more than itself. -/
theorem decode_eq_decodeSequence (lead : UInt8) :
    (∀ rest, decode lead rest = .replacement) ∨
      isContinuation lead = false ∧
        ∃ payload n, ∀ rest, decode lead rest = decodeSequence payload n rest := by
  by_cases hascii : lead < 0x80
  · refine .inr ⟨isContinuation_eq_false_of_ascii hascii, lead, 0, fun rest => ?_⟩
    rw [decode, if_pos hascii]
    rfl
  by_cases htwo : (lead &&& 0xE0 == 0xC0) = true
  · refine .inr ⟨isContinuation_eq_false_of_mask htwo rfl rfl, lead &&& 0x1F, 1, fun rest => ?_⟩
    rw [decode, if_neg hascii, if_pos htwo]
  by_cases hthree : (lead &&& 0xF0 == 0xE0) = true
  · refine .inr ⟨isContinuation_eq_false_of_mask hthree rfl rfl, lead &&& 0x0F, 2, fun rest => ?_⟩
    rw [decode, if_neg hascii, if_neg htwo, if_pos hthree]
  by_cases hfour : (lead &&& 0xF8 == 0xF0) = true
  · refine .inr ⟨isContinuation_eq_false_of_mask hfour rfl rfl, lead &&& 0x07, 3, fun rest => ?_⟩
    rw [decode, if_neg hascii, if_neg htwo, if_neg hthree, if_pos hfour]
  · refine .inl fun rest => ?_
    rw [decode, if_neg hascii, if_neg htwo, if_neg hthree, if_neg hfour]

theorem continueValue_eq_some {value n v : Nat} (h : continueValue value n rest = some v) :
    n ≤ rest.length ∧ (∀ c ∈ rest.take n, isContinuation c = true) ∧
      ∀ s, continueValue value n (rest ++ s) = some v := by
  induction n generalizing value rest with
  | zero =>
    rw [continueValue] at h
    refine ⟨Nat.zero_le _, List.forall_mem_nil _, fun s => ?_⟩
    rw [continueValue, h]
  | succ n ih =>
    cases rest with
    | nil => cases h
    | cons b rest =>
      rw [continueValue] at h
      split at h
      · rename_i hb
        obtain ⟨hlength, hall, hmore⟩ := ih h
        refine ⟨Nat.succ_le_succ hlength, List.forall_mem_cons.2 ⟨hb, hall⟩, fun s => ?_⟩
        rw [List.cons_append, continueValue, if_pos hb]
        exact hmore s
      · cases h

theorem decodeSequence_length_le (payload : UInt8) (n : Nat) (rest : Bytes) :
    (decodeSequence payload n rest).length ≤ rest.length + 1 := by
  rw [decodeSequence]
  split
  · rename_i hvalue
    exact Nat.succ_le_succ (continueValue_eq_some hvalue).1
  · exact Nat.succ_le_succ (Nat.zero_le _)

/-- A character does not reach past the end of the text. -/
theorem decode_length_le (lead : UInt8) (rest : Bytes) :
    (decode lead rest).length ≤ rest.length + 1 := by
  obtain hnone | ⟨-, payload, n, hsequence⟩ := decode_eq_decodeSequence lead
  · rw [hnone]
    exact Nat.succ_le_succ (Nat.zero_le _)
  · rw [hsequence]
    exact decodeSequence_length_le payload n rest

/-- A character takes at least one byte. -/
theorem exists_decode_length_eq (lead : UInt8) (rest : Bytes) :
    ∃ n, (decode lead rest).length = n + 1 := by
  obtain hnone | ⟨-, payload, n, hsequence⟩ := decode_eq_decodeSequence lead
  · exact ⟨0, by rw [hnone]; rfl⟩
  · rw [hsequence, decodeSequence]
    split
    · exact ⟨n, rfl⟩
    · exact ⟨0, rfl⟩

/-! ## Characters of white space -/

/-- A character of white space starts with a byte that continues nothing, goes on with bytes that do,
and is the same before any text. -/
theorem isSpaceCharacter_spec (h : isSpaceCharacter lead rest = true) :
    isContinuation lead = false ∧ (∀ c ∈ rest, isContinuation c = true) ∧
      ∀ s, decode lead (rest ++ s) = decode lead rest := by
  rw [isSpaceCharacter, Bool.and_eq_true, beq_iff_eq] at h
  obtain ⟨hlength, hspace⟩ := h
  obtain hnone | ⟨hlead, payload, n, hsequence⟩ := decode_eq_decodeSequence lead
  · rw [hnone] at hspace
    cases hspace
  -- The replacement character is no white space, so the sequence is complete.
  rw [hsequence, decodeSequence] at hlength hspace
  cases hvalue : continueValue payload.toNat n rest with
  | none =>
    rw [hvalue] at hspace
    cases hspace
  | some value =>
    rw [hvalue] at hlength
    obtain rfl : n = rest.length := Nat.succ.inj hlength
    obtain ⟨-, hall, hmore⟩ := continueValue_eq_some hvalue
    rw [List.take_length] at hall
    refine ⟨hlead, hall, fun s => ?_⟩
    rw [hsequence, hsequence, decodeSequence, decodeSequence, hmore, hvalue]

theorem trimStartAfter_append_length (front s : Bytes) :
    trimStartAfter front.length (front ++ s) = trimStart s := by
  induction front with
  | nil => rfl
  | cons b front ih => exact ih

theorem trimStart_space_append (h : isSpaceCharacter lead rest = true) (s : Bytes) :
    trimStart (lead :: rest ++ s) = trimStart s := by
  obtain ⟨-, -, hdecode⟩ := isSpaceCharacter_spec h
  rw [isSpaceCharacter, Bool.and_eq_true, beq_iff_eq] at h
  rw [trimStart, List.cons_append, trimStartAfter, hdecode, if_pos h.2, h.1, Nat.add_sub_cancel,
    trimStartAfter_append_length]

/-- The scan from the back steps over continuation bytes, as long as there is something before. -/
theorem trimEndBefore_continuations {tail before : Bytes}
    (h : ∀ c ∈ rest, isContinuation c = true) (hne : before ≠ []) :
    trimEndBefore tail (rest.reverse ++ before) = trimEndBefore (rest ++ tail) before := by
  induction rest generalizing before with
  | nil => rfl
  | cons c rest ih =>
    obtain ⟨hc, hrest⟩ := List.forall_mem_cons.1 h
    rw [List.reverse_cons, List.append_assoc, ih hrest (by simp), List.singleton_append,
      trimEndBefore, hc, Bool.true_and, List.isEmpty_eq_false_iff.2 hne, Bool.not_false, if_pos rfl]
    rfl

theorem trimEnd_append_space_character (h : isSpaceCharacter lead rest = true) (s : Bytes) :
    trimEnd (s ++ lead :: rest) = trimEnd s := by
  obtain ⟨hlead, hrest, -⟩ := isSpaceCharacter_spec h
  rw [trimEnd, List.reverse_append, List.reverse_cons, List.append_assoc, List.singleton_append,
    trimEndBefore_continuations hrest (List.cons_ne_nil _ _), List.append_nil, trimEndBefore, hlead,
    Bool.false_and, if_neg Bool.false_ne_true, if_pos h, trimEnd]

/-! ## Blank texts -/

/-- White space: one whole character of it after the other, overlong ones included. -/
inductive Blank : Bytes → Prop where
  | nil : Blank []
  | cons {lead : UInt8} {rest others : Bytes} (hspace : isSpaceCharacter lead rest = true)
    (hothers : Blank others) : Blank (lead :: rest ++ others)

/-- The code points of white space, one by one. -/
def whiteSpaces : List Nat :=
  [0x09, 0x0A, 0x0B, 0x0C, 0x0D, 0x20, 0x85, 0xA0, 0x1680, 0x2000, 0x2001, 0x2002, 0x2003, 0x2004,
    0x2005, 0x2006, 0x2007, 0x2008, 0x2009, 0x200A, 0x2028, 0x2029, 0x202F, 0x205F, 0x3000]

theorem mem_whiteSpaces_iff {c : Nat} : c ∈ whiteSpaces ↔ isWhiteSpace c = true := by
  simp only [whiteSpaces, isWhiteSpace, Bool.or_eq_true, Bool.and_eq_true, decide_eq_true_eq,
    beq_iff_eq, List.mem_cons, List.not_mem_nil, or_false]
  omega

theorem encode_isSpaceCharacter {c : Nat} (h : isWhiteSpace c = true) :
    ∃ lead rest, encode c = lead :: rest ∧ isSpaceCharacter lead rest = true := by
  have hall : ∀ c ∈ whiteSpaces,
      encode c ≠ [] ∧ isSpaceCharacter ((encode c).headD 0) (encode c).tail = true := by decide
  obtain ⟨hne, hspace⟩ := hall c (mem_whiteSpaces_iff.2 h)
  obtain ⟨lead, rest, hencode⟩ := List.exists_cons_of_ne_nil hne
  rw [hencode] at hspace
  exact ⟨lead, rest, hencode, hspace⟩

/-- The code points of white space, spelled one after the other, are blank. -/
theorem blank_flatMap_encode {cs : List Nat} (h : ∀ c ∈ cs, isWhiteSpace c = true) :
    Blank (cs.flatMap encode) := by
  induction cs with
  | nil => exact .nil
  | cons c cs ih =>
    obtain ⟨hc, hcs⟩ := List.forall_mem_cons.1 h
    obtain ⟨lead, rest, hencode, hspace⟩ := encode_isSpaceCharacter hc
    rw [List.flatMap_cons, hencode]
    exact .cons hspace (ih hcs)

/-- A blank text that is not empty starts with a byte that ends every character before it. -/
theorem Blank.eq_nil_or_cons (h : Blank w) :
    w = [] ∨ ∃ lead others, w = lead :: others ∧ isContinuation lead = false := by
  cases h with
  | nil => exact .inl rfl
  | cons hspace _ => exact .inr ⟨_, _, rfl, (isSpaceCharacter_spec hspace).1⟩

/-- A character that the end of a text cuts off is not completed by white space after it. -/
theorem Blank.decode_append (h : Blank w) (lead : UInt8) (rest : Bytes) :
    decode lead (rest ++ w) = decode lead rest := by
  obtain rfl | ⟨c, others, rfl, hc⟩ := h.eq_nil_or_cons
  · rw [List.append_nil]
  · exact Text.decode_append hc lead rest others

theorem Blank.trimStart_append (h : Blank u) (s : Bytes) : trimStart (u ++ s) = trimStart s := by
  induction h with
  | nil => rfl
  | cons hspace _ ih => rw [List.append_assoc, trimStart_space_append hspace, ih]

theorem Blank.trimStart_eq_nil (h : Blank w) : trimStart w = [] := by
  have hstart := h.trimStart_append []
  rwa [List.append_nil] at hstart

theorem Blank.trimEnd_append (h : Blank w) (s : Bytes) : trimEnd (s ++ w) = trimEnd s := by
  induction h generalizing s with
  | nil => rw [List.append_nil]
  | cons hspace _ ih =>
    rw [← List.append_assoc, ih, trimEnd_append_space_character hspace]

/-- White space after a text is kept by trimming the front, unless the text is white space itself. -/
theorem Blank.trimStartAfter_append {skip : Nat} (h : Blank w) (hskip : skip ≤ s.length) :
    trimStartAfter skip (s ++ w) =
      if trimStartAfter skip s = [] then [] else trimStartAfter skip s ++ w := by
  induction s generalizing skip with
  | nil =>
    obtain rfl : skip = 0 := Nat.le_zero.1 hskip
    exact h.trimStart_eq_nil
  | cons b rest ih =>
    cases skip with
    | succ skip => exact ih (Nat.le_of_succ_le_succ hskip)
    | zero =>
      have hreach : (decode b rest).length - 1 ≤ rest.length :=
        Nat.sub_le_of_le_add (decode_length_le b rest)
      rw [List.cons_append, trimStartAfter, trimStartAfter, h.decode_append]
      cases isWhiteSpace (decode b rest).codePoint with
      | true => exact ih hreach
      | false => rfl

theorem Blank.trim_append (h : Blank w) (s : Bytes) : trim (s ++ w) = trim s := by
  have hstart : trimStart (s ++ w) = if trimStart s = [] then [] else trimStart s ++ w :=
    h.trimStartAfter_append (Nat.zero_le _)
  rw [trim, trim, hstart]
  split
  · rename_i hnil
    rw [hnil]
  · exact h.trimEnd_append _

/-- White space around a text is trimmed off, whatever the text is. -/
theorem trim_padded (hu : Blank u) (hw : Blank w) (s : Bytes) : trim (u ++ s ++ w) = trim s := by
  rw [hw.trim_append, trim, trim, hu.trimStart_append]

/-- The two bytes are the beginning of the character that stands after them. -/
example : trim ([0xE3, 0x80] ++ encode 0x3000) = [0xE3, 0x80] :=
  rfl

/-! ## Texts that differ in padding only -/

/-- Two texts are one text with white space around it. -/
def SameButPadding (s t : Bytes) : Prop :=
  ∃ core u w u' w', Blank u ∧ Blank w ∧ Blank u' ∧ Blank w' ∧ s = u ++ core ++ w ∧
    t = u' ++ core ++ w'

theorem SameButPadding.trim_eq (h : SameButPadding s t) : trim s = trim t := by
  obtain ⟨core, u, w, u', w', hu, hw, hu', hw', rfl, rfl⟩ := h
  rw [trim_padded hu hw, trim_padded hu' hw']

theorem sameButPadding_padded (hu : Blank u) (hw : Blank w) (s : Bytes) :
    SameButPadding s (u ++ s ++ w) :=
  ⟨s, [], [], u, w, .nil, .nil, hu, hw, by simp, rfl⟩

/-! ## The first character that is left -/

/-- Trimming the back stops at a first character that is no white space. -/
theorem trimEndBefore_concat_visible {c : UInt8} (hc : isContinuation c = false)
    (hvisible : ∀ rest, isSpaceCharacter c rest = false) (tail others : Bytes) :
    ∃ left, trimEndBefore tail (others ++ [c]) = c :: left := by
  induction others generalizing tail with
  | nil =>
    refine ⟨tail, ?_⟩
    rw [List.nil_append, trimEndBefore, hc, Bool.false_and, if_neg Bool.false_ne_true, hvisible,
      if_neg Bool.false_ne_true]
    rfl
  | cons b others ih =>
    rw [List.cons_append, trimEndBefore]
    split
    · exact ih (b :: tail)
    split
    · exact ih []
    · exact ⟨others.reverse ++ b :: tail, by rw [List.reverse_concat, List.cons_append]⟩

/-- The first byte after white space that is no part of white space is the first byte of what is left,
if it is no part of a longer character either. -/
theorem trim_padded_cons {c : UInt8} (hu : Blank u) (hc : isContinuation c = false)
    (hvisible : ∀ rest, isWhiteSpace (decode c rest).codePoint = false) (rest : Bytes) :
    ∃ left, trim (u ++ c :: rest) = c :: left := by
  have hstart : trimStart (c :: rest) = c :: rest := trimStart_cons_eq_self_iff.2 (hvisible rest)
  have hspace : ∀ rest, isSpaceCharacter c rest = false := fun rest => by
    rw [isSpaceCharacter, hvisible, Bool.and_false]
  rw [trim, hu.trimStart_append, hstart, trimEnd, List.reverse_cons]
  exact trimEndBefore_concat_visible hc hspace [] rest.reverse

end Repl.Text
