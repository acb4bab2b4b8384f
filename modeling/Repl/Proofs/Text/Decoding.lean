import Mathlib.Data.Nat.Digits.Defs
import Mathlib.Tactic.Ring
import Repl.Proofs.Text.Spelling

/-!
Characters wherever they stand. A code point is read back from its bytes, whatever stands before and
behind them. A sequence of several bytes is taken for one character just if it is complete, and then
its value is the number whose digits to the base 64 the bytes carry. Any other byte that is not ASCII
is one replacement character, so that decoding never leaves the text.
-/

namespace Repl.Text

variable {lead : UInt8} {n v value : Nat} {rest : Bytes} {k : SequenceKind}

/-- The character that begins at a position of a text. -/
def decodeAt (s : Bytes) (i : Nat) : Option Decoded :=
  match s.drop i with
  | [] => none
  | lead :: rest => some (decode lead rest)

theorem decodeAt_length (p rest : Bytes) (lead : UInt8) :
    decodeAt (p ++ lead :: rest) p.length = some (decode lead rest) := by
  rw [decodeAt, List.drop_left]

theorem decodeAt_of_lt {s : Bytes} {i : Nat} (h : i < s.length) :
    decodeAt s i = some (decode s[i] (s.drop (i + 1))) := by
  rw [decodeAt, List.drop_eq_getElem_cons h]

/-! ## Encoding -/

/-- Code points that are no surrogates are encoded as in any string. -/
theorem encode_toNat (c : Char) : encode c.toNat = String.utf8EncodeChar c := by
  have hlt : c.toNat < 0x110000 := by
    have hvalid : c.toNat.isValidChar := c.valid
    unfold Nat.isValidChar at hvalid
    omega
  rw [encode, String.utf8EncodeChar, Char.toNat_val]
  generalize c.toNat = v at hlt
  simp only [Nat.lt_succ_iff (n := 0x7F), Nat.lt_succ_iff (n := 0x7FF), Nat.lt_succ_iff (n := 0xFFFF)]
  -- The lead byte of a sequence has room for the upper bits of every code point that gets so far.
  split
  · rfl
  split
  · rw [Nat.mod_eq_of_lt (by omega : v / 64 < 32), Nat.add_comm (v / 64), Nat.add_comm (v % 64)]
    simp only [Nat.pow_eq, Nat.pow_zero, Nat.div_one]
  split
  · rw [Nat.mod_eq_of_lt (by omega : v / 4096 < 16), Nat.add_comm (v / 4096),
      Nat.add_comm (v / 64 % 64), Nat.add_comm (v % 64)]
    simp only [Nat.pow_eq, Nat.pow_zero, Nat.div_one]
  · rw [Nat.mod_eq_of_lt (by omega : v / 262144 < 8), Nat.add_comm (v / 262144),
      Nat.add_comm (v / 4096 % 64), Nat.add_comm (v / 64 % 64), Nat.add_comm (v % 64)]
    simp only [Nat.pow_eq, Nat.pow_zero, Nat.div_one]

theorem length_encode_of_three {c : Nat} (hlow : 0x800 ≤ c) (hhigh : c < 0x10000) :
    (encode c).length = 3 := by
  rw [encode, if_neg (by omega), if_neg (by omega), if_pos hhigh]
  rfl

/-! ## Complete sequences -/

/-- What a byte that goes on with a sequence adds to its value. -/
def payload (b : UInt8) : Nat :=
  (b &&& 0x3F).toNat

/-- A lead byte of the kind and as many bytes as go on with it. The value has their payloads as its
digits to the base 64, the one of the lead byte first. -/
structure Joins (k : SequenceKind) (lead : UInt8) (following : Bytes) (value : Nat) : Prop where
  mark_le : k.mark ≤ lead.toNat
  lt_marks : lead.toNat < k.mark + k.payloads
  length_eq : following.length = k.more
  continued : ∀ b ∈ following, isContinuation b = true
  value_eq : value = Nat.ofDigits 64 ((following.map payload).reverse ++ [lead.toNat - k.mark])

theorem ofDigits_carry (base d value : Nat) (l : List Nat) :
    Nat.ofDigits base (l ++ [d, value]) = Nat.ofDigits base (l ++ [value * base + d]) := by
  simp only [Nat.ofDigits_append, Nat.ofDigits_cons, Nat.ofDigits_nil]
  ring

/-- Each byte that is read takes the value so far one digit up. -/
theorem continueValue_eq_some_iff : continueValue value n rest = some v ↔
    (rest.take n).length = n ∧ (∀ b ∈ rest.take n, isContinuation b = true) ∧
      v = Nat.ofDigits 64 (((rest.take n).map payload).reverse ++ [value]) := by
  induction n generalizing value rest with
  | zero =>
    rw [continueValue, Option.some_inj, eq_comm]
    simp
  | succ n ih =>
    cases rest with
    | nil => simp [continueValue]
    | cons b rest =>
      rw [continueValue, List.take_succ_cons, List.length_cons, List.forall_mem_cons,
        List.map_cons, List.reverse_cons, List.append_assoc, List.singleton_append, ofDigits_carry]
      by_cases hb : isContinuation b = true
      · rw [if_pos hb, ih, Nat.add_right_cancel_iff, and_iff_right hb]
        rfl
      · rw [if_neg hb]
        simp [hb]

theorem toNat_mark_add {x : Nat} (hk : k ∈ sequenceKinds) (hx : x < k.payloads) :
    (k.mark + x).toUInt8.toNat = k.mark + x := by
  have hfits : ∀ k ∈ sequenceKinds, k.mark + k.payloads ≤ 256 := by decide
  have hbyte := hfits k hk
  exact UInt8.toNat_ofNat_of_lt' (by omega : k.mark + x < 256)

/-- A complete sequence is read as what it joins. -/
theorem Joins.decode_eq (h : Joins k lead (rest.take k.more) value) (hk : k ∈ sequenceKinds) :
    decode lead rest = ⟨value, k.more + 1⟩ := by
  have hx : lead.toNat - k.mark < k.payloads := by
    have hlt := h.lt_marks
    have hle := h.mark_le
    omega
  have hlead : lead = (k.mark + (lead.toNat - k.mark)).toUInt8 := by
    rw [Nat.add_sub_cancel' h.mark_le]
    exact UInt8.ofNat_toNat.symm
  have hvalue := continueValue_eq_some_iff.2 ⟨h.length_eq, h.continued, h.value_eq⟩
  rw [hlead, decode_lead hk hx, decodeSequence, toNat_payload hk hx, hvalue]

/-- A byte is an ASCII character, leads a complete sequence, or is malformed. -/
theorem decode_cases (lead : UInt8) (rest : Bytes) :
    (lead < 0x80 ∧ decode lead rest = ⟨lead.toNat, 1⟩) ∨
      (∃ k ∈ sequenceKinds, ∃ value, Joins k lead (rest.take k.more) value ∧
        decode lead rest = ⟨value, k.more + 1⟩) ∨
        ¬lead < 0x80 ∧ decode lead rest = .replacement := by
  by_cases hascii : lead < 0x80
  · exact .inl ⟨hascii, by rw [decode, if_pos hascii]⟩
  refine .inr ?_
  obtain ⟨x, hx, rfl⟩ | ⟨k, hk, x, hx, rfl⟩ | hnone := lead_cases lead
  · have hall : ∀ x < 0x80, x.toUInt8 < 0x80 := by decide
    exact absurd (hall x hx) hascii
  · have hnat := toNat_mark_add hk hx
    rw [decode_lead hk hx, decodeSequence, toNat_payload hk hx]
    cases hvalue : continueValue x k.more rest with
    | none => exact .inr ⟨hascii, rfl⟩
    | some value =>
      obtain ⟨hlength, hcontinued, hdigits⟩ := continueValue_eq_some_iff.1 hvalue
      refine .inl ⟨k, hk, value, ⟨?_, ?_, hlength, hcontinued, ?_⟩, rfl⟩
      · rw [hnat]
        exact Nat.le_add_right _ _
      · rw [hnat]
        exact Nat.add_lt_add_left hx _
      · rw [hnat, Nat.add_sub_cancel_left]
        exact hdigits
  · exact .inr ⟨hascii, hnone rest⟩

/-- A character of several bytes is a complete sequence. -/
theorem joins_of_one_lt_length (h : 1 < (decode lead rest).length) :
    ∃ k ∈ sequenceKinds, (decode lead rest).length = k.more + 1 ∧
      Joins k lead (rest.take k.more) (decode lead rest).codePoint := by
  obtain ⟨-, hdecode⟩ | ⟨k, hk, value, hjoins, hdecode⟩ | ⟨-, hdecode⟩ := decode_cases lead rest
  · rw [hdecode] at h
    exact absurd h (Nat.lt_irrefl 1)
  · rw [hdecode]
    exact ⟨k, hk, rfl, hjoins⟩
  · rw [hdecode] at h
    exact absurd h (Nat.lt_irrefl 1)

theorem decode_eq_replacement (hlead : ¬lead < 0x80) (h : (decode lead rest).length = 1) :
    decode lead rest = .replacement := by
  obtain ⟨hascii, -⟩ | ⟨k, hk, value, -, hdecode⟩ | ⟨-, hdecode⟩ := decode_cases lead rest
  · exact absurd hascii hlead
  · have hmore : ∀ k ∈ sequenceKinds, 0 < k.more := by decide
    have hpos := hmore k hk
    rw [hdecode] at h
    change k.more + 1 = 1 at h
    omega
  · exact hdecode

/-! ## Any position -/

theorem decodeAt_encode {c : Nat} (hc : c ≤ 0x10FFFF) (p q : Bytes) :
    decodeAt (p ++ encode c ++ q) p.length = some ⟨c, (encode c).length⟩ := by
  have hspells : Spells c (encode c) := spells_encode (by omega)
  obtain ⟨lead, rest, hencode, hdecode⟩ := hspells.decode_append q
  rw [List.append_assoc, hencode, List.cons_append, decodeAt_length, hdecode, hencode]

/-- Every code point, surrogates included, is read back from its encoding, whatever stands around it.
At any position of any text there is one character, which lies inside the text: the ASCII character
that stands there, a complete sequence that begins there, or else a replacement character for one
byte. -/
theorem decodeAt_in_context :
    (∀ c : Char, encode c.toNat = String.utf8EncodeChar c) ∧
      (∀ c, 0x800 ≤ c → c < 0x10000 → (encode c).length = 3) ∧
      (∀ c ≤ 0x10FFFF, ∀ p q : Bytes,
        decodeAt (p ++ encode c ++ q) p.length = some ⟨c, (encode c).length⟩) ∧
      ∀ (s : Bytes) (i : Nat) (h : i < s.length), ∃ d, decodeAt s i = some d ∧
        1 ≤ d.length ∧ i + d.length ≤ s.length ∧
        (s[i] < 0x80 → d = ⟨s[i].toNat, 1⟩) ∧
        (1 < d.length → ∃ k ∈ sequenceKinds, d.length = k.more + 1 ∧
          Joins k s[i] ((s.drop (i + 1)).take k.more) d.codePoint) ∧
        (∀ k ∈ sequenceKinds, ∀ value, Joins k s[i] ((s.drop (i + 1)).take k.more) value →
          d = ⟨value, k.more + 1⟩) ∧
        (¬s[i] < 0x80 → d.length = 1 → d = .replacement) := by
  refine ⟨encode_toNat, fun c => length_encode_of_three, fun c hc => decodeAt_encode hc,
    fun s i h => ⟨_, decodeAt_of_lt h, ?_, ?_, fun hascii => ?_, joins_of_one_lt_length,
      fun k hk value hjoins => hjoins.decode_eq hk, decode_eq_replacement⟩⟩
  · obtain ⟨n, hlength⟩ := exists_decode_length_eq s[i] (s.drop (i + 1))
    omega
  · -- The text goes on with the bytes behind the position.
    have hreach := decode_length_le s[i] (s.drop (i + 1))
    rw [List.length_drop] at hreach
    omega
  · rw [decode, if_pos hascii]

/-- A surrogate between the front of a sequence and a byte that would go on with one. -/
theorem decodeAt_surrogate :
    0xD800 ≤ 0x10FFFF ∧ encode 0xD800 = [0xED, 0xA0, 0x80] ∧
      decodeAt ([0xE2, 0x82] ++ encode 0xD800 ++ [0xBF]) 2 = some ⟨0xD800, 3⟩ ∧
      ∃ d, decodeAt ([0xE2, 0x82] ++ encode 0xD800 ++ [0xBF]) 0 = some d ∧ d = .replacement := by
  obtain ⟨-, -, hread, hanywhere⟩ := decodeAt_in_context
  have hsurrogate : 0xD800 ≤ 0x10FFFF := by decide
  obtain ⟨d, hd, -, -, -, -, -, hmalformed⟩ :=
    hanywhere ([0xE2, 0x82] ++ encode 0xD800 ++ [0xBF]) 0 (by decide)
  have hlength : d.length = 1 := by
    cases hd
    rfl
  exact ⟨hsurrogate, rfl, hread 0xD800 hsurrogate [0xE2, 0x82] [0xBF], d, hd,
    hmalformed (by decide) hlength⟩

end Repl.Text
