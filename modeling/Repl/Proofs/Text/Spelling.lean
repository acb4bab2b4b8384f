import Mathlib.Tactic.Ring
import Repl.Proofs.Text.Padding

/-!
How code points are spelled. A sequence of each length has room for so many bits, and it may spell
every code point that needs no more of them: all sequences of a code point but the shortest are
overlong. Decoding reads each of them back, whatever stands behind it, and blank texts are white
space spelled in any of these ways.
-/

namespace Repl.Text

variable {b lead : UInt8} {c n value x : Nat} {e rest s : Bytes}

/-! ## Sequences -/

/-- A kind of sequence: the mark that its lead byte adds to its payload, the number of such payloads,
and the number of bytes that follow. -/
structure SequenceKind where
  mark : Nat
  payloads : Nat
  more : Nat
  deriving DecidableEq, Repr

def sequenceKinds : List SequenceKind :=
  [⟨0xC0, 32, 1⟩, ⟨0xE0, 16, 2⟩, ⟨0xF0, 8, 3⟩]

/-- The byte that goes on with a sequence by the lowest six bits of a number. -/
def continuationByte (payload : Nat) : UInt8 :=
  (0x80 + payload % 64).toUInt8

/-- The bytes that go on with a sequence by six bits each, down to the lowest of the code point. -/
def continuationBytes (c : Nat) : Nat → Bytes
  | 0 => []
  | n + 1 => continuationByte (c / 64 ^ n) :: continuationBytes c n

/-- A text is one sequence that spells a code point, overlong ones included. -/
inductive Spells (c : Nat) : Bytes → Prop where
  | ascii (h : c < 0x80) : Spells c [c.toUInt8]
  | sequence {k : SequenceKind} (hk : k ∈ sequenceKinds) (h : c / 64 ^ k.more < k.payloads) :
    Spells c ((k.mark + c / 64 ^ k.more).toUInt8 :: continuationBytes c k.more)

theorem length_continuationBytes (c n : Nat) : (continuationBytes c n).length = n := by
  induction n with
  | zero => rfl
  | succ n ih => rw [continuationBytes, List.length_cons, ih]

/-- A code point is encoded in the shortest of its sequences. -/
theorem spells_encode (h : c < 0x200000) : Spells c (encode c) := by
  have hkinds : ∀ k ∈ sequenceKinds, c / 64 ^ k.more < k.payloads ↔ c < k.payloads * 64 ^ k.more :=
    fun k _ => Nat.div_lt_iff_lt_mul (Nat.pow_pos (by decide))
  rw [encode]
  split
  · exact .ascii ‹_›
  split
  · exact .sequence (k := ⟨0xC0, 32, 1⟩) (by decide) ((hkinds _ (by decide)).2 ‹_›)
  split
  · exact .sequence (k := ⟨0xE0, 16, 2⟩) (by decide) ((hkinds _ (by decide)).2 ‹_›)
  · exact .sequence (k := ⟨0xF0, 8, 3⟩) (by decide) ((hkinds _ (by decide)).2 h)

/-! ## Bytes by their ranges -/

theorem forall_byte {p : UInt8 → Prop} (h : ∀ n < 256, p n.toUInt8) (b : UInt8) : p b := by
  have hb := h b.toNat b.toNat_lt
  have hsame : b.toNat.toUInt8 = b := UInt8.ofNat_toNat
  rwa [hsame] at hb

theorem isContinuation_continuationByte (payload : Nat) :
    isContinuation (continuationByte payload) = true ∧
      (continuationByte payload &&& 0x3F).toNat = payload % 64 := by
  have hall : ∀ k < 64, isContinuation (0x80 + k).toUInt8 = true ∧
      ((0x80 + k).toUInt8 &&& 0x3F).toNat = k := by decide
  exact hall (payload % 64) (Nat.mod_lt _ (by decide))

theorem eq_continuationByte : ∀ b : UInt8, isContinuation b = true →
    (b &&& 0x3F).toNat < 64 ∧ b = continuationByte (b &&& 0x3F).toNat :=
  forall_byte (by decide +kernel)

theorem decode_ascii (h : x < 0x80) (rest : Bytes) : decode x.toUInt8 rest = ⟨x, 1⟩ := by
  have hall : ∀ x < 0x80, x.toUInt8 < 0x80 ∧ x.toUInt8.toNat = x := by decide
  obtain ⟨hlt, hsame⟩ := hall x h
  rw [decode, if_pos hlt, hsame]

theorem toNat_payload {k : SequenceKind} (hk : k ∈ sequenceKinds) (hx : x < k.payloads) :
    x.toUInt8.toNat = x := by
  have hfew : ∀ k ∈ sequenceKinds, k.payloads ≤ 256 := by decide
  exact UInt8.toNat_ofNat_of_lt' (hx.trans_le (hfew k hk))

theorem decode_lead {k : SequenceKind} (hk : k ∈ sequenceKinds) (hx : x < k.payloads) (rest : Bytes) :
    decode (k.mark + x).toUInt8 rest = decodeSequence x.toUInt8 k.more rest := by
  simp only [sequenceKinds, List.mem_cons, List.not_mem_nil, or_false] at hk
  obtain rfl | rfl | rfl := hk
  · have hall : ∀ x < 32, ¬(0xC0 + x).toUInt8 < 0x80 ∧ ((0xC0 + x).toUInt8 &&& 0xE0 == 0xC0) = true ∧
        (0xC0 + x).toUInt8 &&& 0x1F = x.toUInt8 := by decide
    obtain ⟨hascii, htwo, hpayload⟩ := hall x hx
    rw [decode, if_neg hascii, if_pos htwo, hpayload]
  · have hall : ∀ x < 16, ¬(0xE0 + x).toUInt8 < 0x80 ∧ ¬((0xE0 + x).toUInt8 &&& 0xE0 == 0xC0) = true ∧
        ((0xE0 + x).toUInt8 &&& 0xF0 == 0xE0) = true ∧ (0xE0 + x).toUInt8 &&& 0x0F = x.toUInt8 := by
      decide
    obtain ⟨hascii, htwo, hthree, hpayload⟩ := hall x hx
    rw [decode, if_neg hascii, if_neg htwo, if_pos hthree, hpayload]
  · have hall : ∀ x < 8, ¬(0xF0 + x).toUInt8 < 0x80 ∧ ¬((0xF0 + x).toUInt8 &&& 0xE0 == 0xC0) = true ∧
        ¬((0xF0 + x).toUInt8 &&& 0xF0 == 0xE0) = true ∧ ((0xF0 + x).toUInt8 &&& 0xF8 == 0xF0) = true ∧
        (0xF0 + x).toUInt8 &&& 0x07 = x.toUInt8 := by decide
    obtain ⟨hascii, htwo, hthree, hfour, hpayload⟩ := hall x hx
    rw [decode, if_neg hascii, if_neg htwo, if_neg hthree, if_pos hfour, hpayload]

/-- The marks of lead bytes leave out no byte that decoding would take for one. -/
theorem unmarked_or_lead : ∀ lead : UInt8, ¬lead < 0x80 →
    (∃ k ∈ sequenceKinds, ∃ x < k.payloads, lead = (k.mark + x).toUInt8) ∨
      ¬(lead &&& 0xE0 == 0xC0) = true ∧ ¬(lead &&& 0xF0 == 0xE0) = true ∧
        ¬(lead &&& 0xF8 == 0xF0) = true :=
  forall_byte (by decide +kernel)

/-- A byte stands for itself, leads a sequence, or begins nothing. -/
theorem lead_cases (lead : UInt8) :
    (∃ x < 0x80, lead = x.toUInt8) ∨
      (∃ k ∈ sequenceKinds, ∃ x < k.payloads, lead = (k.mark + x).toUInt8) ∨
        ∀ rest, decode lead rest = .replacement := by
  by_cases hascii : lead < 0x80
  · exact .inl ⟨lead.toNat, hascii, UInt8.ofNat_toNat.symm⟩
  · refine .inr ((unmarked_or_lead lead hascii).imp_right ?_)
    rintro ⟨htwo, hthree, hfour⟩ rest
    rw [decode, if_neg hascii, if_neg htwo, if_neg hthree, if_neg hfour]

/-! ## Reading back -/

theorem continueValue_continuationBytes (value c n : Nat) (s : Bytes) :
    continueValue value n (continuationBytes c n ++ s) = some (value * 64 ^ n + c % 64 ^ n) := by
  induction n generalizing value with
  | zero => rw [continueValue, Nat.pow_zero, Nat.mul_one, Nat.mod_one, Nat.add_zero]
  | succ n ih =>
    obtain ⟨hcontinuation, hpayload⟩ := isContinuation_continuationByte (c / 64 ^ n)
    rw [continuationBytes, List.cons_append, continueValue, if_pos hcontinuation, hpayload, ih]
    -- The next six bits are a digit of the code point to the base 64.
    have hdigit : c % 64 ^ (n + 1) = c % 64 ^ n + 64 ^ n * (c / 64 ^ n % 64) := Nat.mod_pow_succ
    rw [hdigit, Nat.pow_succ]
    congr 1
    ring

theorem eq_continuationBytes {c : Nat} (h : continueValue value n rest = some c) :
    rest.take n = continuationBytes c n ∧ c / 64 ^ n = value := by
  induction n generalizing value rest with
  | zero =>
    rw [continueValue, Option.some.injEq] at h
    rw [h, Nat.pow_zero, Nat.div_one]
    exact ⟨rfl, rfl⟩
  | succ n ih =>
    cases rest with
    | nil => cases h
    | cons b rest =>
      rw [continueValue] at h
      split at h
      · rename_i hb
        obtain ⟨hpayload, hbyte⟩ := eq_continuationByte b hb
        obtain ⟨htake, hvalue⟩ := ih h
        have hlowest : continuationByte (value * 64 + (b &&& 0x3F).toNat) = b := by
          rw [continuationByte, Nat.mul_add_mod_self_right]
          exact hbyte.symm
        have hupper : (value * 64 + (b &&& 0x3F).toNat) / 64 = value := by omega
        rw [List.take_succ_cons, htake, continuationBytes, Nat.pow_succ, ← Nat.div_div_eq_div_mul,
          hvalue, hlowest, hupper]
        exact ⟨rfl, rfl⟩
      · cases h

/-- A sequence is read back as the code point that it spells, whatever stands behind it. -/
theorem Spells.decode_append (h : Spells c e) (s : Bytes) :
    ∃ lead rest, e = lead :: rest ∧ decode lead (rest ++ s) = ⟨c, e.length⟩ := by
  cases h with
  | ascii hc => exact ⟨_, _, rfl, decode_ascii hc s⟩
  | @sequence k hk hc =>
    refine ⟨_, _, rfl, ?_⟩
    rw [decode_lead hk hc, decodeSequence, toNat_payload hk hc, continueValue_continuationBytes,
      Nat.div_add_mod', List.length_cons, length_continuationBytes]

/-- The bytes that decoding takes for a character spell it. -/
theorem spells_take_of_decode (h : decode lead rest = ⟨c, n + 1⟩) (hc : c ≠ 0xFFFD) :
    Spells c (lead :: rest.take n) := by
  obtain ⟨x, hx, rfl⟩ | ⟨k, hk, x, hx, rfl⟩ | hnone := lead_cases lead
  · rw [decode_ascii hx, Decoded.mk.injEq] at h
    obtain ⟨rfl, hlength⟩ := h
    rw [← Nat.succ.inj hlength, List.take_zero]
    exact .ascii hx
  · rw [decode_lead hk hx, decodeSequence, toNat_payload hk hx] at h
    split at h
    · rename_i v hvalue
      rw [Decoded.mk.injEq] at h
      obtain ⟨rfl, hlength⟩ := h
      obtain ⟨htake, rfl⟩ := eq_continuationBytes hvalue
      rw [← Nat.succ.inj hlength, htake]
      exact .sequence hk hx
    · rw [Decoded.replacement, Decoded.mk.injEq] at h
      exact absurd h.1.symm hc
  · rw [hnone, Decoded.replacement, Decoded.mk.injEq] at h
    exact absurd h.1.symm hc

/-- What a complete sequence decodes to is what it spells. -/
theorem spells_of_decode (h : decode lead rest = ⟨c, rest.length + 1⟩) (hc : c ≠ 0xFFFD) :
    Spells c (lead :: rest) := by
  have hspells := spells_take_of_decode h hc
  rwa [List.take_length] at hspells

/-! ## White space -/

/-- A sequence of one of the code points of white space. -/
def SpellsWhiteSpace (e : Bytes) : Prop :=
  ∃ c ∈ whiteSpaces, Spells c e

theorem spellsWhiteSpace_cons_iff :
    SpellsWhiteSpace (lead :: rest) ↔ isSpaceCharacter lead rest = true := by
  rw [isSpaceCharacter, Bool.and_eq_true, beq_iff_eq]
  constructor
  · rintro ⟨c, hc, hspells⟩
    obtain ⟨_, _, heq, hdecode⟩ := hspells.decode_append []
    obtain ⟨rfl, rfl⟩ := List.cons.inj heq
    rw [List.append_nil] at hdecode
    rw [hdecode]
    exact ⟨rfl, mem_whiteSpaces_iff.1 hc⟩
  · rintro ⟨hlength, hwhite⟩
    refine ⟨_, mem_whiteSpaces_iff.2 hwhite, spells_of_decode (by rw [← hlength]) ?_⟩
    intro hreplacement
    rw [hreplacement] at hwhite
    cases hwhite

theorem SpellsWhiteSpace.exists_cons (h : SpellsWhiteSpace e) :
    ∃ lead rest, e = lead :: rest ∧ isSpaceCharacter lead rest = true := by
  obtain ⟨c, hc, hspells⟩ := h
  obtain ⟨lead, rest, rfl, -⟩ := hspells.decode_append []
  exact ⟨lead, rest, rfl, spellsWhiteSpace_cons_iff.1 ⟨c, hc, hspells⟩⟩

/-- Blank texts are sequences of white space, one after the other. -/
theorem blank_iff_exists_flatten :
    Blank s ↔ ∃ es : List Bytes, (∀ e ∈ es, SpellsWhiteSpace e) ∧ s = es.flatten := by
  constructor
  · intro h
    induction h with
    | nil => exact ⟨[], List.forall_mem_nil _, rfl⟩
    | @cons lead rest others hspace _ ih =>
      obtain ⟨es, hes, rfl⟩ := ih
      refine ⟨(lead :: rest) :: es, ?_, rfl⟩
      exact List.forall_mem_cons.2 ⟨spellsWhiteSpace_cons_iff.2 hspace, hes⟩
  · rintro ⟨es, hes, rfl⟩
    induction es with
    | nil => exact .nil
    | cons e es ih =>
      obtain ⟨he, hothers⟩ := List.forall_mem_cons.1 hes
      obtain ⟨lead, rest, rfl, hspace⟩ := he.exists_cons
      exact .cons hspace (ih hothers)

/-- A no-break space in two bytes, and overlong in three and in four. -/
example : Spells 0xA0 [0xC2, 0xA0] ∧ Spells 0xA0 [0xE0, 0x82, 0xA0] ∧
    Spells 0xA0 [0xF0, 0x80, 0x82, 0xA0] :=
  ⟨.sequence (k := ⟨0xC0, 32, 1⟩) (by decide) (by decide),
    .sequence (k := ⟨0xE0, 16, 2⟩) (by decide) (by decide),
    .sequence (k := ⟨0xF0, 8, 3⟩) (by decide) (by decide)⟩

end Repl.Text
