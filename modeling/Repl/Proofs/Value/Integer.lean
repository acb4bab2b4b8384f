import Mathlib.Data.Nat.Digits.Defs
import Mathlib.Tactic.Ring
import Repl.Proofs.Value.Word

/-!
Integers as texts spell them: a sign and digits, as many as there are. A type reads the integers of
its range, of any spelling, and no others; a minus sign is for signed types only, even in front of
zero.
-/

namespace Repl

variable {s t word digits : Bytes} {i : Int} {v : Value} {type : ValueType}

/-! ## Spelling -/

/-- The sign in front of a number. -/
inductive Sign where
  | none
  | plus
  | minus
  deriving DecidableEq, Repr

namespace Sign

def spelled : Sign → Bytes
  | none => []
  | plus => [Ascii.plus]
  | minus => [Ascii.minus]

/-- The number with a sign in front. -/
def apply {α : Type} [Neg α] : Sign → α → α
  | minus, a => -a
  | none, a | plus, a => a

end Sign

namespace Literal

/-- At least one digit, and nothing else. -/
def Digits (s : Bytes) : Prop :=
  s ≠ [] ∧ ∀ d ∈ s, isDigit d = true

instance (s : Bytes) : Decidable (Digits s) :=
  decidable_of_iff (s ≠ [] ∧ s.all isDigit = true) (and_congr_right fun _ => List.all_eq_true)

/-- The number that digits spell, by their places. -/
def number (digits : Bytes) : Nat :=
  Nat.ofDigits 10 (digits.reverse.map fun d => d.toNat - Ascii.zero.toNat)

/-- The word is a sign and the digits of an integer. -/
def SpellsInteger (sign : Sign) (word : Bytes) (i : Int) : Prop :=
  ∃ digits, Digits digits ∧ word = sign.spelled ++ digits ∧ i = sign.apply (number digits : Int)

theorem number_concat (digits : Bytes) (d : UInt8) :
    number (digits ++ [d]) = number digits * 10 + (d.toNat - Ascii.zero.toNat) := by
  rw [number, List.reverse_concat, List.map_cons, Nat.ofDigits_cons, ← number]
  ring

theorem digitsValue_eq_number (digits : Bytes) : digitsValue digits = number digits := by
  induction digits using List.reverseRecOn with
  | nil => rfl
  | append_singleton digits d ih =>
    rw [number_concat, ← ih, digitsValue, List.foldl_concat, ← digitsValue]

/-! ## Reading a spelling -/

/-- What is left of a text after its sign. -/
theorem exists_splitSign (s : Bytes) : ∃ (sign : Sign) (body : Bytes),
    splitSign s = (decide (sign = .minus), body) ∧ s = sign.spelled ++ body := by
  cases s with
  | nil => exact ⟨.none, [], rfl, rfl⟩
  | cons b rest =>
    by_cases hminus : b = Ascii.minus
    · exact ⟨.minus, rest, by rw [splitSign, if_pos hminus]; rfl, by rw [hminus]; rfl⟩
    by_cases hplus : b = Ascii.plus
    · exact ⟨.plus, rest, by rw [splitSign, if_neg hminus, if_pos hplus]; rfl, by rw [hplus]; rfl⟩
    · exact ⟨.none, b :: rest, by rw [splitSign, if_neg hminus, if_neg hplus]; rfl, rfl⟩

theorem splitSign_spelled {body : Bytes} (h : ∀ b ∈ body.head?, b ≠ Ascii.minus ∧ b ≠ Ascii.plus)
    (sign : Sign) : splitSign (sign.spelled ++ body) = (decide (sign = .minus), body) := by
  cases sign with
  | plus => rfl
  | minus => rfl
  | none =>
    cases body with
    | nil => rfl
    | cons b rest =>
      obtain ⟨hminus, hplus⟩ := h b rfl
      rw [Sign.spelled, List.nil_append, splitSign, if_neg hminus, if_neg hplus]
      rfl

theorem ne_sign_of_isDigit {b : UInt8} (h : isDigit b = true) : b ≠ Ascii.minus ∧ b ≠ Ascii.plus := by
  constructor
  · rintro rfl
    cases h
  · rintro rfl
    cases h

theorem Digits.head?_ne_sign (h : Digits digits) :
    ∀ b ∈ digits.head?, b ≠ Ascii.minus ∧ b ≠ Ascii.plus :=
  fun b hb => ne_sign_of_isDigit (h.2 b (List.mem_of_head? hb))

theorem digits_iff : Digits digits ↔ ¬(digits.isEmpty || !digits.all isDigit) = true := by
  rw [Digits]
  simp

theorem integer?_of_splitSign {sign : Sign} {body : Bytes}
    (h : splitSign s = (decide (sign = .minus), body)) :
    integer? s = some i ↔ Digits body ∧ i = sign.apply (number body : Int) := by
  rw [integer?, h, digits_iff]
  dsimp only
  rw [digitsValue_eq_number]
  split
  · rename_i hbad
    exact iff_of_false nofun fun h => h.1 hbad
  · rename_i hdigits
    cases sign <;> simp [Sign.apply, hdigits, eq_comm]

theorem integer?_eq_some_iff : integer? word = some i ↔ ∃ sign, SpellsInteger sign word i := by
  constructor
  · intro h
    obtain ⟨sign, body, hsplit, hword⟩ := exists_splitSign word
    obtain ⟨hdigits, hi⟩ := (integer?_of_splitSign hsplit).1 h
    exact ⟨sign, body, hdigits, hword, hi⟩
  · rintro ⟨sign, digits, hdigits, rfl, hi⟩
    have hsplit := splitSign_spelled hdigits.head?_ne_sign sign
    exact (integer?_of_splitSign hsplit).2 ⟨hdigits, hi⟩

/-! ## White space and signs -/

theorem isSpace_eq_false_of_isDigit {b : UInt8} (h : isDigit b = true) : Value.isSpace b = false := by
  have hzero : 48 ≤ b.toNat := by
    rw [isDigit, Bool.and_eq_true] at h
    exact UInt8.le_iff_toNat_le.1 (of_decide_eq_true h.1)
  have hspace : ∀ b : UInt8, Value.isSpace b = true → b.toNat ≤ 32 := by
    intro b hb
    rw [Value.isSpace, Bool.or_eq_true, Bool.and_eq_true, beq_iff_eq] at hb
    obtain rfl | ⟨-, hb⟩ := hb
    · rfl
    · exact (UInt8.le_iff_toNat_le.1 (of_decide_eq_true hb)).trans (by decide)
  exact Bool.eq_false_iff.2 fun hb => absurd (hspace b hb) (by omega)

theorem isSpace_of_mem_digits (h : ∀ d ∈ digits, isDigit d = true) :
    ∀ b ∈ digits, Value.isSpace b = false :=
  fun b hb => isSpace_eq_false_of_isDigit (h b hb)

theorem isSpace_of_mem_spelled (sign : Sign) : ∀ b ∈ sign.spelled, Value.isSpace b = false := by
  cases sign with
  | none => exact List.forall_mem_nil _
  | plus => exact List.forall_mem_singleton.2 rfl
  | minus => exact List.forall_mem_singleton.2 rfl

theorem SpellsInteger.visible {sign : Sign} (h : SpellsInteger sign word i) :
    ∀ b ∈ word, Value.isSpace b = false := by
  obtain ⟨digits, hdigits, rfl, -⟩ := h
  exact List.forall_mem_append.2 ⟨isSpace_of_mem_spelled sign, isSpace_of_mem_digits hdigits.2⟩

theorem SpellsInteger.head?_eq_minus_iff {sign : Sign} (h : SpellsInteger sign word i) :
    word.head? = some Ascii.minus ↔ sign = .minus := by
  obtain ⟨digits, hdigits, rfl, -⟩ := h
  cases sign with
  | plus => exact iff_of_false nofun nofun
  | minus => exact iff_of_true rfl rfl
  | none =>
    refine iff_of_false (fun hminus => ?_) nofun
    exact (hdigits.head?_ne_sign _ hminus).1 rfl

end Literal

/-! ## Integer types -/

namespace ValueType

open Value Literal

/-- The types of integers, truth values among them. -/
inductive IsInteger : ValueType → Prop where
  | signed (bits : Nat) : IsInteger (signed bits)
  | unsigned (bits : Nat) : IsInteger (unsigned bits)
  | bool : IsInteger bool

/-- The integer is in the range of the type, and the value stands for it. -/
inductive Represents : ValueType → Int → Value → Prop where
  | signed {bits : Nat} {i : Int} (low : -2 ^ (bits - 1) ≤ i) (high : i < 2 ^ (bits - 1)) :
    Represents (signed bits) i (.integer i)
  | unsigned {bits : Nat} {i : Int} (low : 0 ≤ i) (high : i < 2 ^ bits) :
    Represents (unsigned bits) i (.integer i)
  | no : Represents bool 0 (.bool false)
  | yes : Represents bool 1 (.bool true)

/-- The word spells an integer that the value stands for, with a minus sign for signed types only. -/
def AcceptsInteger (type : ValueType) (word : Bytes) (v : Value) : Prop :=
  ∃ sign i, SpellsInteger sign word i ∧ type.Represents i v ∧
    (sign = .minus → ∃ bits, type = .signed bits)

theorem represents_signed_iff {bits : Nat} : (signed bits).Represents i v ↔
    -(Nat.pow 2 (bits - 1) : Int) ≤ i ∧ i ≤ (Nat.pow 2 (bits - 1) : Int) - 1 ∧ .integer i = v := by
  have hpow : (Nat.pow 2 (bits - 1) : Int) = 2 ^ (bits - 1) := Nat.cast_pow 2 (bits - 1)
  rw [hpow]
  constructor
  · intro h
    cases h with
    | signed low high => exact ⟨low, Int.le_sub_one_of_lt high, rfl⟩
  · rintro ⟨low, high, rfl⟩
    exact .signed low (Int.lt_of_le_sub_one high)

theorem represents_unsigned_iff {bits : Nat} : (unsigned bits).Represents i v ↔
    0 ≤ i ∧ i ≤ (Nat.pow 2 bits : Int) - 1 ∧ .integer i = v := by
  have hpow : (Nat.pow 2 bits : Int) = 2 ^ bits := Nat.cast_pow 2 bits
  rw [hpow]
  constructor
  · intro h
    cases h with
    | unsigned low high => exact ⟨low, Int.le_sub_one_of_lt high, rfl⟩
  · rintro ⟨low, high, rfl⟩
    exact .unsigned low (Int.lt_of_le_sub_one high)

theorem represents_bool_iff : bool.Represents i v ↔ 0 ≤ i ∧ i ≤ 1 ∧ .bool (i == 1) = v := by
  constructor
  · rintro ⟨⟩ <;> exact ⟨by decide, by decide, rfl⟩
  · rintro ⟨_, _, rfl⟩
    obtain rfl | rfl : i = 0 ∨ i = 1 := by omega
    · exact .no
    · exact .yes

theorem map_integerBetween?_eq_some_iff {low high : Int} {f : Int → Value} :
    (integerBetween? low high word).map f = some v ↔
      ∃ sign i, SpellsInteger sign word i ∧ low ≤ i ∧ i ≤ high ∧ f i = v := by
  simp only [integerBetween?, Option.map_eq_some_iff, Option.filter_eq_some_iff,
    integer?_eq_some_iff, Bool.and_eq_true, decide_eq_true_eq]
  constructor
  · rintro ⟨i, ⟨⟨sign, hspells⟩, hlow, hhigh⟩, hv⟩
    exact ⟨sign, i, hspells, hlow, hhigh, hv⟩
  · rintro ⟨sign, i, hspells, hlow, hhigh, hv⟩
    exact ⟨i, ⟨⟨sign, hspells⟩, hlow, hhigh⟩, hv⟩

/-- A type that refuses minus signs accepts what other signs spell. -/
theorem acceptsInteger_iff_of_unsigned (h : ∀ bits, type ≠ signed bits) :
    type.AcceptsInteger word v ↔ word.head? ≠ some Ascii.minus ∧
      ∃ sign i, SpellsInteger sign word i ∧ type.Represents i v := by
  constructor
  · rintro ⟨sign, i, hspells, hv, hsign⟩
    refine ⟨fun hminus => ?_, sign, i, hspells, hv⟩
    obtain ⟨bits, hbits⟩ := hsign (hspells.head?_eq_minus_iff.1 hminus)
    exact h bits hbits
  · rintro ⟨hhead, sign, i, hspells, hv⟩
    exact ⟨sign, i, hspells, hv, fun hminus => absurd (hspells.head?_eq_minus_iff.2 hminus) hhead⟩

theorem ofWord?_integer_eq_some_iff (h : type.IsInteger) :
    type.ofWord? word = some v ↔ type.AcceptsInteger word v := by
  -- Types without negative values refuse the sign before they read any digits.
  cases h with
  | signed bits =>
    have hword : (signed bits).ofWord? word = (integerBetween? (-(Nat.pow 2 (bits - 1) : Int))
        ((Nat.pow 2 (bits - 1) : Int) - 1) word).map .integer := rfl
    rw [hword, map_integerBetween?_eq_some_iff]
    simp only [← represents_signed_iff]
    exact exists₂_congr fun sign i =>
      and_congr_right fun _ => (and_iff_left fun _ => ⟨bits, rfl⟩).symm
  | unsigned bits =>
    have hword : (unsigned bits).ofWord? word = if word.head? == some Ascii.minus then none
        else (integerBetween? 0 ((Nat.pow 2 bits : Int) - 1) word).map .integer := rfl
    rw [hword, unlessMinus_eq_some_iff, map_integerBetween?_eq_some_iff]
    simp only [← represents_unsigned_iff]
    exact Iff.symm (acceptsInteger_iff_of_unsigned nofun)
  | bool =>
    have hword : bool.ofWord? word = if word.head? == some Ascii.minus then none
        else (integerBetween? 0 1 word).map fun i => .bool (i == 1) := rfl
    rw [hword, unlessMinus_eq_some_iff, map_integerBetween?_eq_some_iff]
    simp only [← represents_bool_iff]
    exact Iff.symm (acceptsInteger_iff_of_unsigned nofun)

/-- An integer type reads the texts that hold a sign and digits that spell an integer of its range,
as the value that stands for it, and refuses all others. -/
theorem parse_integer (h : type.IsInteger) (t : Bytes) :
    (∀ v, type.parse t = .ok v ↔ ∃ word, HoldsWord t word ∧ type.AcceptsInteger word v) ∧
    ∀ message, type.parse t = .error message ↔
      (∀ v, type.parse t ≠ .ok v) ∧ message = refusal t := by
  have hvisible (word : Bytes) (v : Value) (haccepts : type.AcceptsInteger word v) :
      ∀ b ∈ word, isSpace b = false := by
    obtain ⟨_, _, hspells, -⟩ := haccepts
    exact hspells.visible
  have htype : type ≠ text := by
    rintro rfl
    cases h
  refine ⟨fun v => ?_, fun message => parse_eq_error_iff⟩
  exact parse_eq_ok_iff_exists_word htype (fun word v => ofWord?_integer_eq_some_iff h) hvisible

/-- The least integer of sixteen bits, with a leading zero and a line end. -/
theorem parse_least_short : (signed 16).IsInteger ∧
    (signed 16).parse (ascii " -032768\r\n") = .ok (.integer (-32768)) := by
  have htype : (signed 16).IsInteger := .signed 16
  have hspells : SpellsInteger .minus (ascii "-032768") (-32768) :=
    ⟨ascii "032768", by decide, rfl, rfl⟩
  have haccepts : (signed 16).AcceptsInteger (ascii "-032768") (.integer (-32768)) :=
    ⟨.minus, -32768, hspells, .signed (by decide) (by decide), fun _ => ⟨16, rfl⟩⟩
  have hword : HoldsWord (ascii " -032768\r\n") (ascii "-032768") :=
    ⟨ascii " ", ascii "\r\n", by decide, by decide, rfl⟩
  exact ⟨htype, ((parse_integer htype _).1 _).2 ⟨_, hword, haccepts⟩⟩

end ValueType

end Repl
