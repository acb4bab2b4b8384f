import Mathlib.Data.Nat.Digits.Defs
import Mathlib.Tactic.FieldSimp
import Repl.Proofs.Number.Nearest
import Repl.Proofs.Value.Integer

/-!
Decimals as texts spell them: a sign, digits with a point somewhere, and an exponent. A
floating-point type reads those whose exact value is below its limit, however small it is, and no
others: neither an exponent without digits nor the name of a value that is no number.
-/

namespace Repl

variable {t word body rest whole fraction mantissa digits : Bytes} {e : Int} {d : Decimal}
  {f : BinaryFormat} {q : ℚ} {type : ValueType}

namespace Literal

/-! ## Spelling -/

/-- The digits before the point of a mantissa and those after it. There is one of them at least, and
a point without digits after it needs some in front. -/
inductive Mantissa : Bytes → Bytes → Bytes → Prop where
  | whole {whole : Bytes} (h : Digits whole) : Mantissa whole whole []
  | point {whole fraction : Bytes} (h : Digits whole) (hfraction : ∀ d ∈ fraction, isDigit d = true) :
    Mantissa (whole ++ Ascii.period :: fraction) whole fraction
  | fraction {fraction : Bytes} (h : Digits fraction) :
    Mantissa (Ascii.period :: fraction) [] fraction

/-- The exponent at the end of a decimal, if there is one, or zero. -/
inductive Exponent : Bytes → Int → Prop where
  | absent : Exponent [] 0
  | present {letter : UInt8} {sign : Sign} {word : Bytes} {e : Int}
    (hletter : letter = Ascii.smallE ∨ letter = Ascii.capitalE) (h : SpellsInteger sign word e) :
    Exponent (letter :: word) e

/-- The exact value of a decimal without its sign. -/
def magnitude (whole fraction : Bytes) (e : Int) : ℚ :=
  (number whole + number fraction / 10 ^ fraction.length) * 10 ^ e

/-- A mantissa and an exponent. -/
def SpellsMagnitude (body whole fraction : Bytes) (e : Int) : Prop :=
  ∃ mantissa exponent, Mantissa mantissa whole fraction ∧ Exponent exponent e ∧
    body = mantissa ++ exponent

/-- The word is a sign, a mantissa and an exponent, which denote the number. -/
def SpellsDecimal (word : Bytes) (q : ℚ) : Prop :=
  ∃ (sign : Sign) (body whole fraction : Bytes) (e : Int), SpellsMagnitude body whole fraction e ∧
    word = sign.spelled ++ body ∧ q = sign.apply (magnitude whole fraction e)

/-! ## Values -/

theorem number_append (whole fraction : Bytes) :
    number (whole ++ fraction) = number whole * 10 ^ fraction.length + number fraction := by
  rw [number, List.reverse_append, List.map_append, Nat.ofDigits_append, List.length_map,
    List.length_reverse, ← number, ← number]
  ring

/-- The digits around a point are those of one number, which the point scales. -/
theorem magnitude_eq (whole fraction : Bytes) (e : Int) :
    magnitude whole fraction e = number (whole ++ fraction) * 10 ^ (e - fraction.length) := by
  rw [magnitude, number_append, zpow_sub₀ (by norm_num), zpow_natCast]
  push_cast
  field_simp

theorem magnitude_nonneg (whole fraction : Bytes) (e : Int) : 0 ≤ magnitude whole fraction e := by
  rw [magnitude_eq]
  positivity

theorem abs_apply (sign : Sign) (whole fraction : Bytes) (e : Int) :
    |sign.apply (magnitude whole fraction e)| = magnitude whole fraction e := by
  have habs := abs_of_nonneg (magnitude_nonneg whole fraction e)
  cases sign with
  | none => exact habs
  | plus => exact habs
  | minus => rw [Sign.apply, abs_neg, habs]

/-! ## Reading a spelling -/

theorem takeWhile_digits_append (hdigits : ∀ d ∈ digits, isDigit d = true)
    (hrest : ∀ b ∈ rest.head?, isDigit b = false) :
    (digits ++ rest).takeWhile isDigit = digits ∧ (digits ++ rest).dropWhile isDigit = rest := by
  rw [List.takeWhile_append_of_pos hdigits, List.dropWhile_append_of_pos hdigits]
  cases rest with
  | nil => exact ⟨List.append_nil _, rfl⟩
  | cons b rest =>
    have hb : ¬isDigit b = true := Bool.eq_false_iff.1 (hrest b rfl)
    rw [List.takeWhile_cons_of_neg hb, List.dropWhile_cons_of_neg hb]
    exact ⟨List.append_nil _, rfl⟩

theorem splitFraction_of_head?_ne (h : ∀ b ∈ rest.head?, b ≠ Ascii.period) :
    splitFraction rest = ([], rest) := by
  cases rest with
  | nil => rfl
  | cons b rest => exact if_neg (h b rfl)

/-- What follows a mantissa is where its digits end. -/
theorem Mantissa.split (h : Mantissa mantissa whole fraction)
    (hrest : ∀ b ∈ rest.head?, isDigit b = false ∧ b ≠ Ascii.period) :
    (mantissa ++ rest).takeWhile isDigit = whole ∧
      splitFraction ((mantissa ++ rest).dropWhile isDigit) = (fraction, rest) := by
  have hdigit (b : UInt8) (hb : b ∈ rest.head?) : isDigit b = false := (hrest b hb).1
  cases h with
  | whole hwhole =>
    obtain ⟨htake, hdrop⟩ := takeWhile_digits_append hwhole.2 hdigit
    rw [hdrop]
    exact ⟨htake, splitFraction_of_head?_ne fun b hb => (hrest b hb).2⟩
  | point hwhole hfraction =>
    -- The digits in front end at the point, and those behind it where the mantissa does.
    have hpoint (b : UInt8) (hb : b ∈ (Ascii.period :: (fraction ++ rest)).head?) :
        isDigit b = false := by
      cases hb
      rfl
    obtain ⟨htake, hdrop⟩ := takeWhile_digits_append hwhole.2 hpoint
    obtain ⟨htake', hdrop'⟩ := takeWhile_digits_append hfraction hdigit
    rw [List.append_assoc, List.cons_append, htake, hdrop]
    exact ⟨rfl, Prod.ext htake' hdrop'⟩
  | fraction hfraction =>
    obtain ⟨htake, hdrop⟩ := takeWhile_digits_append hfraction.2 hdigit
    exact ⟨rfl, Prod.ext htake hdrop⟩

theorem forall_isDigit_takeWhile (s : Bytes) : ∀ d ∈ s.takeWhile isDigit, isDigit d = true :=
  fun _ => List.mem_takeWhile_imp

/-- Digits, with a point among them or not, are a mantissa if there are any. -/
theorem exists_mantissa (hsplit : splitFraction (body.dropWhile isDigit) = (fraction, rest))
    (hdigits : body.takeWhile isDigit ≠ [] ∨ fraction ≠ []) :
    ∃ mantissa, Mantissa mantissa (body.takeWhile isDigit) fraction ∧ body = mantissa ++ rest := by
  have hbody : body = body.takeWhile isDigit ++ body.dropWhile isDigit :=
    List.takeWhile_append_dropWhile.symm
  have hwhole := forall_isDigit_takeWhile body
  generalize body.takeWhile isDigit = whole at *
  cases hafter : body.dropWhile isDigit with
  | nil =>
    rw [hafter] at hsplit hbody
    cases hsplit
    exact ⟨whole, .whole ⟨hdigits.resolve_right (fun h => h rfl), hwhole⟩, hbody⟩
  | cons b after =>
    rw [hafter] at hsplit hbody
    by_cases hpoint : b = Ascii.period
    · -- Without digits in front of the point, there are some behind it.
      rw [splitFraction, if_pos hpoint, Prod.mk.injEq] at hsplit
      obtain ⟨rfl, rfl⟩ := hsplit
      have hfraction := forall_isDigit_takeWhile after
      rw [hpoint, ← List.takeWhile_append_dropWhile (p := isDigit) (l := after)] at hbody
      generalize after.takeWhile isDigit = fraction at *
      by_cases hempty : whole = []
      · refine ⟨Ascii.period :: fraction, ?_, ?_⟩
        · rw [hempty]
          exact .fraction ⟨hdigits.resolve_left (fun h => h hempty), hfraction⟩
        · rw [hbody, hempty]
          rfl
      · refine ⟨whole ++ Ascii.period :: fraction, .point ⟨hempty, hwhole⟩ hfraction, ?_⟩
        rw [hbody, List.append_assoc, List.cons_append]
    · rw [splitFraction, if_neg hpoint, Prod.mk.injEq] at hsplit
      obtain ⟨rfl, rfl⟩ := hsplit
      exact ⟨whole, .whole ⟨hdigits.resolve_right (fun h => h rfl), hwhole⟩, hbody⟩

theorem Mantissa.ne_nil (h : Mantissa mantissa whole fraction) : whole ≠ [] ∨ fraction ≠ [] := by
  cases h with
  | whole hwhole => exact .inl hwhole.1
  | point hwhole _ => exact .inl hwhole.1
  | fraction hfraction => exact .inr hfraction.1

theorem exponent?_eq_some_iff : exponent? rest = some e ↔ Exponent rest e := by
  constructor
  · intro h
    cases rest with
    | nil =>
      cases h
      exact .absent
    | cons letter word =>
      rw [exponent?, Option.ite_none_right_eq_some, integer?_eq_some_iff] at h
      obtain ⟨hletter, sign, hspells⟩ := h
      exact .present hletter hspells
  · intro h
    cases h with
    | absent => rfl
    | present hletter hspells =>
      rw [exponent?, if_pos hletter]
      exact integer?_eq_some_iff.2 ⟨_, hspells⟩

theorem Exponent.head?_stops (h : Exponent rest e) :
    ∀ b ∈ rest.head?, isDigit b = false ∧ b ≠ Ascii.period := by
  intro b hb
  cases h with
  | absent => cases hb
  | present hletter _ =>
    cases hb
    obtain rfl | rfl := hletter <;> exact ⟨rfl, by decide⟩

theorem Mantissa.head?_ne_sign (h : Mantissa mantissa whole fraction) (rest : Bytes) :
    ∀ b ∈ (mantissa ++ rest).head?, b ≠ Ascii.minus ∧ b ≠ Ascii.plus := by
  have hdigits {digits : Bytes} (hdigits : Digits digits) (rest : Bytes) :
      ∀ b ∈ (digits ++ rest).head?, b ≠ Ascii.minus ∧ b ≠ Ascii.plus := by
    rw [List.head?_append_of_ne_nil _ hdigits.1]
    exact hdigits.head?_ne_sign
  cases h with
  | whole hwhole => exact hdigits hwhole rest
  | point hwhole _ =>
    rw [List.append_assoc]
    exact hdigits hwhole _
  | fraction _ =>
    intro b hb
    cases hb
    decide

theorem decimal?_of_splitSign {s : Bytes} {sign : Sign}
    (h : splitSign s = (decide (sign = .minus), body)) :
    decimal? s = some d ↔ ∃ whole fraction e, SpellsMagnitude body whole fraction e ∧
      d = ⟨decide (sign = .minus), number (whole ++ fraction), e - fraction.length⟩ := by
  rw [decimal?, h]
  dsimp only
  constructor
  · intro hread
    cases hsplit : splitFraction (body.dropWhile isDigit) with
    | mk fraction rest =>
    rw [hsplit, Option.ite_none_left_eq_some, Option.map_eq_some_iff] at hread
    obtain ⟨hdigits, e, he, rfl⟩ := hread
    rw [Bool.and_eq_true, List.isEmpty_iff, List.isEmpty_iff, not_and_or] at hdigits
    obtain ⟨mantissa, hmantissa, hbody⟩ := exists_mantissa hsplit hdigits
    refine ⟨_, fraction, e, ⟨mantissa, rest, hmantissa, exponent?_eq_some_iff.1 he, hbody⟩, ?_⟩
    rw [digitsValue_eq_number]
  · rintro ⟨whole, fraction, e, ⟨mantissa, exponent, hmantissa, hexponent, rfl⟩, rfl⟩
    obtain ⟨hwhole, hsplit⟩ := hmantissa.split hexponent.head?_stops
    rw [hwhole, hsplit, Option.ite_none_left_eq_some, Option.map_eq_some_iff]
    refine ⟨?_, e, exponent?_eq_some_iff.2 hexponent, by rw [digitsValue_eq_number]⟩
    rw [Bool.and_eq_true, List.isEmpty_iff, List.isEmpty_iff, not_and_or]
    exact hmantissa.ne_nil

theorem decimal?_eq_some_iff : decimal? word = some d ↔
    ∃ (sign : Sign) (body whole fraction : Bytes) (e : Int),
      SpellsMagnitude body whole fraction e ∧ word = sign.spelled ++ body ∧
        d = ⟨decide (sign = .minus), number (whole ++ fraction), e - fraction.length⟩ := by
  constructor
  · intro h
    obtain ⟨sign, body, hsplit, hword⟩ := exists_splitSign word
    obtain ⟨whole, fraction, e, hspells, hd⟩ := (decimal?_of_splitSign hsplit).1 h
    exact ⟨sign, body, whole, fraction, e, hspells, hword, hd⟩
  · rintro ⟨sign, body, whole, fraction, e, hspells, rfl, hd⟩
    have hsign : ∀ b ∈ body.head?, b ≠ Ascii.minus ∧ b ≠ Ascii.plus := by
      obtain ⟨mantissa, exponent, hmantissa, -, rfl⟩ := hspells
      exact hmantissa.head?_ne_sign exponent
    exact (decimal?_of_splitSign (splitSign_spelled hsign sign)).2 ⟨whole, fraction, e, hspells, hd⟩

/-! ## White space -/

theorem Mantissa.visible (h : Mantissa mantissa whole fraction) :
    ∀ b ∈ mantissa, Value.isSpace b = false := by
  cases h with
  | whole hwhole => exact isSpace_of_mem_digits hwhole.2
  | point hwhole hfraction =>
    have hbehind : ∀ b ∈ Ascii.period :: fraction, Value.isSpace b = false :=
      List.forall_mem_cons.2 ⟨rfl, isSpace_of_mem_digits hfraction⟩
    exact List.forall_mem_append.2 ⟨isSpace_of_mem_digits hwhole.2, hbehind⟩
  | fraction hfraction => exact List.forall_mem_cons.2 ⟨rfl, isSpace_of_mem_digits hfraction.2⟩

theorem Exponent.visible (h : Exponent rest e) : ∀ b ∈ rest, Value.isSpace b = false := by
  cases h with
  | absent => exact List.forall_mem_nil _
  | present hletter hspells =>
    refine List.forall_mem_cons.2 ⟨?_, hspells.visible⟩
    obtain rfl | rfl := hletter <;> rfl

theorem SpellsDecimal.visible (h : SpellsDecimal word q) : ∀ b ∈ word, Value.isSpace b = false := by
  obtain ⟨sign, _, _, _, _, ⟨mantissa, exponent, hmantissa, hexponent, rfl⟩, rfl, -⟩ := h
  have hbody := List.forall_mem_append.2 ⟨hmantissa.visible, hexponent.visible⟩
  exact List.forall_mem_append.2 ⟨isSpace_of_mem_spelled sign, hbody⟩

end Literal

/-! ## Floating-point types -/

namespace Value

open Literal

theorem floatBits?_eq_some_iff {bits : Nat} : floatBits? f word = some bits ↔
    ∃ d, decimal? word = some d ∧ f.roundDecimal d.coefficient d.exponent < f.infinity ∧
      (if d.negative then f.signBit + f.roundDecimal d.coefficient d.exponent
        else f.roundDecimal d.coefficient d.exponent) = bits := by
  rw [floatBits?]
  cases decimal? word with
  | none => exact iff_of_false nofun nofun
  | some d =>
    rw [Option.ite_none_left_eq_some, Nat.not_le, Option.some.injEq]
    simp only [Option.some.injEq, exists_eq_left']

/-- A format holds the decimals below its limit. -/
theorem isSome_floatBits?_iff (hf : f.Interchange) : (floatBits? f word).isSome = true ↔
    ∃ q, SpellsDecimal word q ∧ |q| < f.limit := by
  have hlimit (sign : Sign) (whole fraction : Bytes) (e : Int) :
      f.roundDecimal (number (whole ++ fraction)) (e - fraction.length) < f.infinity ↔
        |sign.apply (magnitude whole fraction e)| < f.limit := by
    rw [f.roundDecimal_lt_infinity_iff hf, abs_apply, magnitude_eq]
  rw [Option.isSome_iff_exists]
  constructor
  · rintro ⟨bits, hbits⟩
    obtain ⟨d, hread, hfinite, -⟩ := floatBits?_eq_some_iff.1 hbits
    obtain ⟨sign, body, whole, fraction, e, hspells, hword, rfl⟩ := decimal?_eq_some_iff.1 hread
    exact ⟨_, ⟨sign, body, whole, fraction, e, hspells, hword, rfl⟩, (hlimit _ _ _ _).1 hfinite⟩
  · rintro ⟨q, ⟨sign, body, whole, fraction, e, hspells, hword, rfl⟩, hq⟩
    have hread := decimal?_eq_some_iff.2 ⟨sign, body, whole, fraction, e, hspells, hword, rfl⟩
    exact ⟨_, floatBits?_eq_some_iff.2 ⟨_, hread, (hlimit _ _ _ _).2 hq, rfl⟩⟩

/-- What is read as a decimal is rounded to a nearest value of the format, with its sign. -/
theorem represents_of_floatBits? (hf : f.Interchange) {bits : Nat}
    (h : floatBits? f word = some bits) : ∃ q, SpellsDecimal word q ∧ f.Represents q bits := by
  obtain ⟨d, hread, hfinite, hbits⟩ := floatBits?_eq_some_iff.1 h
  obtain ⟨sign, body, whole, fraction, e, hspells, hword, rfl⟩ := decimal?_eq_some_iff.1 hread
  refine ⟨_, ⟨sign, body, whole, fraction, e, hspells, hword, rfl⟩, _, hfinite, ?_, ?_⟩
  · rw [abs_apply, magnitude_eq]
    exact f.roundDecimal_roundsTo hf hfinite
  · have hnonneg := magnitude_nonneg whole fraction e
    cases sign with
    | none => exact .inl ⟨hnonneg, hbits.symm⟩
    | plus => exact .inl ⟨hnonneg, hbits.symm⟩
    | minus => exact .inr ⟨neg_nonpos.2 hnonneg, hbits.symm⟩

end Value

namespace ValueType

open Value Literal

/-- The type reads the texts that hold a decimal whose exact value is below the limit, and refuses
all others. -/
def ReadsDecimals (type : ValueType) (limit : ℚ) (t : Bytes) : Prop :=
  ((∃ v, type.parse t = .ok v) ↔ ∃ word q, HoldsWord t word ∧ SpellsDecimal word q ∧ |q| < limit) ∧
    ∀ message, type.parse t = .error message ↔
      (∀ v, type.parse t ≠ .ok v) ∧ message = refusal t

/-- A type that reads words as bit patterns of a format reads decimals below the format's limit. -/
theorem readsDecimals_limit (hf : f.Interchange) (htype : type ≠ text) {ofBits : Nat → Value}
    (hword : ∀ word, type.ofWord? word = (floatBits? f word).map ofBits) (t : Bytes) :
    type.ReadsDecimals f.limit t := by
  refine ⟨?_, fun message => parse_eq_error_iff⟩
  have hvisible (word : Bytes) (h : ∃ q, SpellsDecimal word q ∧ |q| < f.limit) :
      ∀ b ∈ word, isSpace b = false := by
    obtain ⟨_, hspells, -⟩ := h
    exact hspells.visible
  calc (∃ v, type.parse t = .ok v) ↔ (type.ofWord? (strip t)).isSome = true := by
        simp only [parse_eq_ok_iff htype, Option.isSome_iff_exists]
    _ ↔ (floatBits? f (strip t)).isSome = true := by rw [hword, Option.isSome_map]
    _ ↔ ∃ q, SpellsDecimal (strip t) q ∧ |q| < f.limit := isSome_floatBits?_iff hf
    _ ↔ ∃ word, HoldsWord t word ∧ ∃ q, SpellsDecimal word q ∧ |q| < f.limit :=
        (exists_holdsWord_iff hvisible).symm
    _ ↔ ∃ word q, HoldsWord t word ∧ SpellsDecimal word q ∧ |q| < f.limit := by
        simp only [exists_and_left]

/-- A floating-point type reads the decimals that round to a value of its format: those below the
middle between its greatest value and the next power of two. -/
theorem parse_decimal (t : Bytes) :
    float64.ReadsDecimals (2 ^ 1024 - 2 ^ 970) t ∧ float32.ReadsDecimals (2 ^ 128 - 2 ^ 103) t := by
  have hdouble : float64.ReadsDecimals BinaryFormat.binary64.limit t :=
    readsDecimals_limit BinaryFormat.interchange_binary64 (by decide) (fun _ => rfl) t
  have hsingle : float32.ReadsDecimals BinaryFormat.binary32.limit t :=
    readsDecimals_limit BinaryFormat.interchange_binary32 (by decide) (fun _ => rfl) t
  rw [BinaryFormat.cast_limit] at hdouble hsingle
  exact ⟨hdouble, hsingle⟩

-- The middle above the greatest value is refused, and what is just below it is read as that value.
example : float32.parse (ascii "340282356779733661637539395458142568448") =
      .error (ascii "invalid value '340282356779733661637539395458142568448'") ∧
    float32.parse (ascii "3402823567797336616375393954581425684.47999e2\n") =
      .ok (.float32 0x7f7fffff) := by
  decide

end ValueType

end Repl
