import Mathlib.Algebra.Order.Field.Power
import Mathlib.Tactic.Linarith
import Mathlib.Tactic.Ring
import Repl.Number.BinaryFormat

/-!
Rounding to a binary format, exactly. A quotient goes to the nearest natural number, and a format
takes what is below the middle between its greatest value and the power of two above it. Both
shortcuts of decimals agree with that, however long the decimals are.
-/

namespace Repl

variable {num den n : Nat}

/-! ## Quotients -/

/-- What rounds to at most `n` is what lies below the middle between `n` and the next number, or on
it if `n` is even. -/
theorem roundHalfEven_le_iff (hden : 0 < den) : roundHalfEven num den ≤ n ↔
    2 * num < (2 * n + 1) * den ∨ 2 * num = (2 * n + 1) * den ∧ n % 2 = 0 := by
  have hsplit : den * (num / den) + num % den = num := Nat.div_add_mod num den
  have hlt : num % den < den := Nat.mod_lt num hden
  have hmiddle : (2 * n + 1) * den = 2 * (den * n) + den := by ring
  rw [roundHalfEven, hmiddle]
  generalize num / den = quotient at *
  generalize num % den = remainder at *
  obtain hbelow | rfl | habove := Nat.lt_trichotomy quotient n
  · have hproduct : den * quotient + den ≤ den * n := by
      rw [← Nat.mul_succ]
      exact Nat.mul_le_mul_left den hbelow
    split_ifs <;> omega
  · split_ifs <;> omega
  · have hproduct : den * n + den ≤ den * quotient := by
      rw [← Nat.mul_succ]
      exact Nat.mul_le_mul_left den habove
    split_ifs <;> omega

/-- The middle below an even number is rounded up to it. -/
theorem roundHalfEven_lt_iff_of_even (hden : 0 < den) (hpos : 0 < n) (heven : n % 2 = 0) :
    roundHalfEven num den < n ↔ 2 * num < (2 * n - 1) * den := by
  obtain ⟨before, rfl⟩ := Nat.exists_eq_succ_of_ne_zero hpos.ne'
  have hodd : ¬before % 2 = 0 := by omega
  have hmiddle : 2 * (before + 1) - 1 = 2 * before + 1 := by omega
  rw [Nat.lt_succ_iff, roundHalfEven_le_iff hden, or_iff_left fun h => hodd h.2, hmiddle]

theorem roundHalfEven_le (hden : 0 < den) (h : num ≤ n * den) : roundHalfEven num den ≤ n := by
  refine (roundHalfEven_le_iff hden).2 (.inl ?_)
  calc 2 * num ≤ 2 * (n * den) := Nat.mul_le_mul_left 2 h
    _ < 2 * (n * den) + den := Nat.lt_add_of_pos_right hden
    _ = (2 * n + 1) * den := by ring

theorem le_roundHalfEven (hden : 0 < den) (h : n * den ≤ num) : n ≤ roundHalfEven num den := by
  cases n with
  | zero => exact Nat.zero_le _
  | succ n =>
    rw [Nat.succ_le_iff, ← Nat.not_le, roundHalfEven_le_iff hden]
    have hmiddle : (2 * n + 1) * den = 2 * (n * den) + den := by ring
    have hnext : (n + 1) * den = n * den + den := Nat.succ_mul n den
    omega

/-! ## Formats -/

namespace BinaryFormat

/-- The sizes of an interchange format: its exponents are balanced, and it holds more of them than
its significands have bits. -/
structure Interchange (f : BinaryFormat) : Prop where
  one_lt_precision : 1 < f.precision
  balanced : f.minExponent + 3 = 2 ^ (f.exponentBits - 1) + f.precision
  precision_lt : f.precision < 2 ^ (f.exponentBits - 1)

theorem interchange_binary32 : binary32.Interchange :=
  ⟨by decide, by decide, by decide⟩

theorem interchange_binary64 : binary64.Interchange :=
  ⟨by decide, by decide, by decide⟩

/-- The middle between the greatest value of a format and the power of two above it. -/
def limit (f : BinaryFormat) : Nat :=
  2 ^ 2 ^ (f.exponentBits - 1) - 2 ^ (2 ^ (f.exponentBits - 1) - f.precision - 1)

variable {f : BinaryFormat}

theorem fieldUnit_pos : 0 < f.fieldUnit :=
  Nat.two_pow_pos _

namespace Interchange

theorem precision_pos (hf : f.Interchange) : 0 < f.precision :=
  Nat.zero_lt_of_lt hf.one_lt_precision

theorem two_mul_fieldUnit (hf : f.Interchange) : 2 * f.fieldUnit = 2 ^ f.precision := by
  rw [← Nat.sub_add_cancel hf.precision_pos, pow_succ']
  rfl

/-- The bit patterns of finite values, by the greatest shift of a significand. -/
theorem infinity_eq (hf : f.Interchange) :
    f.infinity = (2 * 2 ^ (f.exponentBits - 1) - 4 + 3) * f.fieldUnit := by
  have hbits : f.exponentBits - 1 + 1 = f.exponentBits := by
    refine Nat.sub_add_cancel (Nat.one_le_iff_ne_zero.2 fun hzero => ?_)
    have hlt := hf.precision_lt
    have hpos := hf.precision_pos
    rw [hzero] at hlt
    omega
  have hfields : Nat.pow 2 f.exponentBits = 2 * 2 ^ (f.exponentBits - 1) := by
    rw [← pow_succ', hbits]
    rfl
  have hlt := hf.precision_lt
  have hpos := hf.precision_pos
  rw [infinity, hfields]
  congr 1
  omega

theorem limit_mul (hf : f.Interchange) : f.limit * 2 ^ f.minExponent =
    (4 * f.fieldUnit - 1) * 2 ^ (2 * 2 ^ (f.exponentBits - 1) - 4) := by
  have hlt := hf.precision_lt
  have hpos := hf.precision_pos
  have hbalanced := hf.balanced
  have hunit : 4 * f.fieldUnit = 2 ^ (f.precision + 1) := by
    rw [pow_succ', ← hf.two_mul_fieldUnit]
    ring
  rw [limit, Nat.sub_mul, Nat.sub_mul, hunit, one_mul, ← pow_add, ← pow_add, ← pow_add]
  generalize 2 ^ (f.exponentBits - 1) = top at *
  congr 2 <;> omega

end Interchange

theorem cast_limit : (f.limit : ℚ) =
    2 ^ 2 ^ (f.exponentBits - 1) - 2 ^ (2 ^ (f.exponentBits - 1) - f.precision - 1) := by
  have hle : 2 ^ (2 ^ (f.exponentBits - 1) - f.precision - 1) ≤ 2 ^ 2 ^ (f.exponentBits - 1) :=
    Nat.pow_le_pow_right (by decide) ((Nat.sub_le _ _).trans (Nat.sub_le _ _))
  rw [limit, Nat.cast_sub hle]
  push_cast
  rfl

/-- A fraction is rounded at the place of its last bit that fits the significand. -/
theorem exists_roundFraction_eq (hf : 0 < f.precision) (num : Nat) (hden : 0 < den) : ∃ shift,
    f.roundFraction num den = shift * f.fieldUnit +
      roundHalfEven (num * 2 ^ f.minExponent) (den * 2 ^ shift) ∧
    num * 2 ^ f.minExponent < 2 * f.fieldUnit * (den * 2 ^ shift) ∧
    (shift = 0 ∨ f.fieldUnit * (den * 2 ^ shift) ≤ num * 2 ^ f.minExponent) := by
  -- The bits of the quotient that do not fit the precision are shifted out.
  generalize hscaled : num * 2 ^ f.minExponent = scaled
  generalize hbits : (scaled / den).log2 + 1 = bits
  have hunit (shift : Nat) :
      f.fieldUnit * (den * 2 ^ shift) = 2 ^ (f.precision - 1 + shift) * den := by
    rw [pow_add, mul_comm den, ← mul_assoc]
    rfl
  refine ⟨bits - f.precision, by rw [← hbits, ← hscaled]; rfl, ?_, ?_⟩
  · have hlog : scaled / den < 2 ^ bits := hbits ▸ Nat.lt_log2_self
    have hpow : 2 ^ bits ≤ 2 * 2 ^ (f.precision - 1 + (bits - f.precision)) := by
      rw [← pow_succ']
      exact Nat.pow_le_pow_right (by decide) (by omega)
    calc scaled < 2 ^ bits * den := (Nat.div_lt_iff_lt_mul hden).1 hlog
      _ ≤ 2 * 2 ^ (f.precision - 1 + (bits - f.precision)) * den := Nat.mul_le_mul_right den hpow
      _ = 2 * f.fieldUnit * (den * 2 ^ (bits - f.precision)) := by rw [mul_assoc, ← hunit, mul_assoc]
  · obtain hshort | hlong := le_or_gt bits f.precision
    · exact .inl (Nat.sub_eq_zero_of_le hshort)
    · right
      have hquotient : scaled / den ≠ 0 := by
        intro hzero
        rw [hzero, Nat.log2_zero] at hbits
        omega
      have hexponent : f.precision - 1 + (bits - f.precision) = (scaled / den).log2 := by omega
      rw [hunit, hexponent, ← Nat.le_div_iff_mul_le hden]
      exact Nat.log2_self_le hquotient

/-- What lies below the limit of a format is rounded to a value of it, and nothing else. -/
theorem roundFraction_lt_infinity_iff (hf : f.Interchange) (hden : 0 < den) :
    f.roundFraction num den < f.infinity ↔ num < f.limit * den := by
  obtain ⟨shift, hround, hupper, hlower⟩ := exists_roundFraction_eq hf.precision_pos num hden
  have hpos : 0 < den * 2 ^ shift := Nat.mul_pos hden (Nat.two_pow_pos shift)
  have hunit := fieldUnit_pos (f := f)
  -- In units of the least positive value, the limit lies a half above the greatest significand.
  have hlimit : num < f.limit * den ↔ num * 2 ^ f.minExponent <
      (4 * f.fieldUnit - 1) * (den * 2 ^ (2 * 2 ^ (f.exponentBits - 1) - 4)) := by
    rw [← Nat.mul_lt_mul_right (Nat.two_pow_pos f.minExponent), mul_right_comm, hf.limit_mul,
      mul_assoc, mul_comm _ den]
  rw [hround, hf.infinity_eq, hlimit]
  clear hround hlimit
  generalize num * 2 ^ f.minExponent = scaled at *
  generalize 2 * 2 ^ (f.exponentBits - 1) - 4 = last
  generalize f.fieldUnit = unit at *
  obtain hfits | rfl | hlarge : shift ≤ last ∨ shift = last + 1 ∨ last + 2 ≤ shift := by omega
  · -- The significand may be rounded up to a power of two, which is still a value.
    have hrounded : roundHalfEven scaled (den * 2 ^ shift) ≤ 2 * unit :=
      roundHalfEven_le hpos hupper.le
    refine iff_of_true ?_ ?_
    · calc shift * unit + roundHalfEven scaled (den * 2 ^ shift) ≤ last * unit + 2 * unit :=
          Nat.add_le_add (Nat.mul_le_mul_right unit hfits) hrounded
        _ < (last + 3) * unit := by linarith
    · calc scaled < 2 * unit * (den * 2 ^ shift) := hupper
        _ ≤ (4 * unit - 1) * (den * 2 ^ last) := by
          refine Nat.mul_le_mul (by omega) (Nat.mul_le_mul_left den ?_)
          exact Nat.pow_le_pow_right (by decide) hfits
  · -- A significand that is rounded up to the next power of two overflows.
    have hsplit :
        (last + 1) * unit + roundHalfEven scaled (den * 2 ^ (last + 1)) < (last + 3) * unit ↔
          roundHalfEven scaled (den * 2 ^ (last + 1)) < 2 * unit := by
      have hfields : (last + 3) * unit = (last + 1) * unit + 2 * unit := by ring
      omega
    have hmiddle : (2 * (2 * unit) - 1) * (den * 2 ^ (last + 1)) =
        2 * ((4 * unit - 1) * (den * 2 ^ last)) := by
      have hdouble : 2 * (2 * unit) = 4 * unit := by ring
      rw [hdouble, pow_succ']
      ring
    have hpositive : 0 < 2 * unit := Nat.mul_pos two_pos hunit
    rw [hsplit, roundHalfEven_lt_iff_of_even hpos hpositive (Nat.mul_mod_right 2 unit), hmiddle,
      Nat.mul_lt_mul_left two_pos]
  · -- The hidden bit alone reaches the field of infinity.
    have hlower := hlower.resolve_left (by omega)
    have hrounded : unit ≤ roundHalfEven scaled (den * 2 ^ shift) := le_roundHalfEven hpos hlower
    refine iff_of_false (Nat.not_lt.2 ?_) (Nat.not_lt.2 ?_)
    · calc (last + 3) * unit = (last + 2) * unit + unit := by ring
        _ ≤ shift * unit + roundHalfEven scaled (den * 2 ^ shift) :=
          Nat.add_le_add (Nat.mul_le_mul_right unit hlarge) hrounded
    · calc (4 * unit - 1) * (den * 2 ^ last) ≤ 4 * unit * (den * 2 ^ last) :=
          Nat.mul_le_mul_right _ (Nat.sub_le _ _)
        _ = unit * (den * 2 ^ (last + 2)) := by ring
        _ ≤ unit * (den * 2 ^ shift) := by
          refine Nat.mul_le_mul_left unit (Nat.mul_le_mul_left den ?_)
          exact Nat.pow_le_pow_right (by decide) hlarge
        _ ≤ scaled := hlower

theorem roundFraction_eq_zero (hf : 0 < f.precision) (h : 2 * (num * 2 ^ f.minExponent) < den) :
    f.roundFraction num den = 0 := by
  have hquotient : num * Nat.pow 2 f.minExponent / den = 0 := by
    refine Nat.div_eq_of_lt (Nat.lt_of_le_of_lt ?_ h)
    exact Nat.le_mul_of_pos_left _ two_pos
  have hshift : 0 + 1 - f.precision = 0 := Nat.sub_eq_zero_of_le hf
  have hrounded : roundHalfEven (num * 2 ^ f.minExponent) (den * 1) ≤ 0 := by
    rw [mul_one, roundHalfEven_le_iff (Nat.zero_lt_of_lt h), mul_zero, zero_add, one_mul]
    exact .inl h
  rw [roundFraction, hquotient, Nat.log2_zero, hshift, zero_mul, zero_add]
  exact Nat.le_zero.1 hrounded

/-- A decimal is rounded as a fraction, or overflows as the fraction does. -/
theorem exists_fraction_of_roundDecimal (hf : f.Interchange) (coefficient : Nat) (exponent : Int) :
    ∃ num den : Nat, 0 < den ∧ (coefficient : ℚ) * 10 ^ exponent = num / den ∧
      (f.roundDecimal coefficient exponent = f.roundFraction num den ∨
        f.infinity ≤ f.roundDecimal coefficient exponent ∧ f.infinity ≤ f.roundFraction num den) := by
  unfold roundDecimal
  split
  · rename_i hzero
    refine ⟨0, 1, Nat.one_pos, by rw [hzero, Nat.cast_zero, zero_mul, zero_div], .inl ?_⟩
    exact (roundFraction_eq_zero hf.precision_pos (by rw [zero_mul]; exact Nat.one_pos)).symm
  rename_i hcoefficient
  cases exponent with
  | ofNat e =>
    refine ⟨coefficient * 10 ^ e, 1, Nat.one_pos, ?_, ?_⟩
    · rw [Nat.cast_one, div_one, Nat.cast_mul, Nat.cast_pow]
      rfl
    dsimp only
    split
    · rename_i hlarge
      refine .inr ⟨Nat.le_refl _, ?_⟩
      rw [← Nat.not_lt, roundFraction_lt_infinity_iff hf Nat.one_pos, mul_one, Nat.not_lt]
      calc f.limit ≤ 2 ^ 2 ^ (f.exponentBits - 1) := Nat.sub_le _ _
        _ ≤ 2 ^ e := Nat.pow_le_pow_right (by decide) hlarge
        _ ≤ 10 ^ e := Nat.pow_le_pow_left (by decide) e
        _ ≤ coefficient * 10 ^ e := Nat.le_mul_of_pos_left _ (Nat.pos_of_ne_zero hcoefficient)
    · exact .inl rfl
  | negSucc k =>
    refine ⟨coefficient, 10 ^ (k + 1), Nat.pow_pos (by decide), ?_, .inl ?_⟩
    · rw [zpow_negSucc, ← div_eq_mul_inv, Nat.cast_pow]
      rfl
    dsimp only
    split
    · rename_i hsmall
      refine (roundFraction_eq_zero hf.precision_pos ?_).symm
      calc 2 * (coefficient * 2 ^ f.minExponent)
          < 2 * (2 ^ (coefficient.log2 + 1) * 2 ^ f.minExponent) := by
            refine Nat.mul_lt_mul_of_pos_left ?_ two_pos
            exact Nat.mul_lt_mul_of_pos_right Nat.lt_log2_self (Nat.two_pow_pos _)
        _ = 2 ^ (coefficient.log2 + f.minExponent + 2) := by ring
        _ ≤ 2 ^ (3 * (k + 1)) := Nat.pow_le_pow_right (by decide) hsmall
        _ = 8 ^ (k + 1) := pow_mul 2 3 (k + 1)
        _ ≤ 10 ^ (k + 1) := Nat.pow_le_pow_left (by decide) _
    · rfl

/-- A decimal overflows a format from its limit on. -/
theorem roundDecimal_lt_infinity_iff (hf : f.Interchange) (coefficient : Nat) (exponent : Int) :
    f.roundDecimal coefficient exponent < f.infinity ↔
      (coefficient : ℚ) * 10 ^ exponent < f.limit := by
  obtain ⟨num, den, hden, hvalue, hround⟩ := exists_fraction_of_roundDecimal hf coefficient exponent
  have hfraction : f.roundDecimal coefficient exponent < f.infinity ↔
      f.roundFraction num den < f.infinity := by
    obtain heq | ⟨hdecimal, hfraction⟩ := hround
    · rw [heq]
    · exact iff_of_false (Nat.not_lt.2 hdecimal) (Nat.not_lt.2 hfraction)
  rw [hfraction, roundFraction_lt_infinity_iff hf hden, hvalue, div_lt_iff₀ (Nat.cast_pos.2 hden)]
  exact_mod_cast Iff.rfl

end BinaryFormat

end Repl
