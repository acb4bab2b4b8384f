import Mathlib.Tactic.FieldSimp
import Mathlib.Tactic.Positivity
import Repl.Proofs.Number.Rounding

/-!
A format rounds a number to the nearest of its values. In units of the last place that it keeps, the
values are natural numbers, or lie below all of those that need so many bits.
-/

namespace Repl

variable {f : BinaryFormat} {num den r : Nat} {x : ℚ}

/-! ## Quotients -/

/-- A quotient is no further than a half from what it rounds to, which is even if it is that far. -/
theorem roundHalfEven_near (num : Nat) (hden : 0 < den) :
    |(num / den : ℚ) - roundHalfEven num den| ≤ 1 / 2 ∧
      (|(num / den : ℚ) - roundHalfEven num den| = 1 / 2 → roundHalfEven num den % 2 = 0) := by
  have hpos : (0 : ℚ) < den := Nat.cast_pos.2 hden
  have hsplit : (num / den : ℚ) = (num / den : Nat) + (num % den : Nat) / den := by
    rw [div_eq_iff hpos.ne', add_mul, div_mul_cancel₀ _ hpos.ne', mul_comm]
    exact_mod_cast (Nat.div_add_mod num den).symm
  have hlt : ((num % den : Nat) / den : ℚ) < 1 := by
    rw [div_lt_one hpos]
    exact_mod_cast Nat.mod_lt num hden
  have hnonneg : (0 : ℚ) ≤ (num % den : Nat) / den := by positivity
  have hhalf : ((num % den : Nat) / den : ℚ) < 1 / 2 ↔ 2 * (num % den) < den := by
    rw [div_lt_div_iff₀ hpos two_pos, mul_comm, one_mul]
    exact_mod_cast Iff.rfl
  have hhalf' : (1 / 2 : ℚ) < (num % den : Nat) / den ↔ den < 2 * (num % den) := by
    rw [div_lt_div_iff₀ two_pos hpos, mul_comm _ (2 : ℚ), one_mul]
    exact_mod_cast Iff.rfl
  rw [hsplit, roundHalfEven]
  generalize ((num % den : Nat) / den : ℚ) = part at *
  have hdown : |((num / den : Nat) : ℚ) + part - (num / den : Nat)| = part := by
    rw [add_sub_cancel_left, abs_of_nonneg hnonneg]
  have hup : |((num / den : Nat) : ℚ) + part - (num / den + 1 : Nat)| = 1 - part := by
    rw [abs_sub_comm, abs_of_pos]
    all_goals push_cast; linarith
  split_ifs with hbelow habove heven
  · rw [hdown]
    exact ⟨(hhalf.2 hbelow).le, fun h => absurd h (hhalf.2 hbelow).ne⟩
  · rw [hup]
    have hpart := hhalf'.2 habove
    exact ⟨by linarith, fun h => by linarith⟩
  · rw [hdown]
    exact ⟨not_lt.1 (mt hhalf'.1 habove), fun _ => heven⟩
  · rw [hup]
    have hpart := not_lt.1 (mt hhalf.1 hbelow)
    exact ⟨by linarith, fun _ => by omega⟩

/-- A natural number no further than a half from a number is a nearest one, and is a half away if
there is another as near. -/
theorem abs_sub_le_of_near (h : |x - r| ≤ 1 / 2) (n : Nat) :
    |x - r| ≤ |x - n| ∧ (|x - n| = |x - r| → n = r ∨ |x - r| = 1 / 2) := by
  obtain rfl | hn := eq_or_ne n r
  · exact ⟨le_rfl, fun _ => .inl rfl⟩
  have hapart : (1 : ℚ) ≤ |(n : ℚ) - r| := by
    have hint : (1 : Int) ≤ |(n : Int) - r| := Int.one_le_abs (by omega)
    exact_mod_cast hint
  have htriangle : |(n : ℚ) - r| ≤ |x - n| + |x - r| := by
    rw [abs_sub_comm x n]
    exact abs_sub_le (n : ℚ) x r
  exact ⟨by linarith, fun hsame => .inr (by linarith)⟩

/-! ## Formats -/

namespace BinaryFormat

/-- The value of a bit pattern. Those from infinity on count as if the exponents went on. -/
def value (f : BinaryFormat) (magnitude : Nat) : ℚ :=
  f.numerator magnitude / f.denominator

/-- The bit pattern is the one of a value nearest to a number, and even if there is another as
near. -/
structure RoundsTo (f : BinaryFormat) (q : ℚ) (magnitude : Nat) : Prop where
  nearest : ∀ m, |q - f.value magnitude| ≤ |q - f.value m|
  even : ∀ m, |q - f.value m| = |q - f.value magnitude| → f.value m = f.value magnitude ∨
    magnitude % 2 = 0

/-- The bit pattern has the sign of a number, and the magnitude that it rounds to. -/
def Represents (f : BinaryFormat) (q : ℚ) (bits : Nat) : Prop :=
  ∃ magnitude, magnitude < f.infinity ∧ f.RoundsTo |q| magnitude ∧
    (0 ≤ q ∧ bits = magnitude ∨ q ≤ 0 ∧ bits = f.signBit + magnitude)

theorem numerator_field (field : Nat) {fraction : Nat} (h : fraction < f.fieldUnit) :
    f.numerator (field * f.fieldUnit + fraction) =
      if field = 0 then fraction else (fraction + f.fieldUnit) * 2 ^ (field - 1) := by
  have hfield : (field * f.fieldUnit + fraction) / f.fieldUnit = field := by
    rw [mul_comm, Nat.mul_add_div fieldUnit_pos, Nat.div_eq_of_lt h, Nat.add_zero]
  have hfraction : (field * f.fieldUnit + fraction) % f.fieldUnit = fraction := by
    rw [Nat.mul_add_mod_of_lt h]
  rw [numerator, hfield, hfraction]
  rfl

/-- A significand that was rounded up to the next power of two goes to the next field. -/
theorem numerator_eq {shift significand : Nat} (h : significand ≤ 2 * f.fieldUnit)
    (hnormal : shift = 0 ∨ f.fieldUnit ≤ significand) :
    f.numerator (shift * f.fieldUnit + significand) = significand * 2 ^ shift := by
  obtain hsmall | hlarge := Nat.lt_or_ge significand f.fieldUnit
  · have hshift := hnormal.resolve_right (Nat.not_le.2 hsmall)
    rw [numerator_field shift hsmall, if_pos hshift, hshift, pow_zero, mul_one]
  obtain ⟨fraction, rfl⟩ := Nat.exists_eq_add_of_le hlarge
  obtain hfraction | rfl : fraction < f.fieldUnit ∨ fraction = f.fieldUnit := by omega
  · have hfield : shift * f.fieldUnit + (f.fieldUnit + fraction) =
        (shift + 1) * f.fieldUnit + fraction := by ring
    rw [hfield, numerator_field _ hfraction, if_neg (Nat.succ_ne_zero shift), Nat.add_sub_cancel,
      Nat.add_comm fraction]
  · have hfield : shift * f.fieldUnit + (f.fieldUnit + f.fieldUnit) =
        (shift + 2) * f.fieldUnit + 0 := by ring
    rw [hfield, numerator_field _ fieldUnit_pos, if_neg (Nat.succ_ne_zero _), Nat.add_succ_sub_one,
      pow_succ]
    ring

/-- The values of a format lie on the grid of a shift, except for those that need no such shift. -/
theorem numerator_cases (f : BinaryFormat) (m shift : Nat) :
    (∃ n, f.numerator m = n * 2 ^ shift) ∨ shift ≠ 0 ∧ f.numerator m < f.fieldUnit * 2 ^ shift := by
  have hfraction : m % f.fieldUnit < f.fieldUnit := Nat.mod_lt m fieldUnit_pos
  rw [← Nat.div_add_mod' m f.fieldUnit, numerator_field _ hfraction]
  generalize m / f.fieldUnit = field
  generalize m % f.fieldUnit = fraction at *
  obtain rfl | hshift := Nat.eq_zero_or_pos shift
  · exact .inl ⟨_, by rw [pow_zero, mul_one]⟩
  obtain hlow | hhigh := Nat.lt_or_ge shift field
  · left
    refine ⟨(fraction + f.fieldUnit) * 2 ^ (field - 1 - shift), ?_⟩
    rw [if_neg (Nat.ne_of_gt (hshift.trans hlow)), mul_assoc, ← pow_add,
      Nat.sub_add_cancel (Nat.le_sub_one_of_lt hlow)]
  · refine .inr ⟨hshift.ne', ?_⟩
    split
    · exact hfraction.trans_le (Nat.le_mul_of_pos_right _ (Nat.two_pow_pos shift))
    · rename_i hfield
      calc (fraction + f.fieldUnit) * 2 ^ (field - 1) < 2 * f.fieldUnit * 2 ^ (field - 1) :=
            Nat.mul_lt_mul_of_pos_right (by omega) (Nat.two_pow_pos _)
        _ = f.fieldUnit * 2 ^ (field - 1 + 1) := by ring
        _ ≤ f.fieldUnit * 2 ^ shift :=
            Nat.mul_le_mul_left _ (Nat.pow_le_pow_right (by decide) (by omega))

theorem even_fieldUnit (hf : 1 < f.precision) : f.fieldUnit % 2 = 0 := by
  have hunit : f.fieldUnit = 2 * 2 ^ (f.precision - 2) := by
    rw [← pow_succ', fieldUnit]
    congr 1
    omega
  omega

/-- What a number rounds to on the grid of a shift is nearest among all values, also those that are
off the grid, if the number needs the shift. -/
theorem abs_sub_le_of_grid {x : ℚ} {shift r : Nat} (hnear : |x - r| ≤ 1 / 2)
    (hshift : shift = 0 ∨ (f.fieldUnit : ℚ) ≤ x) (m : Nat) :
    |x - r| ≤ |x - f.numerator m / 2 ^ shift| ∧
      (|x - f.numerator m / 2 ^ shift| = |x - r| →
        f.numerator m = r * 2 ^ shift ∨ |x - r| = 1 / 2) := by
  have hpow : (0 : ℚ) < 2 ^ shift := by positivity
  obtain ⟨n, hn⟩ | ⟨hne, hsmall⟩ := f.numerator_cases m shift
  · have hgrid : (f.numerator m / 2 ^ shift : ℚ) = n := by
      rw [hn, div_eq_iff hpow.ne']
      exact_mod_cast rfl
    obtain ⟨hle, hsame⟩ := abs_sub_le_of_near hnear n
    rw [hgrid, hn]
    exact ⟨hle, fun h => (hsame h).imp_left (congrArg (· * 2 ^ shift))⟩
  · have hfull := hshift.resolve_left hne
    have hbelow : (f.numerator m / 2 ^ shift : ℚ) < f.fieldUnit := by
      rw [div_lt_iff₀ hpow]
      exact_mod_cast hsmall
    have hunit := (abs_sub_le_of_near hnear f.fieldUnit).1
    have hlt : |x - r| < |x - f.numerator m / 2 ^ shift| := by
      rw [abs_of_nonneg (sub_nonneg.2 hfull)] at hunit
      rw [abs_of_pos (by linarith : 0 < x - f.numerator m / 2 ^ shift)]
      linarith
    exact ⟨hlt.le, fun h => absurd h hlt.ne'⟩

/-- A fraction is rounded to a nearest value, and to an even one if there are two. -/
theorem roundFraction_roundsTo (hf : 1 < f.precision) (hden : 0 < den) :
    f.RoundsTo (num / den) (f.roundFraction num den) := by
  obtain ⟨shift, hround, hupper, hlower⟩ := exists_roundFraction_eq (Nat.zero_lt_of_lt hf) num hden
  have hpos : 0 < den * 2 ^ shift := Nat.mul_pos hden (Nat.two_pow_pos shift)
  obtain ⟨hnear, heven⟩ := roundHalfEven_near (num * 2 ^ f.minExponent) hpos
  have hnumerator : f.numerator (f.roundFraction num den) =
      roundHalfEven (num * 2 ^ f.minExponent) (den * 2 ^ shift) * 2 ^ shift := by
    rw [hround]
    exact numerator_eq (roundHalfEven_le hpos hupper.le) (hlower.imp_right (le_roundHalfEven hpos))
  have hshift : shift = 0 ∨
      (f.fieldUnit : ℚ) ≤ (num * 2 ^ f.minExponent : Nat) / (den * 2 ^ shift : Nat) := by
    refine hlower.imp_right fun h => ?_
    rw [le_div_iff₀ (Nat.cast_pos.2 hpos)]
    exact_mod_cast h
  -- In units of the last place, the values on the grid are natural numbers.
  have hunit : (0 : ℚ) < 2 ^ shift / 2 ^ f.minExponent := by positivity
  have hdistance (m : Nat) : |(num / den : ℚ) - f.value m| = 2 ^ shift / 2 ^ f.minExponent *
      |((num * 2 ^ f.minExponent : Nat) / (den * 2 ^ shift : Nat) : ℚ) -
        f.numerator m / 2 ^ shift| := by
    have hden' : (den : ℚ) ≠ 0 := Nat.cast_ne_zero.2 hden.ne'
    have hdenominator : (f.denominator : ℚ) = 2 ^ f.minExponent := Nat.cast_pow 2 f.minExponent
    rw [← abs_of_pos hunit, ← abs_mul, value, hdenominator]
    congr 1
    push_cast
    field_simp
  have hrounded : (f.numerator (f.roundFraction num den) / 2 ^ shift : ℚ) =
      roundHalfEven (num * 2 ^ f.minExponent) (den * 2 ^ shift) := by
    rw [hnumerator, Nat.cast_mul, Nat.cast_pow]
    exact mul_div_cancel_right₀ _ (pow_ne_zero shift two_ne_zero)
  refine ⟨fun m => ?_, fun m hsame => ?_⟩
  · rw [hdistance, hdistance, hrounded]
    exact mul_le_mul_of_nonneg_left (abs_sub_le_of_grid hnear hshift m).1 hunit.le
  · rw [hdistance, hdistance, hrounded] at hsame
    have hsame := mul_left_cancel₀ hunit.ne' hsame
    obtain hvalue | hhalf := (abs_sub_le_of_grid hnear hshift m).2 hsame
    · left
      rw [value, hvalue, value, hnumerator]
    · have hshifted : shift * f.fieldUnit % 2 = 0 := by
        rw [Nat.mul_mod, even_fieldUnit hf, mul_zero, Nat.zero_mod]
      have hrounded := heven hhalf
      right
      omega

/-- A decimal that does not overflow is rounded to a nearest value. -/
theorem roundDecimal_roundsTo (hf : f.Interchange) {coefficient : Nat} {exponent : Int}
    (h : f.roundDecimal coefficient exponent < f.infinity) :
    f.RoundsTo (coefficient * 10 ^ exponent) (f.roundDecimal coefficient exponent) := by
  obtain ⟨num, den, hden, hvalue, hround⟩ := exists_fraction_of_roundDecimal hf coefficient exponent
  have hfraction := hround.resolve_right fun hoverflow => Nat.not_le.2 h hoverflow.1
  rw [hvalue, hfraction]
  exact roundFraction_roundsTo hf.one_lt_precision hden

end BinaryFormat

end Repl
