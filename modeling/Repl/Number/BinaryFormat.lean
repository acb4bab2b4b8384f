/-!
Binary floating-point formats, without floating-point arithmetic. A format rounds an exact fraction
once, to the nearest value it can hold; the result is the format's bit pattern, as a natural number.
-/

namespace Repl

/-- The fraction `num / den` rounded to a natural number; a half goes to the even neighbour. -/
def roundHalfEven (num den : Nat) : Nat :=
  let quotient := num / den
  let remainder := num % den
  if 2 * remainder < den then quotient
  else if den < 2 * remainder then quotient + 1
  else if quotient % 2 = 0 then quotient
  else quotient + 1

/-- A binary interchange format. `precision` counts the bits of a significand, the hidden one
included, `exponentBits` those of the exponent field, and `2 ^ (-minExponent)` is the least positive
value. -/
structure BinaryFormat where
  precision : Nat
  exponentBits : Nat
  minExponent : Nat
  deriving DecidableEq, Repr

namespace BinaryFormat

def binary32 : BinaryFormat :=
  ⟨24, 8, 149⟩

def binary64 : BinaryFormat :=
  ⟨53, 11, 1074⟩

variable (f : BinaryFormat)

/-- The weight of the exponent field in a bit pattern. -/
def fieldUnit : Nat :=
  Nat.pow 2 (f.precision - 1)

def infinity : Nat :=
  (Nat.pow 2 f.exponentBits - 1) * f.fieldUnit

/-- The sign bit, which stands above the exponent field. -/
def signBit : Nat :=
  Nat.pow 2 f.exponentBits * f.fieldUnit

/-- The bit pattern of the value nearest to the fraction `num / den`, ties to even. A result of at
least `infinity` is an overflow. -/
def roundFraction (num den : Nat) : Nat :=
  -- The exponent field counts the low bits that do not fit the significand; one that rounds up to
  -- the next power of two carries into it.
  let scaled := num * Nat.pow 2 f.minExponent
  let shift := ((scaled / den).log2 + 1) - f.precision
  shift * f.fieldUnit + roundHalfEven scaled (den * Nat.pow 2 shift)

/-- The bit pattern of the value nearest to `coefficient * 10 ^ exponent`, or one of at least
`infinity`. -/
def roundDecimal (coefficient : Nat) (exponent : Int) : Nat :=
  if coefficient = 0 then 0
  else
    match exponent with
    | .ofNat e =>
      -- No format reaches ten to the power of half its exponent range.
      if Nat.pow 2 (f.exponentBits - 1) ≤ e then f.infinity
      else f.roundFraction (coefficient * Nat.pow 10 e) 1
    | .negSucc k =>
      -- `10 ^ (-k)` is below `2 ^ (-3 * k)`, which may be too little for any bit.
      if coefficient.log2 + f.minExponent + 2 ≤ 3 * (k + 1) then 0
      else f.roundFraction coefficient (Nat.pow 10 (k + 1))

/-- The numerator of a finite magnitude over the denominator `2 ^ minExponent`. -/
def numerator (magnitude : Nat) : Nat :=
  let field := magnitude / f.fieldUnit
  let fraction := magnitude % f.fieldUnit
  if field = 0 then fraction else (fraction + f.fieldUnit) * Nat.pow 2 (field - 1)

/-- The denominator of every finite magnitude. -/
def denominator : Nat :=
  Nat.pow 2 f.minExponent

end BinaryFormat

end Repl
