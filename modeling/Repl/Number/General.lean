import Repl.Number.BinaryFormat
import Repl.Text.Bytes

/-!
The general notation of a double: six significant digits without trailing zeros, positional for
decimal exponents from -4 to 5 and scientific otherwise. The digits are those of the exact value,
rounded once, a half to the even neighbour.
-/

namespace Repl.General

def precision : Nat := 6

/-- The fraction `num / den` times a power of ten, as a fraction. -/
def scale (num den : Nat) : Int → Nat × Nat
  | .ofNat k => (num * Nat.pow 10 k, den)
  | .negSucc k => (num, den * Nat.pow 10 (k + 1))

/-- The exponent of the power of ten at or below a positive fraction. -/
def leadingExponent (num den : Nat) : Int :=
  -- The numbers of digits leave two candidates.
  let estimate : Int := (Text.decimal num).length - (Text.decimal den).length
  let (scaledNum, scaledDen) := scale num den (-estimate)
  if scaledDen ≤ scaledNum then estimate else estimate - 1

/-- The significant digits of a positive fraction, as a number, and the decimal exponent of the
first. -/
def significant (num den : Nat) : Nat × Int :=
  let exponent := leadingExponent num den
  let (scaledNum, scaledDen) := scale num den ((precision - 1 : Nat) - exponent)
  let rounded := roundHalfEven scaledNum scaledDen
  -- Rounding up to a further digit moves the exponent.
  if rounded = Nat.pow 10 precision then (Nat.pow 10 (precision - 1), exponent + 1)
  else (rounded, exponent)

def stripZeros (digits : Bytes) : Bytes :=
  (digits.reverse.dropWhile (· = Ascii.zero)).reverse

def withPoint (fraction : Bytes) : Bytes :=
  match stripZeros fraction with
  | [] => []
  | digits => Ascii.period :: digits

/-- One digit, a point and the others, and an exponent of a sign and at least two digits. -/
def scientific (digits : Bytes) (exponent : Int) : Bytes :=
  let sign := if exponent < 0 then Ascii.minus else Ascii.plus
  digits.take 1 ++ withPoint (digits.drop 1) ++ [Ascii.smallE, sign] ++
    Text.decimalPadded 2 exponent.natAbs

/-- Digits with the point where it belongs. -/
def positional (digits : Bytes) : Int → Bytes
  | .ofNat e => digits.take (e + 1) ++ withPoint (digits.drop (e + 1))
  | .negSucc k => Ascii.zero :: withPoint (List.replicate k Ascii.zero ++ digits)

def ofFraction (num den : Nat) : Bytes :=
  let (number, exponent) := significant num den
  let digits := Text.decimal number
  if exponent < -4 ∨ (precision : Int) ≤ exponent then scientific digits exponent
  else positional digits exponent

def ofMagnitude (f : BinaryFormat) (magnitude : Nat) : Bytes :=
  if magnitude = f.infinity then ascii "inf"
  else if f.infinity < magnitude then ascii "nan"
  else if magnitude = 0 then ascii "0"
  else ofFraction (f.numerator magnitude) f.denominator

/-- The notation of a bit pattern of the format: a minus sign if the sign bit is set, and the
magnitude. -/
def ofBits (f : BinaryFormat) (bits : Nat) : Bytes :=
  if f.signBit ≤ bits then Ascii.minus :: ofMagnitude f (bits - f.signBit)
  else ofMagnitude f bits

end Repl.General
