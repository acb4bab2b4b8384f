import Repl.Text.Bytes

/-!
Decimal literals. An integer is a sign and digits; a decimal also has a point and an exponent. A
literal is read as a whole: what follows a number makes the text no number at all.
-/

namespace Repl

/-- The exact value `coefficient * 10 ^ exponent`, with a sign that is kept for zero too. -/
structure Decimal where
  negative : Bool
  coefficient : Nat
  exponent : Int
  deriving DecidableEq, Repr

namespace Literal

def isDigit (b : UInt8) : Bool :=
  Ascii.zero ≤ b && b ≤ Ascii.nine

def digitsValue (digits : Bytes) : Nat :=
  digits.foldl (fun n d => n * 10 + (d.toNat - Ascii.zero.toNat)) 0

/-- Whether the text is signed negative, and what follows its sign. -/
def splitSign : Bytes → Bool × Bytes
  | [] => (false, [])
  | b :: rest =>
    if b = Ascii.minus then (true, rest)
    else if b = Ascii.plus then (false, rest)
    else (false, b :: rest)

/-- The integer that a text spells: an optional sign and at least one digit. -/
def integer? (s : Bytes) : Option Int :=
  let (negative, digits) := splitSign s
  if digits.isEmpty || !digits.all isDigit then none
  else if negative then some (-(digitsValue digits : Int))
  else some (digitsValue digits)

/-- The exponent that ends a decimal: nothing, or `e` and an integer. -/
def exponent? : Bytes → Option Int
  | [] => some 0
  | b :: rest => if b = Ascii.smallE ∨ b = Ascii.capitalE then integer? rest else none

/-- The digits after the point, if there is one, and what follows them. -/
def splitFraction : Bytes → Bytes × Bytes
  | [] => ([], [])
  | b :: rest =>
    if b = Ascii.period then (rest.takeWhile isDigit, rest.dropWhile isDigit) else ([], b :: rest)

/-- The decimal that a text spells: an optional sign, digits with an optional point among them, and
an optional exponent. -/
def decimal? (s : Bytes) : Option Decimal :=
  let (negative, body) := splitSign s
  let whole := body.takeWhile isDigit
  let (fraction, rest) := splitFraction (body.dropWhile isDigit)
  if whole.isEmpty && fraction.isEmpty then none
  else
    (exponent? rest).map fun e =>
      ⟨negative, digitsValue (whole ++ fraction), e - fraction.length⟩

end Literal

end Repl
