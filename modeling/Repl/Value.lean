import Repl.Number.BinaryFormat
import Repl.Number.Literal

/-!
Typed values and their texts. A value is read from the whole of a text: ASCII white space around it
is ignored, anything else that does not belong to it is refused. Texts stand for themselves.
-/

namespace Repl

/-- What kind of value a reader expects. Integers have a width in bits. -/
inductive ValueType where
  | signed (bits : Nat)
  | unsigned (bits : Nat)
  | bool
  | byte (signed : Bool)
  | float32
  | float64
  | text
  deriving DecidableEq, Repr

/-- A value. Floating-point values are their bit patterns. -/
inductive Value where
  | integer (i : Int)
  | bool (b : Bool)
  | byte (b : UInt8)
  | float32 (bits : UInt32)
  | float64 (bits : UInt64)
  | text (s : Bytes)
  deriving DecidableEq, Repr

namespace Value

/-- The white space that a value may stand in: space, tab, newline, vertical tab, form feed and
carriage return. -/
def isSpace (b : UInt8) : Bool :=
  b == Ascii.space || (9 ≤ b && b ≤ 13)

def strip (s : Bytes) : Bytes :=
  ((s.dropWhile isSpace).reverse.dropWhile isSpace).reverse

/-- The bit pattern that a literal rounds to in a format, unless it overflows. -/
def floatBits? (f : BinaryFormat) (s : Bytes) : Option Nat :=
  match Literal.decimal? s with
  | none => none
  | some d =>
    let magnitude := f.roundDecimal d.coefficient d.exponent
    if f.infinity ≤ magnitude then none
    else some (if d.negative then f.signBit + magnitude else magnitude)

/-- The integer that a literal spells, if it lies between two bounds. -/
def integerBetween? (low high : Int) (s : Bytes) : Option Int :=
  (Literal.integer? s).filter fun i => low ≤ i && i ≤ high

end Value

namespace ValueType

/-- Whether texts that open with a minus sign are refused. -/
def refusesMinus : ValueType → Bool
  | unsigned _ | bool | byte false => true
  | signed _ | byte true | float32 | float64 | text => false

/-- The value of the type that a text without white space around it stands for. -/
def ofWord? (type : ValueType) (word : Bytes) : Option Value :=
  if type.refusesMinus && word.head? == some Ascii.minus then none
  else
    match type with
    | signed bits =>
      let half : Int := Nat.pow 2 (bits - 1)
      (Value.integerBetween? (-half) (half - 1) word).map .integer
    | unsigned bits => (Value.integerBetween? 0 ((Nat.pow 2 bits : Int) - 1) word).map .integer
    -- Truth values are written as digits.
    | bool => (Value.integerBetween? 0 1 word).map fun i => .bool (i == 1)
    | byte _ =>
      match word with
      | [b] => some (.byte b)
      | _ => none
    | float32 => (Value.floatBits? .binary32 word).map fun n => .float32 n.toUInt32
    | float64 => (Value.floatBits? .binary64 word).map fun n => .float64 n.toUInt64
    | text => some (.text word)

def value? (type : ValueType) (s : Bytes) : Option Value :=
  if type = text then some (.text s) else type.ofWord? (Value.strip s)

def parse (type : ValueType) (s : Bytes) : Except Bytes Value :=
  match type.value? s with
  | some v => .ok v
  | none => .error (ascii "invalid value '" ++ s ++ ascii "'")

/-- The value of the type that stands for a missing one: zero, false or the empty text. -/
def default : ValueType → Value
  | signed _ | unsigned _ => .integer 0
  | bool => .bool false
  | byte _ => .byte 0
  | float32 => .float32 0
  | float64 => .float64 0
  | text => .text []

/-- Reads a value of the type, where the empty text stands for the default. -/
def parseOrDefault (type : ValueType) (s : Bytes) : Except Bytes Value :=
  if s = [] then .ok type.default else type.parse s

/-- Reads a value of the type, where the empty text may stand for the default. -/
def parser (type : ValueType) (orDefault : Bool) : Bytes → Except Bytes Value :=
  if orDefault then type.parseOrDefault else type.parse

end ValueType

/-- The text that shows a value: integers in decimal, floating-point values as the hexadecimal
digits of their bit pattern, bytes and texts as they are. -/
def Value.render : Value → Bytes
  | integer i => Text.decimalInt i
  | bool b => ascii (if b then "true" else "false")
  | byte b => [b]
  | float32 bits => ascii "0x" ++ Text.hexPadded 8 bits.toNat
  | float64 bits => ascii "0x" ++ Text.hexPadded 16 bits.toNat
  | text s => s

end Repl
