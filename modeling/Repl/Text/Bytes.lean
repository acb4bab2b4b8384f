/-!
Texts as lists of bytes. Commands, settings and log entries may hold any bytes, valid UTF-8 or
not, so every text of the library is a `Bytes`.
-/

namespace Repl

/-- A text, as the bytes that spell it. -/
abbrev Bytes := List UInt8

/-- The bytes of an ASCII text. -/
def ascii (s : String) : Bytes :=
  s.toList.map fun c => c.toNat.toUInt8

/-! ## ASCII characters, by name -/

namespace Ascii

abbrev newline : UInt8 := 10
abbrev space : UInt8 := 32
abbrev quote : UInt8 := 34
abbrev numberSign : UInt8 := 35
abbrev plus : UInt8 := 43
abbrev minus : UInt8 := 45
abbrev period : UInt8 := 46
abbrev slash : UInt8 := 47
abbrev zero : UInt8 := 48
abbrev nine : UInt8 := 57
abbrev semicolon : UInt8 := 59
abbrev equalsSign : UInt8 := 61
abbrev capitalA : UInt8 := 65
abbrev capitalE : UInt8 := 69
abbrev capitalZ : UInt8 := 90
abbrev openBracket : UInt8 := 91
abbrev closeBracket : UInt8 := 93
abbrev smallE : UInt8 := 101

end Ascii

/-! ## Texts -/

namespace Text

def withNewline (s : Bytes) : Bytes :=
  s ++ [Ascii.newline]

/-- The lines of a text, without their newlines. An unterminated last line counts, and a final
newline adds no empty line. -/
def lines : Bytes → List Bytes
  | [] => []
  | b :: rest =>
    if b = Ascii.newline then [] :: lines rest
    else
      match lines rest with
      | [] => [[b]]
      | line :: others => (b :: line) :: others

def startsWith (s start : Bytes) : Bool :=
  start.isPrefixOf s

def endsWith (s : Bytes) (b : UInt8) : Bool :=
  s.getLast? == some b

/-- The lower case of an ASCII letter; every other byte is its own lower case. -/
def lowerByte (b : UInt8) : UInt8 :=
  if Ascii.capitalA ≤ b ∧ b ≤ Ascii.capitalZ then b + 32 else b

def toLower (s : Bytes) : Bytes :=
  s.map lowerByte

/-- The text up to its first NUL byte, which is where a terminated string ends. -/
def untilNul (s : Bytes) : Bytes :=
  s.takeWhile (· ≠ 0)

def decimal (n : Nat) : Bytes :=
  (Nat.toDigits 10 n).map fun c => c.toNat.toUInt8

def decimalInt (i : Int) : Bytes :=
  if i < 0 then Ascii.minus :: decimal i.natAbs else decimal i.natAbs

/-- A natural number in decimal, with zeros in front up to the given number of digits. -/
def decimalPadded (width n : Nat) : Bytes :=
  List.replicate (width - (decimal n).length) Ascii.zero ++ decimal n

/-- The hexadecimal digits of a natural number, with zeros in front up to the given number. -/
def hexPadded (width n : Nat) : Bytes :=
  let digits := (Nat.toDigits 16 n).map fun c => c.toNat.toUInt8
  List.replicate (width - digits.length) Ascii.zero ++ digits

end Text

end Repl
