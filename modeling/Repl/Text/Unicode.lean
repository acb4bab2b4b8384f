import Repl.Text.Bytes

/-!
Reading bytes as UTF-8. Decoding never fails: a byte that starts no well-formed sequence stands for
one replacement character, and an overlong sequence stands for the value it spells.
-/

namespace Repl.Text

/-- One character as found in a text: its code point and the number of bytes it takes. -/
structure Decoded where
  codePoint : Nat
  length : Nat
  deriving DecidableEq, Repr

/-- What a malformed byte decodes to. -/
def Decoded.replacement : Decoded :=
  ⟨0xFFFD, 1⟩

/-- Whether the byte can only continue a sequence. -/
def isContinuation (b : UInt8) : Bool :=
  b &&& 0xC0 == 0x80

/-- The value of a sequence whose lead byte gave `value` and which needs `n` more bytes, if the text
goes on with that many continuation bytes. -/
def continueValue (value : Nat) : Nat → Bytes → Option Nat
  | 0, _ => some value
  | _ + 1, [] => none
  | n + 1, b :: rest =>
    if isContinuation b then continueValue (value * 64 + (b &&& 0x3F).toNat) n rest else none

/-- The sequence that starts with a lead byte of payload `payload` and has `n` more bytes. -/
def decodeSequence (payload : UInt8) (n : Nat) (rest : Bytes) : Decoded :=
  match continueValue payload.toNat n rest with
  | some value => ⟨value, n + 1⟩
  | none => .replacement

/-- The first character of the text `lead :: rest`. -/
def decode (lead : UInt8) (rest : Bytes) : Decoded :=
  if lead < 0x80 then ⟨lead.toNat, 1⟩
  else if lead &&& 0xE0 == 0xC0 then decodeSequence (lead &&& 0x1F) 1 rest
  else if lead &&& 0xF0 == 0xE0 then decodeSequence (lead &&& 0x0F) 2 rest
  else if lead &&& 0xF8 == 0xF0 then decodeSequence (lead &&& 0x07) 3 rest
  else .replacement

/-- The UTF-8 bytes of a code point, surrogates included. -/
def encode (codePoint : Nat) : Bytes :=
  let continuation (shift : Nat) : UInt8 := (0x80 + codePoint / Nat.pow 64 shift % 64).toUInt8
  if codePoint < 0x80 then [codePoint.toUInt8]
  else if codePoint < 0x800 then [(0xC0 + codePoint / 64).toUInt8, continuation 0]
  else if codePoint < 0x10000 then
    [(0xE0 + codePoint / Nat.pow 64 2).toUInt8, continuation 1, continuation 0]
  else [(0xF0 + codePoint / Nat.pow 64 3).toUInt8, continuation 2, continuation 1, continuation 0]

/-- The characters with the Unicode property White_Space. -/
def isWhiteSpace (c : Nat) : Bool :=
  (0x09 ≤ c && c ≤ 0x0D) || c == 0x20 || c == 0x85 || c == 0xA0 || c == 0x1680 ||
    (0x2000 ≤ c && c ≤ 0x200A) || c == 0x2028 || c == 0x2029 || c == 0x202F || c == 0x205F ||
    c == 0x3000

/-- Whether the character is an uppercase letter. Letters of rarer scripts count as uncased. -/
def isUppercase (c : Nat) : Bool :=
  -- ASCII and Latin-1
  if c < 0x80 then 0x41 ≤ c && c ≤ 0x5A
  else if 0xC0 ≤ c ∧ c ≤ 0xDE then c != 0xD7
  -- Latin Extended-A, where the cases alternate
  else if 0x100 ≤ c ∧ c ≤ 0x17F then
    if c ≤ 0x137 ∨ (0x14A ≤ c ∧ c ≤ 0x177) then c % 2 == 0
    else if (0x139 ≤ c ∧ c ≤ 0x148) ∨ (0x179 ≤ c ∧ c ≤ 0x17E) then c % 2 == 1
    else c == 0x178
  -- Greek and Cyrillic
  else if c == 0x386 || (0x388 ≤ c && c ≤ 0x38A) || c == 0x38C || c == 0x38E || c == 0x38F then true
  else if 0x391 ≤ c ∧ c ≤ 0x3AB then c != 0x3A2
  else if 0x400 ≤ c ∧ c ≤ 0x42F then true
  else if 0x460 ≤ c ∧ c ≤ 0x481 then c % 2 == 0
  else false

def beginsWithUppercase : Bytes → Bool
  | [] => false
  | lead :: rest => isUppercase (decode lead rest).codePoint

end Repl.Text
