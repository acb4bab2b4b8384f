import Repl.Text.Unicode

/-!
Removing white space around a text. The front is scanned character by character; the back is scanned
byte by byte, stepping over continuation bytes to where the last character must start.
-/

namespace Repl.Text

/-- Drops `skip` bytes, and after them every white space character that follows. -/
def trimStartAfter : Nat → Bytes → Bytes
  | _, [] => []
  | skip + 1, _ :: rest => trimStartAfter skip rest
  | 0, b :: rest =>
    let c := decode b rest
    if isWhiteSpace c.codePoint then trimStartAfter (c.length - 1) rest else b :: rest

/-- The text from its first character that is no white space. -/
def trimStart (s : Bytes) : Bytes :=
  trimStartAfter 0 s

/-- Whether the bytes `lead :: rest` are one white space character and nothing else. -/
def isSpaceCharacter (lead : UInt8) (rest : Bytes) : Bool :=
  let c := decode lead rest
  c.length == rest.length + 1 && isWhiteSpace c.codePoint

-- The list holds the bytes still to scan, last byte first; `tail` holds the continuation bytes just
-- stepped over, in text order.
def trimEndBefore (tail : Bytes) : Bytes → Bytes
  | [] => tail
  | b :: before =>
    if isContinuation b && !before.isEmpty then trimEndBefore (b :: tail) before
    else if isSpaceCharacter b tail then trimEndBefore [] before
    else before.reverse ++ b :: tail

/-- The text up to its last character that is no white space. -/
def trimEnd (s : Bytes) : Bytes :=
  trimEndBefore [] s.reverse

def trim (s : Bytes) : Bytes :=
  trimEnd (trimStart s)

def hasExcessWhiteSpace (s : Bytes) : Bool :=
  trim s != s

end Repl.Text
