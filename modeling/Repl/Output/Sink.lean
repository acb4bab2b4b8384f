import Repl.Text.Bytes

/-!
Output streams. A stream may have room for a limited number of bytes; the write that goes beyond is
cut and breaks the stream, and a broken stream takes nothing.
-/

namespace Repl

/-- An output stream with what was written to it. `room` is the number of bytes it can still take,
if that is limited. -/
structure Sink where
  written : Bytes
  room : Option Nat
  broken : Bool
  deriving DecidableEq, Repr

namespace Sink

def unlimited : Sink :=
  ⟨[], none, false⟩

def withRoom (room : Nat) : Sink :=
  ⟨[], some room, false⟩

/-- Writes a text. The stream is broken afterwards iff the text was not written as a whole. -/
def write (sink : Sink) (s : Bytes) : Sink :=
  if sink.broken then sink
  else
    match sink.room with
    | none => { sink with written := sink.written ++ s }
    | some room =>
      if s.length ≤ room then
        { sink with written := sink.written ++ s, room := some (room - s.length) }
      else ⟨sink.written ++ s.take room, some 0, true⟩

/-- Takes a text that comes by another way to where the stream leads. What there is no room for is
lost, and the stream itself notices nothing. -/
def append (sink : Sink) (s : Bytes) : Sink :=
  match sink.room with
  | none => { sink with written := sink.written ++ s }
  | some room =>
    { sink with written := sink.written ++ s.take room, room := some (room - s.length) }

def damage (sink : Sink) : Sink :=
  { sink with broken := true }

def clear (sink : Sink) : Sink :=
  { sink with broken := false }

end Sink

end Repl
