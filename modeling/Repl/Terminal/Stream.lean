import Repl.Output.Sink
import Repl.Terminal.Basic

/-!
Terminals made of an input stream and an output stream. A failed read consumes nothing, and the
stream goes on failing until it is cleared.
-/

namespace Repl

/-- An input stream: the bytes not read yet, and its condition. `ended` tells that a read met the
end, `failed` that a read found no line, and `damaged` that the device is broken. -/
structure InputStream where
  rest : Bytes
  ended : Bool
  failed : Bool
  damaged : Bool
  deriving DecidableEq, Repr

namespace InputStream

def ofBytes (s : Bytes) : InputStream :=
  ⟨s, false, false, false⟩

def good (i : InputStream) : Bool :=
  !i.ended && !i.failed && !i.damaged

def damage (i : InputStream) : InputStream :=
  { i with damaged := true }

/-- Makes the stream good again; what is unread stays. -/
def clear (i : InputStream) : InputStream :=
  .ofBytes i.rest

def failureMessage (i : InputStream) : Bytes :=
  if i.ended then ascii "end of input stream" else ascii "failed to read from input stream"

/-- Reads up to the next newline, which is taken but not returned, or to the end if there is any
byte before it. -/
def readLine (i : InputStream) : Except Bytes Bytes × InputStream :=
  if !i.good then (.error i.failureMessage, { i with failed := true })
  else
    match i.rest with
    | [] =>
      let i := { i with ended := true, failed := true }
      (.error i.failureMessage, i)
    | s =>
      let line := s.takeWhile (· ≠ Ascii.newline)
      match s.dropWhile (· ≠ Ascii.newline) with
      | [] => (.ok line, { i with rest := [], ended := true })
      | _ :: rest => (.ok line, { i with rest })

end InputStream

def Sink.print (text : Bytes) (sink : Sink) : Except Bytes Unit × Sink :=
  let sink := sink.write text
  (if sink.broken then .error (ascii "failed to write to output stream") else .ok (), sink)

structure Streams where
  input : InputStream
  output : Sink
  deriving DecidableEq, Repr

namespace Streams

def ofInput (s : Bytes) : Streams :=
  ⟨.ofBytes s, .unlimited⟩

def print (text : Bytes) (t : Streams) : Except Bytes Unit × Streams :=
  let (result, output) := t.output.print text
  (result, { t with output })

def readLine (t : Streams) : Except Bytes Bytes × Streams :=
  let (result, input) := t.input.readLine
  (result, { t with input })

instance : Terminal Streams where
  print := print
  readLine := readLine
  patience t := t.input.rest.length

end Streams

end Repl
