import Repl.Terminal.Basic

/-!
Requests to a terminal, as data: the uses that a program makes of a terminal one after another.
-/

namespace Repl.Terminal

inductive Request where
  | print (text : Bytes)
  | printLine (text : Bytes)
  | readLine
  | readValue (prompt : Bytes) (type : ValueType) (orDefault : Bool)
  deriving DecidableEq, Repr

/-- What a terminal gives to a request that succeeds: nothing for a print, and the text of a line or
of a value for a read. -/
abbrev Answer := Option Bytes

variable {τ : Type} [Terminal τ]

def serve : Request → Exchange Call τ Answer
  | .print text => do
    write text
    pure none
  | .printLine text => do
    writeLine text
    pure none
  | .readLine => do
    let line ← nextLine
    pure (some line)
  | .readValue prompt type orDefault => do
    let value ← readTyped prompt type orDefault
    pure (some value.render)

/-- Serves requests one after another, whether they succeed or not. -/
def serveAll : List Request → τ → List (Reply Call τ Answer)
  | [], _ => []
  | request :: rest, t =>
    let reply := serve request t
    reply :: serveAll rest reply.state

end Repl.Terminal
