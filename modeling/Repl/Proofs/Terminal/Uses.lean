import Repl.Terminal.Request

/-!
The uses that a program can make of a terminal. A question may be for a value of any type, read from
lines in any way.
-/

namespace Repl.Terminal

inductive Use : Type 1 where
  | request (r : Request)
  | question {α : Type} (prompt : Bytes) (parse : Bytes → Except Bytes α)

namespace Use

/-- What the use gives if it succeeds. -/
def Answer : Use → Type
  | request _ => Terminal.Answer
  | @question α _ _ => α

/-- Whether the use reads lines. -/
def reads : Use → Bool
  | request (.print _) | request (.printLine _) => false
  | request .readLine | request (.readValue ..) | question .. => true

variable {τ : Type} [Terminal τ]

def perform : (use : Use) → Exchange Call τ use.Answer
  | request r => serve r
  | question prompt parse => readValue prompt parse

/-- Uses the terminal in one way after another, whether that succeeds or not. -/
def performAll : List Use → Exchange Call τ Unit
  | [] => pure ()
  | use :: rest => do
    let _ ← use.perform.attempt
    performAll rest

end Use

end Repl.Terminal
