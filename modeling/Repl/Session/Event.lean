import Repl.Command.Result
import Repl.Log.Entry
import Repl.Session.Prompts
import Repl.Terminal.Basic

/-!
What happens in a session, in order: its own use of the terminal, that of its commands, their
results, log entries, and what happens in sessions inside it.
-/

namespace Repl

/-- Something that happened in a session. -/
inductive Event where
  /-- The session itself used the terminal. -/
  | loop (call : Call)
  /-- A command used the terminal. -/
  | command (call : Call)
  /-- A command ended and left the run flag in a state. -/
  | applied (result : ApplyResult) (flag : RunFlag)
  /-- The session logged an entry, and the log let it through. -/
  | logged (entry : Log.Entry)
  /-- Something happened in a session that a command ran. -/
  | nested (event : Event)
  deriving DecidableEq, Repr

namespace Event

def invocation? : Event → Option Invocation
  | loop call | command call => some call.invocation
  | applied .. | logged _ => none
  | nested event => event.invocation?

@[simp]
theorem invocation?_loop (call : Call) : (loop call).invocation? = some call.invocation :=
  rfl

@[simp]
theorem invocation?_command (call : Call) : (command call).invocation? = some call.invocation :=
  rfl

def entry? : Event → Option Log.Entry
  | logged entry => some entry
  | loop _ | command _ | applied .. => none
  | nested event => event.entry?

end Event

abbrev Transcript := List Event

namespace Transcript

def invocations (t : Transcript) : List Invocation :=
  t.filterMap Event.invocation?

@[simp]
theorem invocations_append (t u : Transcript) :
    invocations (t ++ u) = invocations t ++ invocations u :=
  List.filterMap_append

theorem invocations_map {event : Call → Event}
    (h : ∀ call, (event call).invocation? = some call.invocation) (calls : List Call) :
    invocations (calls.map event) = calls.map Call.invocation := by
  have hevent : Event.invocation? ∘ event = some ∘ Call.invocation := funext h
  rw [invocations, List.filterMap_map, hevent]
  exact congrFun List.filterMap_eq_map calls

@[simp]
theorem invocations_map_loop (calls : List Call) :
    invocations (calls.map .loop) = calls.map Call.invocation :=
  invocations_map Event.invocation?_loop calls

@[simp]
theorem invocations_map_command (calls : List Call) :
    invocations (calls.map .command) = calls.map Call.invocation :=
  invocations_map Event.invocation?_command calls

@[simp]
theorem invocations_map_nested (t : Transcript) : invocations (t.map .nested) = invocations t := by
  rw [invocations, List.filterMap_map]
  rfl

/-- The log entries, in order, each with the number of uses of the terminal before it, of which
`earlier` were made before the transcript. -/
def entriesAfter (earlier : Nat) : Transcript → List (Nat × Log.Entry)
  | [] => []
  | event :: rest =>
    let here := event.entry?.toList.map fun entry => (earlier, entry)
    here ++ entriesAfter (earlier + event.invocation?.toList.length) rest

end Transcript

end Repl
