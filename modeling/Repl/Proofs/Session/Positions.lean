import Repl.Proofs.Session.Calls
import Repl.Proofs.Session.Reads

/-!
Positions in a session, told by reads: each read of a session stands where it does by the number of
reads before it.
-/

namespace Repl

namespace Call

/-- How many of the calls are reads. -/
def reads (calls : List Call) : Nat :=
  Invocation.reads (calls.map Call.invocation)

theorem reads_append (calls others : List Call) :
    reads (calls ++ others) = reads calls + reads others := by
  unfold reads
  rw [List.map_append]
  exact List.countP_append

theorem reads_cons_of_isRead {call : Call} (h : call.invocation.isRead = true)
    (calls : List Call) : reads (call :: calls) = reads calls + 1 :=
  List.countP_cons_of_pos h

theorem reads_cons_of_not_isRead {call : Call} (h : call.invocation.isRead = false)
    (calls : List Call) : reads (call :: calls) = reads calls :=
  List.countP_cons_of_neg (by simp [h])

/-- The number of reads before it tells where a read stands. -/
theorem eq_of_reads_eq {call call' : Call} (h : call.invocation.isRead = true)
    (h' : call'.invocation.isRead = true) :
    ∀ {before before' after after' : List Call},
      before ++ call :: after = before' ++ call' :: after' → reads before = reads before' →
        before = before' ∧ call :: after = call' :: after'
  | [], [], _, _, heq, _ => ⟨rfl, heq⟩
  | [], first :: before', _, _, heq, hreads => by
    obtain ⟨rfl, -⟩ := List.cons.inj heq
    rw [reads_cons_of_isRead h] at hreads
    cases hreads
  | first :: before, [], _, _, heq, hreads => by
    obtain ⟨rfl, -⟩ := List.cons.inj heq
    rw [reads_cons_of_isRead h'] at hreads
    cases hreads
  | first :: before, first' :: before', after, after', heq, hreads => by
    obtain ⟨rfl, htail⟩ := List.cons.inj heq
    have hrest : reads before = reads before' := by
      have hfirst : reads (first :: before) = reads [first] + reads before := reads_append [first] _
      have hfirst' : reads (first :: before') = reads [first] + reads before' :=
        reads_append [first] _
      omega
    have ⟨hbefore, hafter⟩ := eq_of_reads_eq h h' htail hrest
    exact ⟨congrArg (first :: ·) hbefore, hafter⟩

end Call

namespace Transcript

/-- How many of the events are reads. -/
def reads (t : Transcript) : Nat :=
  Call.reads t.calls

theorem reads_append (t u : Transcript) : reads (t ++ u) = reads t + reads u := by
  unfold reads
  rw [calls_append, Call.reads_append]

theorem reads_nested (t : Transcript) : reads (t.map .nested) = reads t := by
  unfold reads
  rw [calls_map_nested]

theorem reads_map {event : Call → Event} (hevent : Event.Uses event) (calls : List Call) :
    reads (calls.map event) = Call.reads calls := by
  unfold reads
  rw [calls_map hevent]

theorem IsLog.reads_eq_zero {t : Transcript} (h : t.IsLog) : reads t = 0 := by
  rw [reads, h.calls_eq_nil]
  rfl

end Transcript

end Repl
