import Repl.Proofs.Session.Alignment
import Repl.Proofs.Session.Positions

/-!
A session sees no more of its terminal than it reads. On hosts that give the same for so many reads,
two sessions go alike as long as they read no more often.
-/

namespace Repl

open Exchange Terminal

variable {ω κ γ α : Type} {R : Nat → ω → ω → Prop}

/-- Hosts that are related at `k` give the same for `k` reads, and for prints and log entries at any
time. -/
structure Host.Agree [Host ω] (R : Nat → ω → ω → Prop) : Prop where
  print : ∀ {k h h'} text, R k h h' →
    (Terminal.print text h').1 = (Terminal.print text h).1 ∧
      R k (Terminal.print text h).2 (Terminal.print text h').2
  readLine : ∀ {k h h'}, R (k + 1) h h' →
    (Terminal.readLine h').1 = (Terminal.readLine h).1 ∧
      R k (Terminal.readLine h).2 (Terminal.readLine h').2
  log : ∀ {k h h'} entry, R k h h' →
    (Host.log entry h').1 = (Host.log entry h).1 ∧ R k (Host.log entry h).2 (Host.log entry h').2

/-- The events are the same, and leave `k'` of `k` reads. -/
structure Transcript.Shares (k : Nat) (t u : Transcript) (k' : Nat) : Prop where
  same : u = t
  left : t.reads + k' = k

/-- Two sessions that do the same for so many reads. They part with the first read after those. -/
def sharing (R : Nat → ω → ω → Prop) : Alignment ω Nat where
  Hosts := R
  Events := Transcript.Shares
  Parted k t := k < t.reads

namespace Transcript.Shares

variable {k k' k'' : Nat} {t u t' u' : Transcript}

theorem of_reads_eq_zero (h : t.reads = 0) (k : Nat) : Shares k t t k :=
  ⟨rfl, by rw [h, Nat.zero_add]⟩

theorem append (h : Shares k t u k') (h' : Shares k' t' u' k'') :
    Shares k (t ++ t') (u ++ u') k'' where
  same := by rw [h.same, h'.same]
  left := by
    have hfirst := h.left
    have hsecond := h'.left
    rw [reads_append]
    omega

theorem nested (h : Shares k t u k') : Shares k (t.map .nested) (u.map .nested) k' where
  same := by rw [h.same]
  left := by rw [reads_nested, h.left]

end Transcript.Shares

namespace Host.Agree

theorem composes : (sharing R).Composes where
  nil := Transcript.Shares.of_reads_eq_zero rfl
  append := Transcript.Shares.append
  nested := Transcript.Shares.nested
  applied k _ _ := Transcript.Shares.of_reads_eq_zero rfl k
  parted_append := by
    intro k t t' h _
    change k < t.reads at h
    show k < Transcript.reads (t ++ t')
    rw [Transcript.reads_append]
    omega
  append_parted := by
    intro k k' t u t' h h'
    change k' < t'.reads at h'
    have hleft : t.reads + k' = k := h.left
    show k < Transcript.reads (t ++ t')
    rw [Transcript.reads_append]
    omega
  parted_nested := by
    intro k t h
    change k < t.reads at h
    show k < Transcript.reads (t.map .nested)
    rwa [Transcript.reads_nested]

variable [Host ω] {k : Nat} {h h' : ω} {event : Call → Event}

theorem printFor_alike (hR : Host.Agree R) (purpose : Purpose) (text : Bytes)
    (hevent : Event.Uses event) (hh : R k h h') :
    (sharing R).Alike event k (printFor purpose text h) (printFor purpose text h') k := by
  have ⟨hsame, hafter⟩ := hR.print text hh
  rw [printFor_apply, printFor_apply, hsame]
  refine ⟨rfl, .of_reads_eq_zero ?_ k, hafter⟩
  rw [Transcript.reads_map hevent]
  exact Call.reads_cons_of_not_isRead (Invocation.isRead_ofPrint _ _) []

theorem prints (hR : Host.Agree R) : (sharing R).Prints :=
  fun purpose text hevent hh => .inl (hR.printFor_alike purpose text hevent hh)

theorem nextLine_alike (hR : Host.Agree R) (hevent : Event.Uses event) (hh : R (k + 1) h h') :
    (sharing R).Alike event (k + 1) (nextLine h) (nextLine h') k := by
  have ⟨hsame, hafter⟩ := hR.readLine hh
  rw [nextLine_apply, nextLine_apply, hsame]
  refine ⟨rfl, ⟨rfl, ?_⟩, hafter⟩
  rw [Transcript.reads_map hevent, Call.reads_cons_of_isRead (Invocation.isRead_ofRead _)]
  exact Nat.add_comm 1 k

/-- Whatever follows a read, the read is one. -/
theorem reads_nextLine_bind_pos (f : Bytes → Exchange Call ω α) (h : ω) :
    0 < Call.reads ((nextLine >>= f) h).events := by
  have hread : Call.reads (nextLine h).events = 1 := by
    rw [nextLine_apply]
    exact Call.reads_cons_of_isRead (Invocation.isRead_ofRead _) []
  cases houtcome : (nextLine h).outcome with
  | error message =>
    rw [bind_apply_of_error houtcome]
    show 0 < Call.reads (nextLine h).events
    omega
  | ok line =>
    rw [bind_apply_of_ok houtcome]
    show 0 < Call.reads ((nextLine h).events ++ _)
    rw [Call.reads_append]
    omega

/-- A round of a question reads, unless it fails before. -/
theorem askOnce_cases_zero (hR : Host.Agree R) (hevent : Event.Uses event) (prompt : Bytes)
    (parse : Bytes → Except Bytes α) (hh : R 0 h h') :
    (sharing R).Alike event 0 (askOnce prompt parse h) (askOnce prompt parse h') 0 ∨
      (sharing R).Parted 0 ((askOnce prompt parse h).events.map event) := by
  have hprompt := hR.printFor_alike .prompt prompt hevent hh
  unfold askOnce
  cases houtcome : (printFor .prompt prompt h).outcome with
  | error message =>
    rw [bind_apply_of_error houtcome, bind_apply_of_error (hprompt.outcome.trans houtcome)]
    exact .inl ⟨rfl, hprompt.events, hprompt.hosts⟩
  | ok _ =>
    rw [bind_apply_of_ok houtcome]
    refine .inr ?_
    show 0 < Transcript.reads ((_ ++ _ : List Call).map event)
    rw [Transcript.reads_map hevent, Call.reads_append]
    exact Nat.add_pos_right _ (reads_nextLine_bind_pos _ _)

theorem lawful (hR : Host.Agree R) : (sharing R).Lawful where
  toComposes := composes
  print := hR.prints
  line := by
    intro k h h' event hevent hh
    cases k with
    | zero =>
      refine .inr ?_
      show 0 < Transcript.reads ((nextLine h).events.map event)
      rw [Transcript.reads_map hevent, nextLine_apply]
      exact Nat.lt_of_lt_of_eq Nat.one_pos
        (Call.reads_cons_of_isRead (Invocation.isRead_ofRead _) []).symm
    | succ k => exact .inl ⟨k, hR.nextLine_alike hevent hh⟩
  round := by
    intro α k h h' event prompt parse hevent hh
    cases k with
    | zero =>
      cases hR.askOnce_cases_zero hevent prompt parse hh with
      | inl halike => exact .inl ⟨0, halike⟩
      | inr hparted => exact .inr (.inr hparted)
    | succ k =>
      have hround := composes.goes_askOnce hR.prints hevent
        (fun hh => .inl ⟨k, hR.nextLine_alike hevent hh⟩) prompt parse hh
      cases hround with
      | inl halike => exact .inl halike
      | inr hbreaks => exact .inr (.inr hbreaks.events)
  log := by
    intro k h h' entry hh
    have ⟨hsame, hafter⟩ := hR.log entry hh
    refine ⟨?_, hafter⟩
    unfold Alignment.notes
    rw [hsame]
    apply Transcript.Shares.of_reads_eq_zero
    cases (Host.log entry h).1 <;> rfl

end Host.Agree

/-- On hosts that give the same for `k` reads, a session that reads no more often than that is the
same on both. -/
theorem Session.run_of_agree [Host ω] {P : ω → Prop} (hP : Host.Supply P) (hR : Host.Agree R)
    (app : Application κ γ) {s s' : State ω γ} {k : Nat} (hhost : P s.host) (hhost' : P s'.host)
    (hs : (sharing R).States k s s') (hreads : Transcript.reads (run app s).events ≤ k) :
    (run app s').outcome = (run app s).outcome ∧ (run app s').events = (run app s).events ∧
      ∃ left, Transcript.reads (run app s).events + left = k ∧
        (sharing R).States left (run app s).state (run app s').state := by
  cases run_follows hP hR.lawful app hhost hhost' hs with
  | inl halike =>
    obtain ⟨_, left, rfl, houtcome, hevents, hstates⟩ := halike
    exact ⟨houtcome, hevents.same, left, hevents.left, hstates⟩
  | inr hparted =>
    change k < Transcript.reads (run app s).events at hparted
    omega

end Repl
