import Repl.Proofs.Session.Alignment
import Repl.Proofs.Session.Script
import Repl.Session.Rehearsal

/-!
A logger only watches. Sessions on benches with different loggers go alike, and what one logger lets
through of the entries that another one does, it lets through at the same moments.
-/

namespace Repl

open Exchange Terminal

variable {κ γ : Type}

/-! ## Entries among events -/

namespace Event

/-- An entry is no use of the terminal. -/
theorem invocation?_eq_none {entry : Log.Entry} :
    ∀ {e : Event}, e.entry? = some entry → e.invocation? = none
  | logged _, _ => rfl
  | nested e, h => invocation?_eq_none (e := e) h

end Event

namespace Transcript

/-- The events with only those log entries that `keep` holds of. -/
def quieted (keep : Log.Entry → Bool) (t : Transcript) : Transcript :=
  t.filter fun e => e.entry?.all keep

variable {keep : Log.Entry → Bool}

theorem quieted_append (t u : Transcript) :
    quieted keep (t ++ u) = quieted keep t ++ quieted keep u :=
  List.filter_append ..

theorem quieted_nested (t : Transcript) :
    quieted keep (t.map .nested) = (quieted keep t).map .nested :=
  List.filter_map

theorem quieted_calls {event : Call → Event} (hevent : Event.Uses event) (calls : List Call) :
    quieted keep (calls.map event) = calls.map event := by
  apply List.filter_eq_self.2
  intro e he
  obtain ⟨call, _, rfl⟩ := List.mem_map.1 he
  rw [Event.entry?_eq_none (hevent call)]
  rfl

theorem quieted_logged (entries : List Log.Entry) :
    quieted keep (entries.map .logged) = (entries.filter keep).map .logged :=
  List.filter_map

variable {e : Event} {entry : Log.Entry}

theorem quieted_cons_of_none (h : e.entry? = none) (t : Transcript) :
    quieted keep (e :: t) = e :: quieted keep t := by
  apply List.filter_cons_of_pos
  rw [h]
  rfl

theorem quieted_cons_of_some (h : e.entry? = some entry) (t : Transcript) :
    quieted keep (e :: t) = if keep entry then e :: quieted keep t else quieted keep t := by
  rw [quieted, List.filter_cons, h]
  rfl

theorem entriesAfter_cons_of_none (h : e.entry? = none) (earlier : Nat) (t : Transcript) :
    entriesAfter earlier (e :: t) = entriesAfter (earlier + e.invocation?.toList.length) t := by
  rw [entriesAfter, h]
  rfl

theorem entriesAfter_cons_of_some (h : e.entry? = some entry) (earlier : Nat) (t : Transcript) :
    entriesAfter earlier (e :: t) = (earlier, entry) :: entriesAfter earlier t := by
  rw [entriesAfter, h, Event.invocation?_eq_none h]
  rfl

/-- Entries that are left out are no uses of the terminal. -/
theorem invocations_quieted (t : Transcript) :
    invocations (quieted keep t) = invocations t := by
  induction t with
  | nil => rfl
  | cons e t ih =>
    unfold invocations at *
    cases hentry : e.entry? with
    | none => rw [quieted_cons_of_none hentry, List.filterMap_cons, List.filterMap_cons, ih]
    | some entry =>
      have hnone := Event.invocation?_eq_none hentry
      rw [quieted_cons_of_some hentry, List.filterMap_cons_none hnone]
      by_cases hkept : keep entry = true
      · rw [if_pos hkept, List.filterMap_cons_none hnone, ih]
      · rw [if_neg hkept, ih]

/-- Nor do they count when the moments of the others are told. -/
theorem entriesAfter_quieted (earlier : Nat) (t : Transcript) :
    entriesAfter earlier (quieted keep t) =
      (entriesAfter earlier t).filter fun (_, entry) => keep entry := by
  induction t generalizing earlier with
  | nil => rfl
  | cons e t ih =>
    cases hentry : e.entry? with
    | none =>
      rw [quieted_cons_of_none hentry, entriesAfter_cons_of_none hentry,
        entriesAfter_cons_of_none hentry, ih]
    | some entry =>
      rw [quieted_cons_of_some hentry, entriesAfter_cons_of_some hentry, List.filter_cons]
      by_cases hkept : keep entry = true
      · rw [if_pos hkept, if_pos hkept, entriesAfter_cons_of_some hentry, ih]
      · rw [if_neg hkept, if_neg hkept, ih]

end Transcript

/-! ## Benches with different loggers -/

/-- The other bench differs in the logger: of the entries that the first one lets through, it lets
those through that `keep` holds of. -/
def quieting (keep : Log.Entry → Bool) : Alignment Bench Unit where
  Hosts _ b b' := b'.terminal = b.terminal ∧ ∀ entry, b'.admits entry = (b.admits entry && keep entry)
  Events _ t u _ := u = t.quieted keep
  Parted _ _ := False

namespace Bench

variable {keep : Log.Entry → Bool} {b b' : Bench}

theorem quieting_composes : (quieting keep).Composes where
  nil _ := rfl
  append := by
    intro _ _ _ t u t' u' h h'
    change u = t.quieted keep at h
    change u' = t'.quieted keep at h'
    show u ++ u' = (t ++ t').quieted keep
    rw [Transcript.quieted_append, h, h']
  nested := by
    intro _ _ t u h
    change u = t.quieted keep at h
    show u.map .nested = Transcript.quieted keep (t.map .nested)
    rw [Transcript.quieted_nested, h]
  applied _ _ _ := rfl
  parted_append h _ := h
  append_parted _ h := h
  parted_nested h := h

/-- What the terminal gives does not depend on the logger. -/
theorem reply_alike {α : Type} {event : Call → Event} (hevent : Event.Uses event)
    (hb : (quieting keep).Hosts () b b') (given : Reply Call Scripted α) :
    (quieting keep).Alike event () (b.reply given) (b'.reply given) () where
  outcome := rfl
  events := (Transcript.quieted_calls hevent given.events).symm
  hosts := ⟨rfl, hb.2⟩

theorem quieting_prints : (quieting keep).Prints := by
  intro _ b b' event purpose text hevent hb
  rw [printFor_eq, printFor_eq, hb.1]
  exact .inl (reply_alike hevent hb _)

theorem quieting_line {event : Call → Event} (hevent : Event.Uses event)
    (hb : (quieting keep).Hosts () b b') :
    ∃ k', (quieting keep).Alike event () (nextLine b) (nextLine b') k' := by
  rw [nextLine_eq, nextLine_eq, hb.1]
  exact ⟨(), reply_alike hevent hb _⟩

theorem quieting_lawful : (quieting keep).Lawful where
  toComposes := quieting_composes
  print := quieting_prints
  line _ _ _ _ hevent hb := .inl (quieting_line hevent hb)
  round := by
    intro α _ b b' event prompt parse hevent hb
    have hround := quieting_composes.goes_askOnce quieting_prints hevent
      (fun hb => .inl (quieting_line hevent hb)) prompt parse hb
    cases hround with
    | inl halike => exact .inl halike
    | inr hbroken => exact hbroken.events.elim
  log := by
    intro _ b b' entry hb
    refine ⟨?_, hb⟩
    show (if b'.admits entry then _ else _) =
      Transcript.quieted keep (if b.admits entry then _ else _)
    rw [hb.2 entry]
    cases b.admits entry with
    | false => rfl
    | true =>
      rw [if_pos rfl, Transcript.quieted_cons_of_some rfl]
      rfl

end Bench

namespace Session

variable {keep : Log.Entry → Bool}

theorem run_quieted (app : Application κ γ) {s s' : State Bench γ} (hscript : s.host.HasScript)
    (hs : (quieting keep).States () s s') :
    (run app s').outcome = (run app s).outcome ∧
      (run app s').events = Transcript.quieted keep (run app s).events ∧
        (quieting keep).States () (run app s).state (run app s').state := by
  have hscript' : s'.host.HasScript := by
    unfold Bench.HasScript
    rw [hs.hosts.1]
    exact hscript
  cases run_follows Bench.supply Bench.quieting_lawful app hscript hscript' hs with
  | inl h =>
    obtain ⟨_, k', rfl, haligned⟩ := h
    exact haligned
  | inr hparted => exact hparted.elim

theorem runAll_quieted (app : Application κ Bytes) (count : Nat) {s s' : State Bench Bytes}
    (hscript : s.host.HasScript) (hs : (quieting keep).States () s s') :
    (runAll app count s').map Rehearsal.showing = (runAll app count s).map Rehearsal.showing ∧
      (runAll app count s').flatMap (·.events) =
        Transcript.quieted keep ((runAll app count s).flatMap (·.events)) := by
  induction count generalizing s s' with
  | zero => exact ⟨rfl, rfl⟩
  | succ count ih =>
    have ⟨houtcome, hevents, hafter⟩ := run_quieted app hscript hs
    have ⟨hshowings, hrest⟩ := ih (run_preserves Bench.hasScript_closed app s hscript) hafter
    have hshowing : Rehearsal.showing (run app s') = Rehearsal.showing (run app s) := by
      unfold Rehearsal.showing
      rw [houtcome, hevents, Transcript.invocations_quieted, hafter.context, hafter.flag]
    constructor
    · rw [runAll, runAll, List.map_cons, List.map_cons, hshowing, hshowings]
    · rw [runAll, runAll, List.flatMap_cons, List.flatMap_cons, Transcript.quieted_append, hevents,
        hrest]

end Session

/-! ## Rehearsals with different loggers -/

namespace Bench

/-- A logger for a level has it for every category. -/
theorem level_loggerAt (level : Log.Level) (category : Bytes) :
    (loggerAt level).level category = level := by
  unfold loggerAt Log.Logger.setLevel Log.Logger.level
  rw [if_neg (by decide), if_pos rfl]
  show ((Log.Logger.new.levels.insert Log.defaultCategory level).find? category).getD level = level
  rw [Dictionary.find?_insert]
  by_cases h : category = Log.defaultCategory
  · rw [if_pos h]
    rfl
  · rw [if_neg h, Log.Logger.new, Dictionary.find?_insert, if_neg h, Dictionary.find?_empty]
    rfl

end Bench

namespace Plan

/-- Whether a logger at the level, if there is one, lets an entry through. -/
def letsThrough (level : Option Log.Level) (entry : Log.Entry) : Bool :=
  level.any fun threshold => threshold.admits entry.level

theorem bench_admits (p : Plan) (entry : Log.Entry) :
    p.bench.admits entry = letsThrough p.level entry := by
  unfold bench Bench.admits letsThrough
  cases p.level with
  | none => rfl
  | some level =>
    show Log.Level.admits ((Bench.loggerAt level).level entry.category) entry.level = _
    rw [Bench.level_loggerAt]
    rfl

theorem letsThrough_debug (entry : Log.Entry) : letsThrough (some .debug) entry = true :=
  Log.Level.debug_admits entry.level

/-- The rehearsal of a plan whose commands make the registry. -/
def rehearsal (p : Plan) (r : Registry Stock.Command) : Rehearsal where
  prompts := p.prompts
  start := .start p.bench []
  announced := p.registration.entries.filter p.bench.admits
  replies := Session.runAll (Stock.application r p.prompts) p.runs (.start p.bench [])

theorem rehearse_of_ok {p : Plan} {r : Registry Stock.Command}
    (h : p.registration.outcome = .ok r) : p.rehearse = .ok (p.rehearsal r) := by
  unfold rehearse
  rw [h]
  rfl

theorem rehearse_of_error {p : Plan} {e : SpecError} (h : p.registration.outcome = .error e) :
    p.rehearse = .error e := by
  unfold rehearse
  rw [h]
  rfl

variable (p : Plan) (level : Option Log.Level)

theorem entries_of_error {e : SpecError} (h : p.registration.outcome = .error e) :
    { p with level }.entries =
      (p.registration.entries.filter { p with level }.bench.admits).map fun entry => (0, entry) := by
  unfold entries
  rw [rehearse_of_error (p := { p with level }) h]
  rfl

theorem entries_of_ok {r : Registry Stock.Command} (h : p.registration.outcome = .ok r) :
    { p with level }.entries = Transcript.entriesAfter 0
      ((p.registration.entries.filter { p with level }.bench.admits).map .logged ++
        (Session.runAll (Stock.application r p.prompts) p.runs
          (.start { p with level }.bench [])).flatMap (·.events)) := by
  unfold entries
  rw [rehearse_of_ok (p := { p with level }) h]
  rfl

/-- The plan with a logger that lets everything through. -/
abbrev verbose : Plan :=
  { p with level := some .debug }

theorem start_quieting :
    (quieting (letsThrough level)).States ()
      (Session.State.start (verbose p).bench ([] : Bytes))
      (Session.State.start { p with level }.bench []) where
  hosts := by
    refine ⟨rfl, fun entry => ?_⟩
    show Bench.admits (bench _) entry = (Bench.admits (bench _) entry && _)
    rw [bench_admits, bench_admits, letsThrough_debug]
    rfl
  context := rfl
  flag := rfl

theorem announced_quieted :
    p.registration.entries.filter { p with level }.bench.admits =
      (p.registration.entries.filter (verbose p).bench.admits).filter (letsThrough level) := by
  rw [List.filter_filter]
  apply List.filter_congr
  intro entry _
  rw [bench_admits, bench_admits, letsThrough_debug, Bool.and_true]

theorem performance_eq_verbose :
    { p with level }.rehearse.map Rehearsal.performance =
      (verbose p).rehearse.map Rehearsal.performance := by
  cases h : p.registration.outcome with
  | error e =>
    rw [rehearse_of_error (p := verbose p) h, rehearse_of_error (p := { p with level }) h]
  | ok r =>
    have hsessions := (Session.runAll_quieted (Stock.application r p.prompts) p.runs ⟨_, rfl⟩
      (start_quieting p level)).1
    rw [rehearse_of_ok (p := verbose p) h, rehearse_of_ok (p := { p with level }) h]
    show Except.ok (Performance.mk p.prompts [] .stopped (List.map _ _)) =
      Except.ok (Performance.mk p.prompts [] .stopped (List.map _ _))
    exact congrArg _ (congrArg _ hsessions)

theorem entries_eq_verbose :
    { p with level }.entries =
      (verbose p).entries.filter fun (_, entry) => letsThrough level entry := by
  cases h : p.registration.outcome with
  | error e =>
    rw [entries_of_error p level h, entries_of_error p (some .debug) h, announced_quieted,
      List.filter_map]
    rfl
  | ok r =>
    have hevents := (Session.runAll_quieted (Stock.application r p.prompts) p.runs ⟨_, rfl⟩
      (start_quieting p level)).2
    rw [entries_of_ok p level h, entries_of_ok p (some .debug) h,
      ← Transcript.entriesAfter_quieted, Transcript.quieted_append, Transcript.quieted_logged,
      announced_quieted, hevents]

/-- Logging does not interfere. With any logger or none, registration has the same outcome, and the
sessions end the same, make the same use of the terminal and leave the same context and flag. From
its level on, unless that is `none`, a logger lets through what one for `debug` does, at the same
moments; otherwise nothing is let through. -/
theorem logging_does_not_interfere (p : Plan) :
    (∀ level level' : Option Log.Level,
      { p with level }.rehearse.map Rehearsal.performance =
        { p with level := level' }.rehearse.map Rehearsal.performance) ∧
    (∀ level : Log.Level,
      { p with level := some level }.entries =
        if level = .none then []
        else { p with level := some .debug }.entries.filter fun (_, entry) =>
          level.rank ≤ entry.level.rank) ∧
    { p with level := none }.entries = [] := by
  refine ⟨?_, ?_, ?_⟩
  · intro level level'
    rw [performance_eq_verbose p level, performance_eq_verbose p level']
  · intro level
    rw [entries_eq_verbose p (some level)]
    by_cases h : level = .none
    · rw [if_pos h, h]
      exact List.filter_eq_nil_iff.2 fun _ _ => Bool.false_ne_true
    · rw [if_neg h]
      apply List.filter_congr
      intro entry _
      show (level != .none && _) = _
      rw [bne_iff_ne.2 h, Bool.true_and]
  · rw [entries_eq_verbose p none]
    exact List.filter_eq_nil_iff.2 fun _ _ => Bool.false_ne_true

end Plan

end Repl
