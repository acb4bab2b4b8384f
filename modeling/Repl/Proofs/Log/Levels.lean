import Repl.Proofs.Log.Delivery

/-!
The levels that a history leaves, told by the calls that set them. A category that was set keeps its
level whatever becomes of the default category; all others follow the default category.
-/

namespace Repl.Log

namespace Level

/-- The one level is before the other, from `debug` up to `none`. -/
def Below (level other : Level) : Prop :=
  [level, other].Sublist all

instance (level other : Level) : Decidable (level.Below other) :=
  inferInstanceAs (Decidable (List.Sublist _ _))

theorem below_iff_rank_lt {level other : Level} : level.Below other ↔ level.rank < other.rank := by
  cases level <;> cases other <;> decide

end Level

namespace History

variable {α : Type} {history : History} {category : Bytes} {level : Level}

/-- The last call that sets the category sets it to the level. -/
def LastSet (history : History) (category : Bytes) (level : Level) : Prop :=
  ∃ before after, history = before ++ .setLevel category level :: after ∧
    ∀ other, .setLevel category other ∉ after

def NeverSet (history : History) (category : Bytes) : Prop :=
  ∀ level, .setLevel category level ∉ history

/-- The level of a category after a history. The empty category cannot be set. -/
inductive Effective (history : History) (category : Bytes) : Level → Prop where
  | own {level : Level} (hnamed : category ≠ []) (h : history.LastSet category level) :
    Effective history category level
  | fallback {level : Level} (hunset : category = [] ∨ history.NeverSet category)
    (h : history.LastSet defaultCategory level) : Effective history category level
  | initial (hunset : category = [] ∨ history.NeverSet category)
    (h : history.NeverSet defaultCategory) : Effective history category .info

/-! ## The last use that tells something -/

theorem last?_eq_some_iff {tells : Use → Option α} {a : α} :
    history.last? tells = some a ↔
      ∃ before u after, history = before ++ u :: after ∧ tells u = some a ∧
        ∀ v ∈ after, tells v = none := by
  induction history using List.reverseRecOn with
  | nil => simp [last?]
  | append_singleton history u ih =>
    rw [last?_concat]
    constructor
    · intro h
      cases hu : tells u with
      | some b =>
        rw [hu, Option.some_or] at h
        exact ⟨history, u, [], rfl, hu.trans h, List.forall_mem_nil _⟩
      | none =>
        rw [hu, Option.none_or] at h
        obtain ⟨before, v, after, rfl, hv, hafter⟩ := ih.1 h
        refine ⟨before, v, after ++ [u], by simp, hv, fun w hw => ?_⟩
        rcases mem_concat_iff.1 hw with hw | rfl
        · exact hafter w hw
        · exact hu
    · rintro ⟨before, v, after, heq, hv, hafter⟩
      obtain ⟨rfl, rfl, rfl⟩ | ⟨front, rfl, rfl⟩ := concat_eq_append_cons_iff.1 heq
      · rw [hv, Option.some_or]
      · rw [hafter u (mem_concat_iff.2 (.inr rfl)), Option.none_or]
        exact ih.2 ⟨before, v, front, rfl, hv, fun w hw => hafter w (mem_concat_iff.2 (.inl hw))⟩

theorem last?_eq_none_iff {tells : Use → Option α} :
    history.last? tells = none ↔ ∀ u ∈ history, tells u = none := by
  rw [last?, List.getLast?_eq_none_iff, List.filterMap_eq_nil_iff]

theorem level?_eq_some_iff {u : Use} :
    u.level? category = some level ↔ category ≠ [] ∧ u = .setLevel category level := by
  cases u with
  | setLevel other set =>
    rw [Use.level?]
    by_cases h : other = category ∧ category ≠ []
    · obtain ⟨rfl, hnamed⟩ := h
      simp [hnamed]
    · rw [if_neg h]
      refine iff_of_false (Option.some_ne_none level).symm ?_
      rintro ⟨hnamed, hset⟩
      cases hset
      exact h ⟨rfl, hnamed⟩
  | subscribe | setConsole | openFile | closeFile | log | rewrite => simp [Use.level?]

theorem level?_eq_none_iff {u : Use} (hnamed : category ≠ []) :
    u.level? category = none ↔ ∀ level, u ≠ .setLevel category level := by
  rw [Option.eq_none_iff_forall_ne_some]
  exact forall_congr' fun level => not_congr (level?_eq_some_iff.trans (and_iff_right hnamed))

theorem last?_level_eq_some_iff (hnamed : category ≠ []) :
    history.last? (Use.level? category) = some level ↔ history.LastSet category level := by
  rw [last?_eq_some_iff]
  constructor
  · rintro ⟨before, u, after, rfl, hu, hafter⟩
    obtain ⟨-, rfl⟩ := level?_eq_some_iff.1 hu
    exact ⟨before, after, rfl,
      fun other hmem => (level?_eq_none_iff hnamed).1 (hafter _ hmem) other rfl⟩
  · rintro ⟨before, after, rfl, hafter⟩
    refine ⟨before, _, after, rfl, level?_eq_some_iff.2 ⟨hnamed, rfl⟩, fun v hv => ?_⟩
    rw [level?_eq_none_iff hnamed]
    rintro other rfl
    exact hafter other hv

theorem last?_level_eq_none_iff (hnamed : category ≠ []) :
    history.last? (Use.level? category) = none ↔ history.NeverSet category := by
  rw [last?_eq_none_iff]
  constructor
  · intro h level hmem
    exact (level?_eq_none_iff hnamed).1 (h _ hmem) level rfl
  · intro h u hu
    rw [level?_eq_none_iff hnamed]
    rintro level rfl
    exact h level hu

theorem last?_level_nil : history.last? (Use.level? []) = none := by
  rw [last?_eq_none_iff]
  intro u _
  rw [Option.eq_none_iff_forall_ne_some]
  intro level h
  exact (level?_eq_some_iff.1 h).1 rfl

theorem effective_level (history : History) (category : Bytes) :
    history.Effective category (history.level category) := by
  have hdefault : defaultCategory ≠ [] := List.cons_ne_nil _ _
  rw [level]
  cases hown : history.last? (Use.level? category) with
  | some level =>
    have hnamed : category ≠ [] := by
      rintro rfl
      cases last?_level_nil.symm.trans hown
    exact .own hnamed ((last?_level_eq_some_iff hnamed).1 hown)
  | none =>
    have hunset : category = [] ∨ history.NeverSet category := by
      by_cases hnamed : category = []
      · exact .inl hnamed
      · exact .inr ((last?_level_eq_none_iff hnamed).1 hown)
    rw [Option.none_or]
    cases hfallback : history.last? (Use.level? defaultCategory) with
    | some level => exact .fallback hunset ((last?_level_eq_some_iff hdefault).1 hfallback)
    | none => exact .initial hunset ((last?_level_eq_none_iff hdefault).1 hfallback)

theorem Effective.eq_level (h : history.Effective category level) :
    level = history.level category := by
  have hdefault : defaultCategory ≠ [] := List.cons_ne_nil _ _
  have hown (hunset : category = [] ∨ history.NeverSet category) :
      history.last? (Use.level? category) = none := by
    by_cases hnamed : category = []
    · rw [hnamed]
      exact last?_level_nil
    · exact (last?_level_eq_none_iff hnamed).2 (hunset.resolve_left hnamed)
  cases h with
  | own hnamed h => rw [History.level, (last?_level_eq_some_iff hnamed).2 h]; rfl
  | fallback hunset h =>
    rw [History.level, hown hunset, (last?_level_eq_some_iff hdefault).2 h]
    rfl
  | initial hunset h =>
    rw [History.level, hown hunset, (last?_level_eq_none_iff hdefault).2 h]
    rfl

/-- Every category has one level. -/
theorem effective_iff : history.Effective category level ↔ level = history.level category := by
  constructor
  · exact Effective.eq_level
  · rintro rfl
    exact effective_level history category

theorem Effective.emits_iff {e : Entry} (h : history.Effective e.category level) :
    history.Emits e ↔ level ≠ .none ∧ ¬e.level.Below level := by
  rw [Emits, ← effective_iff.1 h, Level.below_iff_rank_lt, Nat.not_lt]

end History

namespace Desk

/-- After any history, the level of a category is the one that was set last for it. If none was set,
it is the one that was set last for the default category, or `info`. Setting a level for the empty
category does nothing. An entry is let through, and delivered, just if the level of its category is
not `none` and its own level is not below it. -/
theorem effective_levels (files : Files) (history : History) :
    let d := (new files).after history
    (∀ category level, d.logger.level category = level ↔ history.Effective category level) ∧
      (∀ level later, (new files).after (history ++ .setLevel [] level :: later) =
        (new files).after (history ++ later)) ∧
      ∀ now e level, history.Effective e.category level →
        if level ≠ .none ∧ ¬e.level.Below level then
          Delivered files history (Subscriber.audience history.subscribers) now e d
            (d.use (.log now e))
        else d.use (.log now e) = d := by
  have hfollows := Logger.follows_after files history
  refine ⟨fun category level => ?_, fun level later => ?_, fun now e level hlevel => ?_⟩
  · rw [hfollows.level_eq, History.effective_iff, eq_comm]
  · rw [after, after, List.foldl_append, List.foldl_append]
    rfl
  · by_cases hemits : history.Emits e
    · rw [if_pos (hlevel.emits_iff.1 hemits)]
      exact (kept_after files history).delivered hfollows (after_resolve _ history) hemits now
    · rw [if_neg (mt hlevel.emits_iff.2 hemits)]
      exact use_log_of_not_admits (mt (hfollows.admits_iff e).1 hemits) now

/-- A level of its own stays when the default category changes. -/
example :
    let d := (new .empty).after
      [.setLevel (ascii "net") .debug, .setLevel defaultCategory .error, .setLevel [] .none]
    d.logger.level (ascii "net") = .debug ∧ d.logger.level (ascii "disk") = .error ∧
      d.logger.level [] = .error := by
  decide

end Desk

end Repl.Log
