import Repl.Command.DispatchTable

/-!
What an insertion into the dispatch table does: it ends in one of four ways, and each says which
keys were free and what the table became. Each half of the table is an index of the commands: a
dictionary that gives the position of a key and grows with the list.
-/

namespace Repl

namespace Dictionary

variable {α : Type}

/-- The dictionary holds the keys that `key?` gives of the elements, at their positions, and no
others. -/
def Indexes (d : Dictionary Nat) (key? : α → Option Bytes) (xs : List α) : Prop :=
  ∀ key i, d.find? key = some i ↔ xs[i]?.bind key? = some key

namespace Indexes

variable {d : Dictionary Nat} {key? : α → Option Bytes} {xs : List α}

theorem empty (key? : α → Option Bytes) : Dictionary.empty.Indexes key? [] := by
  intro key i
  rw [find?_empty, List.getElem?_nil]
  simp

theorem find?_eq_none_iff (h : d.Indexes key? xs) (key : Bytes) :
    d.find? key = none ↔ ∀ x ∈ xs, key? x ≠ some key := by
  rw [Option.eq_none_iff_forall_ne_some]
  constructor
  · intro hnone x hx hkey
    obtain ⟨i, hi⟩ := List.mem_iff_getElem?.1 hx
    exact hnone i ((h key i).2 (by rw [hi]; exact hkey))
  · intro hfree i hi
    obtain ⟨x, hx, hkey⟩ := Option.bind_eq_some_iff.1 ((h key i).1 hi)
    exact hfree x (List.mem_of_getElem? hx) hkey

theorem append_none (h : d.Indexes key? xs) {x : α} (hx : key? x = none) :
    d.Indexes key? (xs ++ [x]) := by
  intro key i
  rw [h key i]
  rcases Nat.lt_trichotomy i xs.length with hi | rfl | hi
  · rw [List.getElem?_append_left hi]
  · rw [List.getElem?_concat_length, List.getElem?_eq_none (Nat.le_refl _)]
    simp [hx]
  · rw [List.getElem?_eq_none (by omega), List.getElem?_eq_none (by simp; omega)]

theorem append_some (h : d.Indexes key? xs) {x : α} {new : Bytes} (hx : key? x = some new)
    (hfree : d.find? new = none) : (d.insert new xs.length).Indexes key? (xs ++ [x]) := by
  intro key i
  rw [find?_insert]
  rcases Nat.lt_trichotomy i xs.length with hi | rfl | hi
  · -- No position before the last one has the new key, which was free.
    rw [List.getElem?_append_left hi, ← h key i]
    by_cases hkey : key = new
    · rw [if_pos hkey, hkey, hfree]
      simp; omega
    · rw [if_neg hkey]
  · have hold : d.find? key ≠ some xs.length := by
      rw [Ne, h key, List.getElem?_eq_none (Nat.le_refl _)]
      simp
    rw [List.getElem?_concat_length, Option.bind_some, hx]
    by_cases hkey : key = new
    · simp [hkey]
    · simp [hkey, hold, Ne.symm hkey]
  · have hold : d.find? key ≠ some i := by
      rw [Ne, h key, List.getElem?_eq_none (by omega)]
      simp
    rw [List.getElem?_eq_none (l := xs ++ [x]) (by simp; omega)]
    by_cases hkey : key = new
    · simp [hkey]; omega
    · simp [hkey, hold]

end Indexes

end Dictionary

namespace DispatchTable

variable (t : DispatchTable) (index : Nat) (name : Bytes) (shorthand : Option Bytes)

theorem find?_eq_none_iff {t : DispatchTable} {key : Bytes} :
    t.find? key = none ↔ t.shorthands.find? key = none ∧ t.names.find? key = none := by
  rw [find?]
  cases t.shorthands.find? key <;> simp

theorem contains_or_contains (key : Bytes) :
    (t.shorthands.contains key || t.names.contains key) = (t.find? key).isSome := by
  rw [find?, Dictionary.contains, Dictionary.contains]
  cases t.shorthands.find? key <;> simp

/-- The table with the shorthand, if there is one. -/
def bindShorthand : DispatchTable :=
  match shorthand with
  | none => t
  | some key => { t with shorthands := t.shorthands.insert key index }

/-- The table with the name. -/
def bindName : DispatchTable :=
  { t with names := t.names.insert name index }

@[simp]
theorem bindShorthand_names : (t.bindShorthand index shorthand).names = t.names := by
  cases shorthand <;> rfl

theorem bindShorthand_shorthands_find? (key : Bytes) :
    (t.bindShorthand index shorthand).shorthands.find? key =
      if shorthand = some key then some index else t.shorthands.find? key := by
  cases shorthand with
  | none => rfl
  | some own =>
    rw [bindShorthand, Dictionary.find?_insert]
    by_cases h : key = own
    · simp [h]
    · simp [h, Ne.symm h]

theorem bindShorthand_find?_eq_none_iff {key : Bytes} :
    (t.bindShorthand index shorthand).find? key = none ↔
      shorthand ≠ some key ∧ t.find? key = none := by
  rw [find?_eq_none_iff, find?_eq_none_iff, bindShorthand_shorthands_find?, bindShorthand_names]
  by_cases h : shorthand = some key <;> simp [h]

/-- The ways in which an insertion can end. -/
inductive Insertion : Option KeyError × DispatchTable → Prop where
  | takenShorthand (key : Bytes) (hkey : shorthand = some key) (taken : t.find? key ≠ none) :
    Insertion (some (.duplicate key), t)
  | shortName (free : ∀ key, shorthand = some key → t.find? key = none) (short : name.length < 2) :
    Insertion (some (.shortName name), t.bindShorthand index shorthand)
  | takenName (free : ∀ key, shorthand = some key → t.find? key = none) (long : 2 ≤ name.length)
    (taken : (t.bindShorthand index shorthand).find? name ≠ none) :
    Insertion (some (.duplicate name), t.bindShorthand index shorthand)
  | entered (free : ∀ key, shorthand = some key → t.find? key = none) (long : 2 ≤ name.length)
    (nameFree : (t.bindShorthand index shorthand).find? name = none) :
    Insertion (none, (t.bindShorthand index shorthand).bindName index name)

theorem insertName_eq :
    t.insertName index name =
      if name.length < 2 then .error (.shortName name)
      else if (t.find? name).isSome then .error (.duplicate name)
      else .ok (t.bindName index name) := by
  rw [insertName, contains_or_contains]
  rfl

theorem insertShorthand_some (key : Bytes) :
    t.insertShorthand index (some key) =
      if (t.find? key).isSome then .error (.duplicate key)
      else .ok (t.bindShorthand index (some key)) := by
  rw [insertShorthand, Bool.or_comm, contains_or_contains]
  rfl

theorem insertShorthand_of_free (free : ∀ key, shorthand = some key → t.find? key = none) :
    t.insertShorthand index shorthand = .ok (t.bindShorthand index shorthand) := by
  cases shorthand with
  | none => rfl
  | some key => rw [insertShorthand_some, free key rfl]; rfl

theorem insertShorthand_of_taken {key : Bytes} (taken : t.find? key ≠ none) :
    t.insertShorthand index (some key) = .error (.duplicate key) := by
  rw [insertShorthand_some, if_pos (Option.isSome_iff_ne_none.2 taken)]

theorem insertion : Insertion t index name shorthand (t.insert index name shorthand) := by
  by_cases free : ∀ key, shorthand = some key → t.find? key = none
  · rw [insert, insertShorthand_of_free t index shorthand free]
    dsimp only
    rw [insertName_eq]
    by_cases short : name.length < 2
    · rw [if_pos short]
      exact .shortName free short
    rw [if_neg short]
    by_cases nameFree : (t.bindShorthand index shorthand).find? name = none
    · rw [nameFree]
      exact .entered free (Nat.le_of_not_lt short) nameFree
    · rw [if_pos (Option.isSome_iff_ne_none.2 nameFree)]
      exact .takenName free (Nat.le_of_not_lt short) nameFree
  · obtain ⟨key, rfl, taken⟩ : ∃ key, shorthand = some key ∧ t.find? key ≠ none := by
      simpa using free
    rw [insert, insertShorthand_of_taken t index taken]
    exact .takenShorthand key rfl taken

/-- An insertion succeeds for a long enough name if the keys are free and distinct. -/
theorem insert_eq_none_iff {t' : DispatchTable} :
    t.insert index name shorthand = (none, t') ↔
      (∀ key, shorthand = some key → t.find? key = none) ∧ 2 ≤ name.length ∧
        shorthand ≠ some name ∧ t.find? name = none ∧
        t' = (t.bindShorthand index shorthand).bindName index name := by
  have h := insertion t index name shorthand
  generalize t.insert index name shorthand = outcome at h
  cases h with
  | takenShorthand key hkey taken =>
    refine iff_of_false (by simp) ?_
    rintro ⟨free, -⟩
    exact taken (free key hkey)
  | shortName free short =>
    refine iff_of_false (by simp) ?_
    rintro ⟨-, long, -⟩
    omega
  | takenName free long taken =>
    refine iff_of_false (by simp) ?_
    rintro ⟨-, -, hne, hname, -⟩
    exact taken ((bindShorthand_find?_eq_none_iff t index shorthand).2 ⟨hne, hname⟩)
  | entered free long nameFree =>
    obtain ⟨hne, hname⟩ := (bindShorthand_find?_eq_none_iff t index shorthand).1 nameFree
    constructor
    · rintro ⟨⟩
      exact ⟨free, long, hne, hname, rfl⟩
    · rintro ⟨-, -, -, -, rfl⟩
      rfl

end DispatchTable

end Repl
