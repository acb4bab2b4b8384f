import Repl.Text.Bytes

/-!
Finite maps from texts. The entries are kept in increasing byte order of their keys, so that two
dictionaries with the same bindings are equal and a listing needs no sorting.
-/

namespace Repl

/-- A finite map from texts to `α`. -/
structure Dictionary (α : Type) where
  entries : List (Bytes × α)
  sorted : entries.Pairwise fun a b => a.1 < b.1

namespace Dictionary

variable {α : Type}

def empty : Dictionary α :=
  ⟨[], .nil⟩

instance : EmptyCollection (Dictionary α) :=
  ⟨empty⟩

def find? (d : Dictionary α) (key : Bytes) : Option α :=
  d.entries.lookup key

def contains (d : Dictionary α) (key : Bytes) : Bool :=
  (d.find? key).isSome

def size (d : Dictionary α) : Nat :=
  d.entries.length

/-- The values in increasing order of their keys. -/
def values (d : Dictionary α) : List α :=
  d.entries.map (·.2)

/-- Puts an entry at its place among ordered entries, over one of the same key. -/
def insertEntry (key : Bytes) (value : α) : List (Bytes × α) → List (Bytes × α)
  | [] => [(key, value)]
  | e :: rest =>
    if key < e.1 then (key, value) :: e :: rest
    else if key = e.1 then (key, value) :: rest
    else e :: insertEntry key value rest

theorem mem_insertEntry {key : Bytes} {value : α} {e : Bytes × α} :
    ∀ {l : List (Bytes × α)}, e ∈ insertEntry key value l → e = (key, value) ∨ e ∈ l
  | [], h => by simpa [insertEntry] using h
  | x :: rest, h => by
    unfold insertEntry at h
    split at h
    · simpa using h
    split at h
    · rcases List.mem_cons.1 h with h | h
      · exact .inl h
      · exact .inr (List.mem_cons_of_mem _ h)
    · rcases List.mem_cons.1 h with h | h
      · exact .inr (h ▸ List.mem_cons_self)
      · exact (mem_insertEntry h).imp_right (List.mem_cons_of_mem _)

theorem pairwise_insertEntry (key : Bytes) (value : α) :
    ∀ {l : List (Bytes × α)}, l.Pairwise (fun a b => a.1 < b.1) →
      (insertEntry key value l).Pairwise fun a b => a.1 < b.1
  | [], _ => by simp [insertEntry]
  | e :: rest, h => by
    obtain ⟨he, hrest⟩ := List.pairwise_cons.1 h
    unfold insertEntry
    split
    · rename_i hlt
      refine List.pairwise_cons.2 ⟨fun x hx => ?_, h⟩
      rcases List.mem_cons.1 hx with rfl | hx
      · exact hlt
      · exact List.lt_trans hlt (he x hx)
    split
    · rename_i heq
      exact List.pairwise_cons.2 ⟨fun x hx => by simpa [heq] using he x hx, hrest⟩
    · rename_i hge hne
      refine List.pairwise_cons.2 ⟨fun x hx => ?_, pairwise_insertEntry key value hrest⟩
      rcases mem_insertEntry hx with rfl | hx
      · rcases List.le_total key e.1 with h | h
        · exact absurd (List.le_antisymm h (List.not_lt.1 hge)) hne
        · exact List.not_le.1 fun h' => hne (List.le_antisymm h' h)
      · exact he x hx

def insert (d : Dictionary α) (key : Bytes) (value : α) : Dictionary α :=
  ⟨insertEntry key value d.entries, pairwise_insertEntry key value d.sorted⟩

def erase (d : Dictionary α) (key : Bytes) : Dictionary α :=
  ⟨d.entries.filter (·.1 ≠ key), d.sorted.filter _⟩

/-! ## What a key is bound to -/

@[simp]
theorem find?_empty (key : Bytes) : (empty : Dictionary α).find? key = none :=
  rfl

theorem lookup_cons (e : Bytes × α) (rest : List (Bytes × α)) (key : Bytes) :
    (e :: rest).lookup key = if key = e.1 then some e.2 else rest.lookup key := by
  rw [List.lookup_cons]
  by_cases h : key = e.1
  · simp [h]
  · simp [h, beq_false_of_ne h]

theorem lookup_insertEntry (key other : Bytes) (value : α) (l : List (Bytes × α)) :
    (insertEntry key value l).lookup other =
      if other = key then some value else l.lookup other := by
  induction l with
  | nil => rw [insertEntry, lookup_cons]
  | cons e rest ih =>
    unfold insertEntry
    split
    · rw [lookup_cons]
    split
    · rename_i heq
      rw [lookup_cons, lookup_cons, heq]
      by_cases h : other = e.1 <;> simp [h]
    · rename_i hne
      rw [lookup_cons, lookup_cons, ih]
      by_cases h : other = e.1
      · simp [h, Ne.symm hne]
      · simp [h]

/-- An insertion binds its key and leaves every other binding as it was. -/
theorem find?_insert (d : Dictionary α) (key other : Bytes) (value : α) :
    (d.insert key value).find? other = if other = key then some value else d.find? other :=
  lookup_insertEntry key other value d.entries

theorem lookup_filter_ne (key other : Bytes) (l : List (Bytes × α)) :
    (l.filter (·.1 ≠ key)).lookup other = if other = key then none else l.lookup other := by
  induction l with
  | nil => simp
  | cons e rest ih =>
    by_cases he : e.1 = key
    · rw [List.filter_cons_of_neg (by simp [he]), ih, lookup_cons]
      by_cases h : other = key <;> simp [h, he]
    · rw [List.filter_cons_of_pos (by simp [he]), lookup_cons, lookup_cons, ih]
      by_cases h : other = key
      · simp [h, Ne.symm he]
      · simp [h]

/-- A removal unbinds its key and leaves every other binding as it was. -/
theorem find?_erase (d : Dictionary α) (key other : Bytes) :
    (d.erase key).find? other = if other = key then none else d.find? other :=
  lookup_filter_ne key other d.entries

theorem lookup_eq_some_iff {key : Bytes} {value : α} :
    ∀ {l : List (Bytes × α)}, l.Pairwise (fun a b => a.1 < b.1) →
      (l.lookup key = some value ↔ (key, value) ∈ l)
  | [], _ => by simp
  | e :: rest, h => by
    obtain ⟨hlt, hrest⟩ := List.pairwise_cons.1 h
    rw [lookup_cons, List.mem_cons, ← lookup_eq_some_iff hrest, Prod.ext_iff]
    by_cases hk : key = e.1
    · -- the later entries have later keys
      have hlater : rest.lookup key ≠ some value := fun hrest' =>
        List.lt_irrefl e.1 (hk ▸ hlt _ ((lookup_eq_some_iff hrest).1 hrest'))
      simp [hk, hk ▸ hlater, eq_comm]
    · simp [hk]

/-- The entries are the bindings. -/
theorem mem_entries_iff (d : Dictionary α) (key : Bytes) (value : α) :
    (key, value) ∈ d.entries ↔ d.find? key = some value :=
  (lookup_eq_some_iff d.sorted).symm

/-! ## Dictionaries with the same bindings -/

theorem lookup_eq_none_of_lt {key : Bytes} {l : List (Bytes × α)} (h : ∀ e ∈ l, key < e.1) :
    l.lookup key = none := by
  rw [List.lookup_eq_none_iff]
  intro e he
  have : key ≠ e.1 := fun heq => List.lt_irrefl key (by simpa [← heq] using h e he)
  simpa using this

theorem entries_eq_of_lookup_eq : ∀ {l₁ l₂ : List (Bytes × α)},
    l₁.Pairwise (fun a b => a.1 < b.1) → l₂.Pairwise (fun a b => a.1 < b.1) →
      (∀ key, l₁.lookup key = l₂.lookup key) → l₁ = l₂
  | [], [], _, _, _ => rfl
  | [], e :: rest, _, _, h => by simpa [lookup_cons] using h e.1
  | e :: rest, [], _, _, h => by simpa [lookup_cons] using h e.1
  | e₁ :: r₁, e₂ :: r₂, h₁, h₂, h => by
    obtain ⟨hlt₁, h₁⟩ := List.pairwise_cons.1 h₁
    obtain ⟨hlt₂, h₂⟩ := List.pairwise_cons.1 h₂
    have first : e₁.1 = e₂.1 := by
      refine Decidable.byContradiction fun hne => ?_
      rcases List.le_total e₁.1 e₂.1 with hle | hle
      · have hlt : e₁.1 < e₂.1 := List.not_le.1 fun h' => hne (List.le_antisymm hle h')
        have := h e₁.1
        rw [lookup_eq_none_of_lt (l := e₂ :: r₂)] at this
        · simp [lookup_cons] at this
        · intro x hx
          rcases List.mem_cons.1 hx with rfl | hx
          · exact hlt
          · exact List.lt_trans hlt (hlt₂ x hx)
      · have hlt : e₂.1 < e₁.1 := List.not_le.1 fun h' => hne (List.le_antisymm h' hle)
        have := h e₂.1
        rw [lookup_eq_none_of_lt (l := e₁ :: r₁)] at this
        · simp [lookup_cons] at this
        · intro x hx
          rcases List.mem_cons.1 hx with rfl | hx
          · exact hlt
          · exact List.lt_trans hlt (hlt₁ x hx)
    have second : e₁.2 = e₂.2 := by simpa [lookup_cons, first] using h e₁.1
    have others : r₁ = r₂ := by
      refine entries_eq_of_lookup_eq h₁ h₂ fun key => ?_
      by_cases hk : key = e₁.1
      · rw [hk, lookup_eq_none_of_lt hlt₁, first, lookup_eq_none_of_lt hlt₂]
      · simpa [lookup_cons, hk, first ▸ hk] using h key
    rw [others, Prod.ext first second]

/-- A dictionary is determined by its bindings. -/
theorem ext_find? {d₁ d₂ : Dictionary α} (h : ∀ key, d₁.find? key = d₂.find? key) : d₁ = d₂ := by
  obtain ⟨l₁, h₁⟩ := d₁
  obtain ⟨l₂, h₂⟩ := d₂
  have := entries_eq_of_lookup_eq h₁ h₂ h
  subst this
  rfl

end Dictionary

end Repl
