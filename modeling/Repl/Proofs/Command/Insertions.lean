import Repl.Proofs.Command.DispatchTable

/-!
The dispatch table under any use. Insertions follow one another whether or not the ones before them
were refused. A refused insertion may leave its shorthand behind, but nothing else, and no insertion
takes a key from another command.
-/

namespace Repl.DispatchTable

/-- The keys to be inserted for the command at a position. -/
structure Entry where
  index : Nat
  name : Bytes
  shorthand : Option Bytes
  deriving DecidableEq, Repr

def enter (t : DispatchTable) (e : Entry) : DispatchTable :=
  (t.insert e.index e.name e.shorthand).2

/-- The table after insertions, some of which may have been refused. -/
def after (t : DispatchTable) (entries : List Entry) : DispatchTable :=
  entries.foldl enter t

/-- What is true of a table at any time. -/
structure Kept (t : DispatchTable) : Prop where
  apart : ∀ key, t.shorthands.contains key = true → t.names.contains key = false
  long : ∀ key, t.names.contains key = true → 2 ≤ key.length

/-- The listing of the table has one position for each of the names, in their byte order. -/
structure Lists (t : DispatchTable) (names : List Bytes) : Prop where
  sorted : names.Pairwise (· < ·)
  complete : ∀ key, key ∈ names ↔ t.names.contains key = true
  indices : t.indices.map some = names.map t.find?
  size : t.size = names.length

section Bindings

variable (t : DispatchTable) (index : Nat) (name : Bytes) (shorthand : Option Bytes) (key : Bytes)

/-! ## What is bound -/

theorem find?_bindShorthand :
    (t.bindShorthand index shorthand).find? key =
      if shorthand = some key then some index else t.find? key := by
  rw [find?, bindShorthand_shorthands_find?, bindShorthand_names, find?]
  by_cases h : shorthand = some key
  · rw [if_pos h, if_pos h]
  · rw [if_neg h, if_neg h]

/-- A name that is free hides behind no shorthand. -/
theorem find?_bindName {t : DispatchTable} {name : Bytes} (hfree : t.find? name = none) :
    (t.bindName index name).find? key = if key = name then some index else t.find? key := by
  rw [find?, find?, bindName]
  dsimp only
  rw [Dictionary.find?_insert]
  by_cases h : key = name
  · rw [if_pos h, if_pos h, h, (find?_eq_none_iff.1 hfree).1]
  · rw [if_neg h, if_neg h]

/-- An insertion that succeeds binds both keys, and no others. -/
theorem find?_of_entered (h : (t.insert index name shorthand).1 = none) :
    (t.insert index name shorthand).2.find? key =
      if key = name ∨ shorthand = some key then some index else t.find? key := by
  have hinsertion := insertion t index name shorthand
  generalize t.insert index name shorthand = outcome at h hinsertion
  cases hinsertion with
  | takenShorthand | shortName | takenName => cases h
  | entered free long nameFree =>
    rw [find?_bindName index key nameFree, find?_bindShorthand]
    by_cases hname : key = name
    · rw [if_pos hname, if_pos (.inl hname)]
    · simp [hname]

/-- An insertion that is refused changes nothing, or it binds the shorthand, which was free. -/
theorem find?_of_refused {e : KeyError} (h : (t.insert index name shorthand).1 = some e) :
    (t.insert index name shorthand).2.find? key = t.find? key ∨
      shorthand = some key ∧ t.find? key = none ∧
        (t.insert index name shorthand).2.find? key = some index := by
  -- Both refusals of the name leave the table with the shorthand.
  have hleft (free : ∀ own, shorthand = some own → t.find? own = none) :
      (t.bindShorthand index shorthand).find? key = t.find? key ∨
        shorthand = some key ∧ t.find? key = none ∧
          (t.bindShorthand index shorthand).find? key = some index := by
    rw [find?_bindShorthand]
    by_cases hown : shorthand = some key
    · exact .inr ⟨hown, free key hown, if_pos hown⟩
    · exact .inl (if_neg hown)
  have hinsertion := insertion t index name shorthand
  generalize t.insert index name shorthand = outcome at h hinsertion
  cases hinsertion with
  | takenShorthand => exact .inl rfl
  | shortName free short => exact hleft free
  | takenName free long taken => exact hleft free
  | entered => cases h

/-- A key that is bound stays bound to its position. -/
theorem find?_insert_of_eq_some {i : Nat} (h : t.find? key = some i) :
    (t.insert index name shorthand).2.find? key = some i := by
  have hinsertion := insertion t index name shorthand
  cases houtcome : (t.insert index name shorthand).1 with
  | some e =>
    obtain hsame | ⟨-, hfree, -⟩ := find?_of_refused t index name shorthand key houtcome
    · rw [hsame, h]
    · cases h.symm.trans hfree
  | none =>
    -- The keys of an insertion that succeeds were free.
    obtain ⟨free, -, -, hname, -⟩ :=
      (insert_eq_none_iff t index name shorthand).1 (Prod.ext houtcome rfl)
    rw [find?_of_entered t index name shorthand key houtcome, if_neg, h]
    rintro (rfl | hown)
    · cases h.symm.trans hname
    · cases h.symm.trans (free key hown)

end Bindings

/-! ## Insertions one after another -/

variable {t : DispatchTable} {key : Bytes} {i : Nat}

theorem find?_after_of_eq_some (h : t.find? key = some i) (entries : List Entry) :
    (t.after entries).find? key = some i := by
  induction entries generalizing t with
  | nil => exact h
  | cons e rest ih => exact ih (find?_insert_of_eq_some t e.index e.name e.shorthand key h)

theorem kept_empty : empty.Kept where
  apart _ := nofun
  long _ := nofun

theorem Kept.bindShorthand (h : t.Kept) (index : Nat) {shorthand : Option Bytes}
    (free : ∀ own, shorthand = some own → t.find? own = none) :
    (t.bindShorthand index shorthand).Kept where
  apart key hkey := by
    rw [Dictionary.contains, bindShorthand_shorthands_find?] at hkey
    rw [bindShorthand_names]
    by_cases hown : shorthand = some key
    · rw [Dictionary.contains, (find?_eq_none_iff.1 (free key hown)).2]
      rfl
    · rw [if_neg hown] at hkey
      exact h.apart key hkey
  long key hkey := by
    rw [bindShorthand_names] at hkey
    exact h.long key hkey

theorem Kept.bindName (h : t.Kept) (index : Nat) {name : Bytes} (long : 2 ≤ name.length)
    (free : t.find? name = none) : (t.bindName index name).Kept where
  apart key hkey := by
    have hother : key ≠ name := by
      rintro rfl
      have hnone : t.shorthands.find? key = none := (find?_eq_none_iff.1 free).1
      have hsome : (t.shorthands.find? key).isSome = true := hkey
      rw [hnone] at hsome
      cases hsome
    show ((t.names.insert name index).find? key).isSome = false
    rw [Dictionary.find?_insert, if_neg hother]
    exact h.apart key hkey
  long key hkey := by
    by_cases hown : key = name
    · rw [hown]
      exact long
    · have hold : ((t.names.insert name index).find? key).isSome = true := hkey
      rw [Dictionary.find?_insert, if_neg hown] at hold
      exact h.long key hold

theorem Kept.enter (h : t.Kept) (e : Entry) : (t.enter e).Kept := by
  have hinsertion := insertion t e.index e.name e.shorthand
  unfold DispatchTable.enter
  generalize t.insert e.index e.name e.shorthand = outcome at hinsertion
  cases hinsertion with
  | takenShorthand => exact h
  | shortName free short => exact h.bindShorthand e.index free
  | takenName free long taken => exact h.bindShorthand e.index free
  | entered free long nameFree => exact (h.bindShorthand e.index free).bindName e.index long nameFree

theorem Kept.after (h : t.Kept) (entries : List Entry) : (t.after entries).Kept := by
  induction entries generalizing t with
  | nil => exact h
  | cons e rest ih => exact ih (h.enter e)

theorem Kept.find?_of_contains (h : t.Kept) (hkey : t.names.contains key = true) :
    t.find? key = t.names.find? key := by
  rw [find?]
  cases hshorthand : t.shorthands.find? key with
  | none => rfl
  | some index =>
    -- A key of the names is no shorthand.
    have hapart := h.apart key (by rw [Dictionary.contains, hshorthand]; rfl)
    cases hkey.symm.trans hapart

theorem Kept.lists (h : t.Kept) : t.Lists (t.names.entries.map (·.1)) where
  sorted := List.pairwise_map.2 t.names.sorted
  complete key := by
    rw [Dictionary.contains, Option.isSome_iff_exists, List.mem_map]
    constructor
    · rintro ⟨⟨key, index⟩, hmem, rfl⟩
      exact ⟨index, (t.names.mem_entries_iff key index).1 hmem⟩
    · rintro ⟨index, hfind⟩
      exact ⟨(key, index), (t.names.mem_entries_iff key index).2 hfind, rfl⟩
  indices := by
    rw [DispatchTable.indices, Dictionary.values, List.map_map, List.map_map, List.map_inj_left]
    rintro ⟨key, index⟩ hmem
    have hfind := (t.names.mem_entries_iff key index).1 hmem
    show some index = t.find? key
    rw [h.find?_of_contains, hfind]
    rw [Dictionary.contains, hfind]
    rfl
  size := by
    rw [DispatchTable.size, Dictionary.size, List.length_map]

/-- Whatever has been inserted, and whatever was refused: no key is a shorthand and a name, names have
two bytes at least, and the listing goes through them in order. A key that is bound stays bound for
ever. The next insertion, if it is refused, binds at most its shorthand, which was free then; if it
succeeds, it binds its name and its shorthand and leaves all other keys as they were. -/
theorem insertions_keep_bindings (entries : List Entry) :
    let t := empty.after entries
    t.Kept ∧ (∃ names, t.Lists names) ∧
      (∀ later key i, t.find? key = some i → (t.after later).find? key = some i) ∧
      ∀ index name shorthand,
        match t.insert index name shorthand with
        | (some _, t') => ∀ key, t'.find? key = t.find? key ∨
            shorthand = some key ∧ t.find? key = none ∧ t'.find? key = some index
        | (none, t') => ∀ key, t'.find? key =
            if key = name ∨ shorthand = some key then some index else t.find? key := by
  intro t
  have hkept : t.Kept := kept_empty.after entries
  refine ⟨hkept, ⟨_, hkept.lists⟩, fun later key i h => find?_after_of_eq_some h later, ?_⟩
  intro index name shorthand
  rcases hinsert : t.insert index name shorthand with ⟨_ | e, t'⟩
  · intro key
    have hentered := find?_of_entered t index name shorthand key (congrArg Prod.fst hinsert)
    rwa [hinsert] at hentered
  · intro key
    have hrefused := find?_of_refused t index name shorthand key (congrArg Prod.fst hinsert)
    rwa [hinsert] at hrefused

/-- A name that is too short is refused, but its shorthand is left behind, and kept from others. -/
example : (empty.after [⟨0, ascii "q", some (ascii "x")⟩, ⟨1, ascii "exit", some (ascii "x")⟩]).find?
    (ascii "x") = some 0 := by
  decide

/-- A name that is refused leaves its shorthand to nobody else. -/
example :
    let t := (empty.insert 0 (ascii "x") (some (ascii "s"))).2
    t.find? (ascii "s") = some 0 ∧
      (t.insert 1 (ascii "save") (some (ascii "s"))).1 = some (.duplicate (ascii "s")) := by
  decide

end Repl.DispatchTable
