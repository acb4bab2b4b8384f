import Mathlib.Data.List.Perm.Basic
import Repl.Command.Registry
import Repl.Proofs.Command.DispatchTable

/-!
Which lists of parsers make a registry. Registration meets the parsers one at a time; the table it
fills indexes exactly the keys of those it has met, which is why one check against the table covers
all of them.
-/

namespace Repl

variable {κ : Type}

/-- Whether users can type the key for the command. -/
def Parser.HasKey (p : Parser κ) (key : Bytes) : Prop :=
  p.name = key ∨ p.shorthand = some key

def Parser.ExamplesParse (p : Parser κ) : Prop :=
  ∀ e ∈ p.description.examples, ∃ command, p.parse e.command = .ok (some command)

/-- All names, and after them all shorthands. -/
def allKeys (parsers : List (Option (Parser κ))) : List Bytes :=
  (parsers.filterMap fun p => p.map Parser.name) ++
    parsers.filterMap fun p => p.bind Parser.shorthand

/-- What a list of parsers must be like to make a registry. -/
structure Registrable (parsers : List (Option (Parser κ))) : Prop where
  present : none ∉ parsers
  examples : ∀ p, some p ∈ parsers → p.ExamplesParse
  names : ∀ p, some p ∈ parsers → 2 ≤ p.name.length
  keys : (allKeys parsers).Nodup

theorem mem_allKeys {parsers : List (Option (Parser κ))} {key : Bytes} :
    key ∈ allKeys parsers ↔ ∃ p, some p ∈ parsers ∧ p.HasKey key := by
  rw [allKeys, List.mem_append, List.mem_filterMap, List.mem_filterMap]
  constructor
  · rintro (⟨_ | p, hp, hkey⟩ | ⟨_ | p, hp, hkey⟩)
    · cases hkey
    · exact ⟨p, hp, .inl (Option.some.inj hkey)⟩
    · cases hkey
    · exact ⟨p, hp, .inr hkey⟩
  · rintro ⟨p, hp, hname | hshorthand⟩
    · exact .inl ⟨some p, hp, congrArg some hname⟩
    · exact .inr ⟨some p, hp, hshorthand⟩

theorem allKeys_append_perm (parsers others : List (Option (Parser κ))) :
    (allKeys (parsers ++ others)).Perm (allKeys parsers ++ allKeys others) := by
  rw [allKeys, allKeys, allKeys, List.filterMap_append, List.filterMap_append, List.append_assoc,
    List.append_assoc]
  exact (List.perm_append_comm_assoc _ _ _).append_left _

theorem allKeys_concat_perm (parsers : List (Option (Parser κ))) (p : Parser κ) :
    (allKeys (parsers ++ [some p])).Perm (p.name :: (p.shorthand.toList ++ allKeys parsers)) := by
  -- The new keys go to the front, where `nodup_cons` finds them.
  refine (allKeys_append_perm parsers [some p]).trans (List.perm_append_comm.trans (.of_eq ?_))
  cases h : p.shorthand <;> simp [allKeys, h]

theorem nodup_allKeys_concat_iff {parsers : List (Option (Parser κ))} {p : Parser κ} :
    (allKeys (parsers ++ [some p])).Nodup ↔
      (allKeys parsers).Nodup ∧ (∀ key, p.shorthand = some key → key ∉ allKeys parsers) ∧
        p.shorthand ≠ some p.name ∧ p.name ∉ allKeys parsers := by
  rw [(allKeys_concat_perm parsers p).nodup_iff, List.nodup_cons]
  cases h : p.shorthand with
  | none => simp [and_comm]
  | some key =>
    simp only [Option.toList_some, List.singleton_append, List.nodup_cons, List.mem_cons,
      Option.some.injEq, forall_eq', ne_eq, eq_comm (a := p.name)]
    tauto

namespace Registrable

variable {parsers others : List (Option (Parser κ))} {p : Parser κ}

theorem nil : Registrable ([] : List (Option (Parser κ))) :=
  ⟨by simp, by simp, by simp, by simp [allKeys]⟩

theorem of_append (h : Registrable (parsers ++ others)) : Registrable parsers where
  present hnone := h.present (List.mem_append_left _ hnone)
  examples p hp := h.examples p (List.mem_append_left _ hp)
  names p hp := h.names p (List.mem_append_left _ hp)
  keys := (List.nodup_append.1 ((allKeys_append_perm parsers others).nodup_iff.1 h.keys)).1

theorem concat_iff :
    Registrable (parsers ++ [some p]) ↔
      Registrable parsers ∧ p.ExamplesParse ∧
        (∀ key, p.shorthand = some key → key ∉ allKeys parsers) ∧ 2 ≤ p.name.length ∧
          p.shorthand ≠ some p.name ∧ p.name ∉ allKeys parsers := by
  have hlast : some p ∈ parsers ++ [some p] := List.mem_append_right _ (List.mem_singleton.2 rfl)
  constructor
  · intro h
    obtain ⟨-, hshorthand, hne, hname⟩ := nodup_allKeys_concat_iff.1 h.keys
    exact ⟨h.of_append, h.examples p hlast, hshorthand, h.names p hlast, hne, hname⟩
  · rintro ⟨h, hexamples, hshorthand, hlength, hne, hname⟩
    refine ⟨?_, ?_, ?_, nodup_allKeys_concat_iff.2 ⟨h.keys, hshorthand, hne, hname⟩⟩
    · simp [h.present]
    · simpa [or_imp, forall_and, hexamples] using h.examples
    · simpa [or_imp, forall_and, hlength] using h.names

end Registrable

namespace Registry

variable {r r' : Registry κ} {p : Parser κ}

/-- The table indexes the parsers by their keys, and the parsers make a registry. -/
structure Sound (r : Registry κ) : Prop where
  names : r.table.names.Indexes (fun p => some p.name) r.parsers
  shorthands : r.table.shorthands.Indexes Parser.shorthand r.parsers
  registrable : Registrable (r.parsers.map some)

theorem sound_empty : (empty : Registry κ).Sound :=
  ⟨.empty _, .empty _, .nil⟩

theorem Sound.find?_eq_none_iff (h : r.Sound) {key : Bytes} :
    r.table.find? key = none ↔ key ∉ allKeys (r.parsers.map some) := by
  rw [DispatchTable.find?_eq_none_iff, h.names.find?_eq_none_iff, h.shorthands.find?_eq_none_iff,
    mem_allKeys]
  simp only [Parser.HasKey, List.mem_map, Option.some.injEq, exists_eq_right]
  constructor
  · rintro ⟨hshorthand, hname⟩ ⟨p, hp, hkey | hkey⟩
    · exact hname p hp (congrArg some hkey)
    · exact hshorthand p hp hkey
  · intro hfree
    exact ⟨fun p hp hkey => hfree ⟨p, hp, .inr hkey⟩,
      fun p hp hkey => hfree ⟨p, hp, .inl (Option.some.inj hkey)⟩⟩

theorem checkExample_eq_ok_iff {e : Example} :
    checkExample p e = .ok () ↔ ∃ command, p.parse e.command = .ok (some command) := by
  rw [checkExample]
  rcases p.parse e.command with error | (_ | command) <;> simp

theorem forM_checkExample_eq_ok_iff :
    ∀ {examples : List Example}, examples.forM (checkExample p) = .ok () ↔
      ∀ e ∈ examples, ∃ command, p.parse e.command = .ok (some command)
  | [] => by simp [List.forM, pure, Except.pure]
  | e :: rest => by
    rw [List.forall_mem_cons, ← checkExample_eq_ok_iff, ← forM_checkExample_eq_ok_iff]
    show (checkExample p e >>= fun _ => rest.forM (checkExample p)) = .ok () ↔ _
    cases checkExample p e with
    | error error => simp [bind, Except.bind]
    | ok _ => simp [bind, Except.bind]

theorem add_eq_ok_iff :
    r.add p = .ok r' ↔
      p.ExamplesParse ∧
        ∃ table, r.table.insert r.parsers.length p.name p.shorthand = (none, table) ∧
          r' = ⟨r.parsers ++ [p], table⟩ := by
  rw [Parser.ExamplesParse, ← forM_checkExample_eq_ok_iff, add]
  cases p.description.examples.forM (checkExample p) with
  | error error => simp [bind, Except.bind]
  | ok _ =>
    rcases r.table.insert r.parsers.length p.name p.shorthand with ⟨_ | error, table⟩
    · simp [bind, Except.bind, eq_comm]
    · simp [bind, Except.bind]

/-- A parser can be added if it makes a registry with the parsers before it. -/
theorem Sound.add_ok_iff (h : r.Sound) :
    (∃ r', r.add p = .ok r') ↔ Registrable (r.parsers.map some ++ [some p]) := by
  simp only [add_eq_ok_iff, DispatchTable.insert_eq_none_iff, h.find?_eq_none_iff,
    Registrable.concat_iff]
  constructor
  · rintro ⟨_, hexamples, _, ⟨hshorthand, hlength, hne, hname, -⟩, -⟩
    exact ⟨h.registrable, hexamples, hshorthand, hlength, hne, hname⟩
  · rintro ⟨-, hexamples, hshorthand, hlength, hne, hname⟩
    exact ⟨_, hexamples, _, ⟨hshorthand, hlength, hne, hname, rfl⟩, rfl⟩

theorem add_parsers (hadd : r.add p = .ok r') : r'.parsers = r.parsers ++ [p] := by
  obtain ⟨-, _, -, rfl⟩ := add_eq_ok_iff.1 hadd
  rfl

theorem Sound.add (h : r.Sound) (hadd : r.add p = .ok r') : r'.Sound := by
  have hregistrable := h.add_ok_iff.1 ⟨r', hadd⟩
  obtain ⟨-, table, hinsert, rfl⟩ := add_eq_ok_iff.1 hadd
  obtain ⟨hshorthand, -, -, hname, rfl⟩ := (DispatchTable.insert_eq_none_iff ..).1 hinsert
  refine ⟨?_, ?_, by simpa using hregistrable⟩
  · -- The shorthand leaves the names as they are, and the name leaves the shorthands.
    rw [DispatchTable.bindName, DispatchTable.bindShorthand_names]
    exact h.names.append_some rfl (DispatchTable.find?_eq_none_iff.1 hname).2
  · show (r.table.bindShorthand r.parsers.length p.shorthand).shorthands.Indexes _ _
    cases hown : p.shorthand with
    | none => exact h.shorthands.append_none hown
    | some key =>
      exact h.shorthands.append_some hown (DispatchTable.find?_eq_none_iff.1 (hshorthand key hown)).1

theorem Sound.addAll_ok_iff (h : r.Sound) (parsers : List (Option (Parser κ))) :
    (∃ r', (r.addAll parsers).outcome = .ok r') ↔ Registrable (r.parsers.map some ++ parsers) := by
  induction parsers generalizing r with
  | nil =>
    refine iff_of_true ⟨r, rfl⟩ ?_
    rw [List.append_nil]
    exact h.registrable
  | cons next rest ih =>
    cases next with
    | none =>
      refine iff_of_false (by simp [addAll]) fun hall => hall.present ?_
      exact List.mem_append_right _ List.mem_cons_self
    | some p =>
      rw [List.append_cons, addAll]
      cases hadd : r.add p with
      | error error =>
        -- Parsers that make a registry do so without the ones after them.
        refine iff_of_false (by simp) fun hall => ?_
        obtain ⟨r', hr'⟩ := h.add_ok_iff.2 hall.of_append
        rw [hadd] at hr'
        cases hr'
      | ok r₁ =>
        have hparsers : r₁.parsers.map some = r.parsers.map some ++ [some p] := by
          rw [add_parsers hadd, List.map_append]
          rfl
        rw [← hparsers]
        exact ih (h.add hadd)

theorem Sound.addAll (h : r.Sound) {parsers : List (Option (Parser κ))}
    (hall : (r.addAll parsers).outcome = .ok r') :
    r'.Sound ∧ r'.parsers.map some = r.parsers.map some ++ parsers := by
  induction parsers generalizing r with
  | nil =>
    cases hall
    exact ⟨h, (List.append_nil _).symm⟩
  | cons next rest ih =>
    cases next with
    | none => cases hall
    | some p =>
      rw [Registry.addAll] at hall
      cases hadd : r.add p with
      | error error =>
        rw [hadd] at hall
        cases hall
      | ok r₁ =>
        rw [hadd] at hall
        obtain ⟨hsound, hparsers⟩ := ih (h.add hadd) hall
        refine ⟨hsound, ?_⟩
        rw [hparsers, add_parsers hadd, List.map_append, List.append_assoc]
        rfl

theorem sound_of_register {parsers : List (Option (Parser κ))}
    (h : (register parsers).outcome = .ok r) : r.Sound :=
  (sound_empty.addAll h).1

theorem parsers_of_register {parsers : List (Option (Parser κ))}
    (h : (register parsers).outcome = .ok r) : r.parsers.map some = parsers :=
  (sound_empty.addAll h).2

/-! ## The order of names -/

theorem Sound.name_of_mem_entries (h : r.Sound) {key : Bytes} {i : Nat}
    (he : (key, i) ∈ r.table.names.entries) (hp : r.parsers[i]? = some p) : p.name = key := by
  rw [Dictionary.mem_entries_iff, h.names, hp] at he
  exact Option.some.inj he

theorem Sound.mem_sorted_iff (h : r.Sound) : p ∈ r.sorted ↔ p ∈ r.parsers := by
  rw [sorted, DispatchTable.indices, Dictionary.values, List.mem_filterMap, List.mem_iff_getElem?]
  constructor
  · rintro ⟨i, -, hp⟩
    exact ⟨i, hp⟩
  · rintro ⟨i, hp⟩
    refine ⟨i, List.mem_map.2 ⟨(p.name, i), ?_, rfl⟩, hp⟩
    rw [Dictionary.mem_entries_iff, h.names, hp]
    rfl

theorem Sound.sorted_pairwise (h : r.Sound) : r.sorted.Pairwise fun p q => p.name < q.name := by
  rw [sorted, DispatchTable.indices, Dictionary.values, List.filterMap_map, List.pairwise_filterMap]
  refine r.table.names.sorted.imp_of_mem ?_
  rintro ⟨_, i⟩ ⟨_, j⟩ hi hj hlt p hp q hq
  rw [h.name_of_mem_entries hi hp, h.name_of_mem_entries hj hq]
  exact hlt

theorem Sound.parsers_nodup (h : r.Sound) : r.parsers.Nodup := by
  -- Parsers cannot be compared, but their names can.
  have hnames := (List.nodup_append.1 h.registrable.keys).1
  rw [List.filterMap_map, List.nodup_iff_pairwise_ne, List.pairwise_filterMap] at hnames
  refine hnames.imp ?_
  rintro p _ hne rfl
  exact hne _ rfl _ rfl rfl

theorem Sound.sorted_perm (h : r.Sound) : r.sorted.Perm r.parsers := by
  have hsorted : r.sorted.Nodup := by
    refine h.sorted_pairwise.imp ?_
    rintro p _ hlt rfl
    exact List.lt_irrefl _ hlt
  rw [List.perm_ext_iff_of_nodup hsorted h.parsers_nodup]
  intro p
  exact h.mem_sorted_iff

/-- A list of parsers makes a registry just if it is registrable; the registry then has all of them,
and lists them in strict byte order of their names. -/
theorem register_ok_iff_registrable (parsers : List (Option (Parser κ))) :
    ((∃ r, (register parsers).outcome = .ok r) ↔ Registrable parsers) ∧
      ∀ r, (register parsers).outcome = .ok r →
        r.size = parsers.length ∧ (r.sorted.map some).Perm parsers ∧
          r.sorted.Pairwise fun p q => p.name < q.name := by
  refine ⟨sound_empty.addAll_ok_iff parsers, ?_⟩
  intro r hr
  have hsound := sound_of_register hr
  have hparsers := parsers_of_register hr
  refine ⟨?_, ?_, hsound.sorted_pairwise⟩
  · rw [← hparsers, List.length_map, size]
  · rw [← hparsers]
    exact hsound.sorted_perm.map some

end Registry

end Repl
