import Mathlib.Data.List.Forall2
import Mathlib.Data.List.Induction
import Repl.Proofs.Configuration.Lines
import Repl.Proofs.Text.Lines

/-!
What an INI text says, told by the history of its lines: a pair belongs to the nearest header before
it, and the last pair with a key counts.
-/

namespace Repl

namespace IniLine

variable {m : IniLine} {ms past : List IniLine} {name key value : Bytes}

/-- The meanings of the lines of a text, without the white space around them. -/
def Describes (text : Bytes) (ms : List IniLine) : Prop :=
  ∃ ls, Text.HasLines text ls ∧ List.Forall₂ (fun line m => Reads (Text.trim line) m) ls ms

/-- The nearest header before the end of the lines has the name. -/
def Under (name : Bytes) (past : List IniLine) : Prop :=
  ∃ earlier between, past = earlier ++ .header name :: between ∧ ∀ other, .header other ∉ between

/-- A pair with the key stands under a header with the name. -/
def PairUnder (ms : List IniLine) (name key value : Bytes) : Prop :=
  ∃ before after, ms = before ++ .pair key value :: after ∧ Under name before

/-- The last pair with the key that stands under a header with the name has the value. -/
def LastPair (ms : List IniLine) (name key value : Bytes) : Prop :=
  ∃ before after, ms = before ++ .pair key value :: after ∧ Under name before ∧
    ∀ middle other rest, after = middle ++ .pair key other :: rest →
      ¬Under name (before ++ .pair key value :: middle)

/-- Lines that make settings. -/
structure WellFormed (ms : List IniLine) : Prop where
  understood : .malformed ∉ ms
  named : .header [] ∉ ms
  keyed : ∀ value, .pair [] value ∉ ms
  sectioned : ∀ before key value after, ms = before ++ .pair key value :: after →
    ∃ name, .header name ∈ before

theorem forall₂_reads_iff {ls : List Bytes} :
    List.Forall₂ (fun line m => Reads (Text.trim line) m) ls ms ↔ ms = ls.map ofLine := by
  induction ls generalizing ms with
  | nil => exact List.forall₂_nil_left_iff
  | cons line ls ih =>
    rw [List.forall₂_cons_left_iff, List.map_cons]
    constructor
    · rintro ⟨m, rest, hline, hrest, rfl⟩
      rw [reads_iff.1 hline, ih.1 hrest]
      rfl
    · rintro rfl
      exact ⟨_, _, reads_iff.2 rfl, ih.2 rfl, rfl⟩

theorem describes_iff {text : Bytes} : Describes text ms ↔ ms = (Text.lines text).map ofLine := by
  constructor
  · rintro ⟨ls, hls, h⟩
    rw [← hls.eq_lines]
    exact forall₂_reads_iff.1 h
  · intro h
    exact ⟨_, Text.hasLines_lines text, forall₂_reads_iff.2 h⟩

/-! ## One line more -/

theorem under_concat :
    Under name (past ++ [m]) ↔
      m = .header name ∨ (∀ other, m ≠ .header other) ∧ Under name past := by
  constructor
  · rintro ⟨earlier, between, heq, hbetween⟩
    obtain ⟨-, rfl, -⟩ | ⟨front, rfl, rfl⟩ := concat_eq_append_cons_iff.1 heq
    · exact .inl rfl
    · refine .inr ⟨?_, earlier, front, rfl, fun other h => ?_⟩
      · rintro other rfl
        exact hbetween other (List.mem_append_right _ List.mem_cons_self)
      · exact hbetween other (List.mem_append_left _ h)
  · rintro (rfl | ⟨hm, earlier, between, rfl, hbetween⟩)
    · exact ⟨past, [], rfl, fun _ => List.not_mem_nil⟩
    · refine ⟨earlier, between ++ [m], by simp, fun other h => ?_⟩
      rcases List.mem_append.1 h with h | h
      · exact hbetween other h
      · exact hm other (List.mem_singleton.1 h).symm

theorem pairUnder_concat :
    PairUnder (ms ++ [m]) name key value ↔
      m = .pair key value ∧ Under name ms ∨ PairUnder ms name key value := by
  constructor
  · rintro ⟨before, after, heq, hunder⟩
    obtain ⟨rfl, rfl, -⟩ | ⟨front, -, rfl⟩ := concat_eq_append_cons_iff.1 heq
    · exact .inl ⟨rfl, hunder⟩
    · exact .inr ⟨before, front, rfl, hunder⟩
  · rintro (⟨rfl, hunder⟩ | ⟨before, after, rfl, hunder⟩)
    · exact ⟨ms, [], rfl, hunder⟩
    · exact ⟨before, after ++ [m], by simp, hunder⟩

theorem lastPair_concat :
    LastPair (ms ++ [m]) name key value ↔
      m = .pair key value ∧ Under name ms ∨
        LastPair ms name key value ∧ ∀ other, m = .pair key other → ¬Under name ms := by
  constructor
  · rintro ⟨before, after, heq, hunder, hlast⟩
    obtain ⟨rfl, rfl, -⟩ | ⟨front, rfl, rfl⟩ := concat_eq_append_cons_iff.1 heq
    · exact .inl ⟨rfl, hunder⟩
    · refine .inr ⟨⟨before, front, rfl, hunder, ?_⟩, ?_⟩
      · rintro middle other rest rfl
        exact hlast middle other (rest ++ [m]) (by simp)
      · rintro other rfl
        exact hlast front other [] rfl
  · rintro (⟨rfl, hunder⟩ | ⟨⟨before, after, rfl, hunder, hlast⟩, hm⟩)
    · exact ⟨ms, [], rfl, hunder, fun middle other rest h => by simp at h⟩
    · refine ⟨before, after ++ [m], by simp, hunder, fun middle other rest heq => ?_⟩
      obtain ⟨rfl, rfl, -⟩ | ⟨front, -, rfl⟩ := concat_eq_append_cons_iff.1 heq
      · exact hm other rfl
      · exact hlast middle other front rfl

/-- Whatever stands after a header stands under one. -/
theorem exists_under_iff : (∃ name, Under name past) ↔ ∃ name, .header name ∈ past := by
  constructor
  · rintro ⟨name, earlier, between, rfl, -⟩
    exact ⟨name, List.mem_append_right _ List.mem_cons_self⟩
  · induction past using List.reverseRecOn with
    | nil => rintro ⟨name, h⟩; cases h
    | append_singleton past m ih =>
      rintro ⟨name, h⟩
      by_cases hm : ∃ other, m = .header other
      · obtain ⟨other, rfl⟩ := hm
        exact ⟨other, under_concat.2 (.inl rfl)⟩
      · have hm := not_exists.1 hm
        rcases List.mem_append.1 h with h | h
        · obtain ⟨other, hother⟩ := ih ⟨name, h⟩
          exact ⟨other, under_concat.2 (.inr ⟨hm, hother⟩)⟩
        · exact absurd (List.mem_singleton.1 h).symm (hm name)

/-- Of the pairs with a key under headers with a name, one is the last. -/
theorem exists_lastPair_iff :
    (∃ value, LastPair ms name key value) ↔ ∃ value, PairUnder ms name key value := by
  constructor
  · rintro ⟨value, before, after, heq, hunder, -⟩
    exact ⟨value, before, after, heq, hunder⟩
  · induction ms using List.reverseRecOn with
    | nil =>
      rintro ⟨value, before, after, heq, -⟩
      simp at heq
    | append_singleton ms m ih =>
      rintro ⟨value, h⟩
      by_cases hm : ∃ other, m = .pair key other ∧ Under name ms
      · obtain ⟨other, hother⟩ := hm
        exact ⟨other, lastPair_concat.2 (.inl hother)⟩
      · have hm := not_exists.1 hm
        rcases pairUnder_concat.1 h with h | h
        · exact absurd h (hm value)
        · obtain ⟨other, hother⟩ := ih ⟨value, h⟩
          exact ⟨other, lastPair_concat.2
            (.inr ⟨hother, fun value heq hunder => hm value ⟨heq, hunder⟩⟩)⟩

/-- What a line needs of the lines before it to be read. -/
def Admits (past : List IniLine) : IniLine → Prop
  | .ignorable => True
  | .header name => name ≠ []
  | .pair key _ => key ≠ [] ∧ ∃ name, .header name ∈ past
  | .malformed => False

theorem wellFormed_nil : WellFormed [] where
  understood := List.not_mem_nil
  named := List.not_mem_nil
  keyed _ := List.not_mem_nil
  sectioned before key value after h := by simp at h

theorem WellFormed.of_append {rest : List IniLine} (h : WellFormed (past ++ rest)) :
    WellFormed past where
  understood hmem := h.understood (List.mem_append_left _ hmem)
  named hmem := h.named (List.mem_append_left _ hmem)
  keyed value hmem := h.keyed value (List.mem_append_left _ hmem)
  sectioned := by
    rintro before key value after rfl
    exact h.sectioned before key value (after ++ rest) (by simp)

theorem wellFormed_concat : WellFormed (past ++ [m]) ↔ WellFormed past ∧ Admits past m := by
  constructor
  · intro h
    refine ⟨h.of_append, ?_⟩
    have hmem : m ∈ past ++ [m] := List.mem_append_right _ List.mem_cons_self
    cases m with
    | ignorable => trivial
    | header name =>
      rintro rfl
      exact h.named hmem
    | pair key value =>
      refine ⟨?_, h.sectioned past key value [] rfl⟩
      rintro rfl
      exact h.keyed value hmem
    | malformed => exact h.understood hmem
  · rintro ⟨h, hm⟩
    refine ⟨fun hmem => ?_, fun hmem => ?_, fun value hmem => ?_, ?_⟩
    · rcases mem_concat_iff.1 hmem with hmem | rfl
      · exact h.understood hmem
      · exact hm
    · rcases mem_concat_iff.1 hmem with hmem | rfl
      · exact h.named hmem
      · exact hm rfl
    · rcases mem_concat_iff.1 hmem with hmem | rfl
      · exact h.keyed value hmem
      · exact hm.1 rfl
    · intro before key value after heq
      obtain ⟨rfl, rfl, -⟩ | ⟨front, -, rfl⟩ := concat_eq_append_cons_iff.1 heq
      · exact hm.2
      · exact h.sectioned before key value front rfl

end IniLine

/-! ## Reading lines -/

namespace Sections

open IniLine

variable {sections : Sections} {current : Bytes} {past : List IniLine} {m : IniLine}

theorem keys_insert (sections : Sections) (name other : Bytes) (keys : Dictionary Bytes) :
    Sections.keys (sections.insert name keys) other =
      if other = name then keys else sections.keys other := by
  rw [Sections.keys, Dictionary.find?_insert]
  by_cases h : other = name
  · rw [if_pos h, if_pos h]
    rfl
  · rw [if_neg h, if_neg h]
    rfl

/-- The sections and the current name hold what the lines read so far say. -/
structure Reflects (sections : Sections) (current : Bytes) (past : List IniLine) : Prop where
  current : ∀ name, Under name past ↔ name = current ∧ current ≠ []
  named : ∀ name, sections.find? name = none ↔ .header name ∉ past
  values : ∀ name key value,
    (sections.keys name).find? key = some value ↔ LastPair past name key value

theorem reflects_empty : Reflects .empty [] [] where
  current name := by
    constructor
    · rintro ⟨earlier, between, heq, -⟩
      simp at heq
    · rintro ⟨-, h⟩
      exact absurd rfl h
  named name := ⟨fun _ => List.not_mem_nil, fun _ => rfl⟩
  values name key value := by
    constructor
    · intro h
      cases h
    · rintro ⟨before, after, heq, -⟩
      simp at heq

/-- What one line adds, or none if it cannot be read. -/
def readLine (sections : Sections) (current : Bytes) : IniLine → Option (Sections × Bytes)
  | .ignorable => some (sections, current)
  | .header name =>
    if name = [] then none else some (sections.insert name (sections.keys name), name)
  | .pair key value =>
    if key = [] ∨ current = [] then none else some (sections.set current key value, current)
  | .malformed => none

theorem readLines_cons (line : Bytes) (rest : List Bytes) :
    readLines sections current (line :: rest) =
      (readLine sections current (IniLine.ofLine line)).bind fun read =>
        readLines read.1 read.2 rest := by
  rw [readLines]
  cases IniLine.ofLine line with
  | ignorable => rfl
  | header name =>
    dsimp only [readLine]
    split <;> rfl
  | pair key value =>
    dsimp only [readLine]
    split <;> rfl
  | malformed => rfl

theorem Reflects.current_ne_iff (h : Reflects sections current past) :
    current ≠ [] ↔ ∃ name, .header name ∈ past := by
  rw [← exists_under_iff]
  constructor
  · intro hcurrent
    exact ⟨current, (h.current current).2 ⟨rfl, hcurrent⟩⟩
  · rintro ⟨name, hname⟩
    exact ((h.current name).1 hname).2

theorem Reflects.ignorable (h : Reflects sections current past) :
    Reflects sections current (past ++ [.ignorable]) where
  current name := by
    rw [under_concat, ← h.current]
    simp
  named name := by
    rw [h.named, mem_concat_iff]
    simp
  values name key value := by
    rw [lastPair_concat, ← h.values]
    simp

theorem Reflects.header (h : Reflects sections current past) {name : Bytes} (hname : name ≠ []) :
    Reflects (sections.insert name (sections.keys name)) name (past ++ [.header name]) where
  current other := by
    rw [under_concat]
    simp [hname, eq_comm]
  named other := by
    rw [Dictionary.find?_insert, mem_concat_iff]
    by_cases heq : other = name
    · simp [heq]
    · rw [if_neg heq, h.named]
      simp [heq]
  values other key value := by
    have hkeys : Sections.keys (sections.insert name (sections.keys name)) other =
        sections.keys other := by
      rw [keys_insert]
      by_cases heq : other = name
      · rw [if_pos heq, heq]
      · rw [if_neg heq]
    rw [hkeys, lastPair_concat, h.values]
    simp

theorem Reflects.pair (h : Reflects sections current past) (hcurrent : current ≠ [])
    (key value : Bytes) :
    Reflects (sections.set current key value) current (past ++ [.pair key value]) where
  current name := by
    rw [under_concat, ← h.current]
    simp
  named name := by
    have hheader : .header current ∈ past := by
      obtain ⟨earlier, between, rfl, -⟩ := (h.current current).2 ⟨rfl, hcurrent⟩
      exact List.mem_append_right _ List.mem_cons_self
    rw [Sections.set, Dictionary.find?_insert, mem_concat_iff]
    by_cases heq : name = current
    · simp [heq, hheader]
    · rw [if_neg heq, h.named]
      simp
  values name other otherValue := by
    have hunder : Under name past ↔ name = current := by
      rw [h.current]
      exact ⟨And.left, fun heq => ⟨heq, hcurrent⟩⟩
    rw [Sections.set, keys_insert, lastPair_concat, hunder, ← h.values]
    by_cases heq : name = current
    · subst heq
      rw [if_pos rfl, Dictionary.find?_insert]
      by_cases hkey : other = key
      · simp [hkey]
      · simp [hkey, Ne.symm hkey]
    · simp [heq]

/-- A line is read just if the lines before it admit it, and then the sections hold it too. -/
theorem Reflects.readLine (h : Reflects sections current past) (m : IniLine) :
    (∃ sections' current', readLine sections current m = some (sections', current') ∧
      Admits past m ∧ Reflects sections' current' (past ++ [m])) ∨
      readLine sections current m = none ∧ ¬Admits past m := by
  cases m with
  | ignorable => exact .inl ⟨_, _, rfl, trivial, h.ignorable⟩
  | header name =>
    by_cases hname : name = []
    · exact .inr ⟨if_pos hname, fun hadmits => hadmits hname⟩
    · exact .inl ⟨_, _, if_neg hname, hname, h.header hname⟩
  | pair key value =>
    by_cases hread : key = [] ∨ current = []
    · refine .inr ⟨if_pos hread, fun ⟨hkey, hheader⟩ => ?_⟩
      exact hread.elim hkey (h.current_ne_iff.2 hheader)
    · obtain ⟨hkey, hcurrent⟩ := not_or.1 hread
      have hadmits : Admits past (.pair key value) := ⟨hkey, h.current_ne_iff.1 hcurrent⟩
      exact .inl ⟨_, _, if_neg hread, hadmits, h.pair hcurrent key value⟩
  | malformed => exact .inr ⟨rfl, id⟩

/-- Lines are read just if they are well-formed, and then the sections hold what they say. -/
theorem Reflects.readLines (h : Reflects sections current past) (hpast : WellFormed past)
    (lines : List Bytes) :
    (∃ sections' current', readLines sections current lines = some sections' ∧
      WellFormed (past ++ lines.map ofLine) ∧
        Reflects sections' current' (past ++ lines.map ofLine)) ∨
      readLines sections current lines = none ∧ ¬WellFormed (past ++ lines.map ofLine) := by
  induction lines generalizing sections current past with
  | nil =>
    rw [List.map_nil, List.append_nil]
    exact .inl ⟨sections, current, rfl, hpast, h⟩
  | cons line rest ih =>
    rw [readLines_cons, List.map_cons, List.append_cons]
    obtain ⟨sections', current', hread, hadmits, h'⟩ | ⟨hread, hnot⟩ := h.readLine (ofLine line)
    · rw [hread]
      exact ih h' (wellFormed_concat.2 ⟨hpast, hadmits⟩)
    · rw [hread]
      exact .inr ⟨rfl, fun hwell => hnot (wellFormed_concat.1 hwell.of_append).2⟩

end Sections

namespace Configuration

open IniLine

variable {c : Configuration} {text name key value : Bytes} {ms : List IniLine}

/-- Settings hold what the lines say. -/
def Holds (c : Configuration) (ms : List IniLine) : Prop :=
  ∃ current, Sections.Reflects c.sections current ms

/-- A text is loaded just if its lines make settings, and then these settings are held. -/
theorem load_describes (c : Configuration) (h : Describes text ms) :
    ((c.load text).1 = true ↔ WellFormed ms) ∧
      ((c.load text).1 = true → (c.load text).2.Holds ms) := by
  rw [describes_iff.1 h, load, Sections.ofText?]
  obtain ⟨sections, current, hread, hwell, hreflects⟩ | ⟨hread, hnot⟩ :=
    Sections.reflects_empty.readLines wellFormed_nil (Text.lines text)
  · rw [hread]
    exact ⟨iff_of_true rfl hwell, fun _ => ⟨current, hreflects⟩⟩
  · rw [hread]
    exact ⟨iff_of_false Bool.false_ne_true hnot, fun h => by cases h⟩

theorem Holds.get_eq_noSection_iff (h : c.Holds ms) :
    c.get name key = .error .noSection ↔ .header name ∉ ms := by
  obtain ⟨current, h⟩ := h
  rw [← h.named, Configuration.get]
  cases c.sections.find? name with
  | none => simp
  | some keys =>
    dsimp only
    cases keys.find? key <;> simp

theorem Holds.get_eq_ok_iff (h : c.Holds ms) :
    c.get name key = .ok value ↔ LastPair ms name key value := by
  obtain ⟨current, h⟩ := h
  rw [← h.values, Configuration.get, Sections.keys]
  cases c.sections.find? name with
  | none => simp
  | some keys =>
    dsimp only [Option.getD_some]
    cases keys.find? key <;> simp

theorem Holds.get_eq_noKey_iff (h : c.Holds ms) :
    c.get name key = .error .noKey ↔ .header name ∈ ms ∧ ∀ value, ¬PairUnder ms name key value := by
  constructor
  · intro hget
    refine ⟨?_, fun value hpair => ?_⟩
    · by_contra hheader
      cases hget.symm.trans (h.get_eq_noSection_iff.2 hheader)
    · obtain ⟨other, hlast⟩ := exists_lastPair_iff.2 ⟨value, hpair⟩
      cases hget.symm.trans (h.get_eq_ok_iff.2 hlast)
  · rintro ⟨hheader, hnone⟩
    cases hget : c.get name key with
    | ok value =>
      obtain ⟨other, hpair⟩ := exists_lastPair_iff.1 ⟨value, h.get_eq_ok_iff.1 hget⟩
      exact absurd hpair (hnone other)
    | error missing =>
      cases missing with
      | noSection => exact absurd hheader (h.get_eq_noSection_iff.1 hget)
      | noKey => rfl

theorem Missing.message_injective {e e' : Missing} (h : e.message = e'.message) : e = e' := by
  cases e with
  | noSection =>
    cases e' with
    | noSection => rfl
    | noKey => exact absurd h (by decide)
  | noKey =>
    cases e' with
    | noSection => exact absurd h (by decide)
    | noKey => rfl

theorem mapError_message_eq_error_iff {answer : Except Missing Bytes} {e : Missing} :
    answer.mapError Missing.message = .error e.message ↔ answer = .error e := by
  cases answer with
  | ok value => simp [Except.mapError]
  | error other =>
    constructor
    · intro h
      rw [Missing.message_injective (Except.error.inj h)]
    · rintro ⟨⟩
      rfl

theorem mapError_message_eq_ok_iff {answer : Except Missing Bytes} :
    answer.mapError Missing.message = .ok value ↔ answer = .ok value := by
  cases answer <;> simp [Except.mapError]

/-- Every text has one meaning, line by line. It is loaded just if that makes settings, and then
each look-up finds what it says: the value of the last pair with the key under a header with the
name, or which of them is missing. -/
theorem load_ok_iff_wellFormed (c : Configuration) (text : Bytes) :
    ∃ ms, (∀ other, Describes text other ↔ other = ms) ∧
      ((c.load text).1 = true ↔ WellFormed ms) ∧
      ((c.load text).1 = true → ∀ name key,
        let answer := ((c.load text).2.get name key).mapError Missing.message
        (answer = .error (ascii "Section not found.") ↔ .header name ∉ ms) ∧
          (answer = .error (ascii "Key not found in section.") ↔
            .header name ∈ ms ∧ ∀ value, ¬PairUnder ms name key value) ∧
          ∀ value, answer = .ok value ↔ LastPair ms name key value) := by
  have hself : Describes text ((Text.lines text).map ofLine) := describes_iff.2 rfl
  obtain ⟨hload, hholds⟩ := c.load_describes hself
  refine ⟨_, fun other => describes_iff, hload, fun h name key => ?_⟩
  have h := hholds h
  refine ⟨?_, ?_, fun value => ?_⟩
  · exact (mapError_message_eq_error_iff (e := .noSection)).trans h.get_eq_noSection_iff
  · exact (mapError_message_eq_error_iff (e := .noKey)).trans h.get_eq_noKey_iff
  · exact mapError_message_eq_ok_iff.trans h.get_eq_ok_iff

/-- A section may be opened again, and the last value of a key counts. -/
example : (empty.load (ascii "[a]\nk=x\n[b]\n [ a ]\n k = \" y\" ")).2.get (ascii "a") (ascii "k") =
    .ok (ascii " y") :=
  rfl

end Configuration

end Repl
