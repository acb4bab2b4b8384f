import Repl.Proofs.Text.Spelling

/-!
Uppercase letters by the Unicode tables (general category Lu, Unicode 16), for the alphabets in
which texts have case: ASCII with Latin-1 and Latin Extended-A, Greek and Cyrillic. Recognition is
complete for the first only. Of Greek it leaves out archaic letters, letters that are symbols and
all of Greek Extended, of Cyrillic most extensions beyond Russian, Ukrainian Ґ among them.
-/

namespace Repl.Text

/-! ## Tables of letters -/

/-- Every `step`-th character from `first` to `last`. Where cases alternate, capitals are two
apart. -/
structure Run where
  first : Nat
  last : Nat
  step : Nat
  deriving DecidableEq, Repr

def Run.Has (run : Run) (c : Nat) : Prop :=
  run.first ≤ c ∧ c ≤ run.last ∧ (c - run.first) % run.step = 0

instance (run : Run) (c : Nat) : Decidable (run.Has c) :=
  inferInstanceAs (Decidable (_ ∧ _ ∧ _))

/-- The character stands in one of the runs. -/
def Listed (runs : List Run) (c : Nat) : Prop :=
  ∃ run ∈ runs, run.Has c

instance (runs : List Run) (c : Nat) : Decidable (Listed runs c) :=
  inferInstanceAs (Decidable (∃ run ∈ runs, run.Has c))

def latinCapitals : List Run :=
  [⟨0x41, 0x5A, 1⟩, ⟨0xC0, 0xD6, 1⟩, ⟨0xD8, 0xDE, 1⟩, ⟨0x100, 0x136, 2⟩, ⟨0x139, 0x147, 2⟩,
    ⟨0x14A, 0x178, 2⟩, ⟨0x179, 0x17D, 2⟩]

/-- The Greek letters of the block Greek and Coptic. -/
def greekCapitals : List Run :=
  [⟨0x370, 0x372, 2⟩, ⟨0x376, 0x376, 1⟩, ⟨0x37F, 0x37F, 1⟩, ⟨0x386, 0x386, 1⟩, ⟨0x388, 0x38A, 1⟩,
    ⟨0x38C, 0x38C, 1⟩, ⟨0x38E, 0x38F, 1⟩, ⟨0x391, 0x3A1, 1⟩, ⟨0x3A3, 0x3AB, 1⟩, ⟨0x3CF, 0x3CF, 1⟩,
    ⟨0x3D2, 0x3D4, 1⟩, ⟨0x3D8, 0x3E0, 2⟩, ⟨0x3F4, 0x3F4, 1⟩, ⟨0x3F7, 0x3F7, 1⟩, ⟨0x3F9, 0x3FA, 1⟩,
    ⟨0x3FD, 0x3FF, 1⟩]

/-- The letters of Greek Extended, and the sign for ohm. -/
def greekExtendedCapitals : List Run :=
  [⟨0x1F08, 0x1F0F, 1⟩, ⟨0x1F18, 0x1F1D, 1⟩, ⟨0x1F28, 0x1F2F, 1⟩, ⟨0x1F38, 0x1F3F, 1⟩,
    ⟨0x1F48, 0x1F4D, 1⟩, ⟨0x1F59, 0x1F5F, 2⟩, ⟨0x1F68, 0x1F6F, 1⟩, ⟨0x1FB8, 0x1FBB, 1⟩,
    ⟨0x1FC8, 0x1FCB, 1⟩, ⟨0x1FD8, 0x1FDB, 1⟩, ⟨0x1FE8, 0x1FEC, 1⟩, ⟨0x1FF8, 0x1FFB, 1⟩,
    ⟨0x2126, 0x2126, 1⟩]

/-- The letters of the block Cyrillic and of its supplement. -/
def cyrillicCapitals : List Run :=
  [⟨0x400, 0x42F, 1⟩, ⟨0x460, 0x480, 2⟩, ⟨0x48A, 0x4C0, 2⟩, ⟨0x4C1, 0x4CD, 2⟩, ⟨0x4D0, 0x52E, 2⟩]

def cyrillicExtendedCapitals : List Run :=
  [⟨0x1C89, 0x1C89, 1⟩, ⟨0xA640, 0xA66C, 2⟩, ⟨0xA680, 0xA69A, 2⟩]

/-- An uppercase letter of ASCII, Latin-1, Latin Extended-A, Greek or Cyrillic. -/
def IsCapital (c : Nat) : Prop :=
  Listed (latinCapitals ++ greekCapitals ++ greekExtendedCapitals ++ cyrillicCapitals ++
    cyrillicExtendedCapitals) c

instance (c : Nat) : Decidable (IsCapital c) :=
  inferInstanceAs (Decidable (Listed _ c))

/-! ## Recognition -/

def overlookedGreek : List Run :=
  [⟨0x370, 0x372, 2⟩, ⟨0x376, 0x376, 1⟩, ⟨0x37F, 0x37F, 1⟩, ⟨0x3CF, 0x3CF, 1⟩, ⟨0x3D2, 0x3D4, 1⟩,
    ⟨0x3D8, 0x3E0, 2⟩, ⟨0x3F4, 0x3F4, 1⟩, ⟨0x3F7, 0x3F7, 1⟩, ⟨0x3F9, 0x3FA, 1⟩, ⟨0x3FD, 0x3FF, 1⟩]

def overlookedCyrillic : List Run :=
  [⟨0x48A, 0x4C0, 2⟩, ⟨0x4C1, 0x4CD, 2⟩, ⟨0x4D0, 0x52E, 2⟩]

/-- An uppercase letter that is taken for one without case. -/
def IsOverlooked (c : Nat) : Prop :=
  Listed (overlookedGreek ++ greekExtendedCapitals ++ overlookedCyrillic ++
    cyrillicExtendedCapitals) c

instance (c : Nat) : Decidable (IsOverlooked c) :=
  inferInstanceAs (Decidable (Listed _ c))

def IsRecognised (c : Nat) : Prop :=
  IsCapital c ∧ ¬IsOverlooked c

variable {c : Nat}

theorem run_has_iff {first last step : Nat} :
    Run.Has ⟨first, last, step⟩ c ↔ first ≤ c ∧ c ≤ last ∧ (c - first) % step = 0 :=
  Iff.rfl

theorem not_listed_nil : ¬Listed [] c := by
  simp [Listed]

theorem listed_cons_iff {run : Run} {runs : List Run} :
    Listed (run :: runs) c ↔ run.Has c ∨ Listed runs c := by
  simp [Listed]

theorem listed_append_iff {runs more : List Run} :
    Listed (runs ++ more) c ↔ Listed runs c ∨ Listed more c := by
  simp [Listed, or_and_right, exists_or]

theorem isUppercase_iff : isUppercase c = true ↔ IsRecognised c := by
  -- Letter by letter the tables would be long; run by run they are ranges of numbers.
  simp only [IsRecognised, IsCapital, IsOverlooked, latinCapitals, greekCapitals,
    greekExtendedCapitals, cyrillicCapitals, cyrillicExtendedCapitals, overlookedGreek,
    overlookedCyrillic, listed_append_iff, listed_cons_iff, not_listed_nil, run_has_iff, or_false,
    isUppercase]
  grind

theorem isCapital_of_isOverlooked (h : IsOverlooked c) : IsCapital c := by
  have hruns : ∀ run ∈ overlookedGreek ++ greekExtendedCapitals ++ overlookedCyrillic ++
      cyrillicExtendedCapitals, run ∈ latinCapitals ++ greekCapitals ++ greekExtendedCapitals ++
        cyrillicCapitals ++ cyrillicExtendedCapitals := by
    decide
  obtain ⟨run, hrun, hhas⟩ := h
  exact ⟨run, hruns run hrun, hhas⟩

/-! ## How texts begin -/

/-- The text opens with a character that has the property, however it is spelled. -/
def BeginsWith (P : Nat → Prop) (s : Bytes) : Prop :=
  ∃ c e rest, Spells c e ∧ s = e ++ rest ∧ P c

variable {P Q : Nat → Prop} {s rest : Bytes} {lead : UInt8}

theorem BeginsWith.mono (h : ∀ c, P c → Q c) : BeginsWith P s → BeginsWith Q s :=
  fun ⟨c, e, rest, hspells, hs, hc⟩ => ⟨c, e, rest, hspells, hs, h c hc⟩

theorem not_beginsWith_nil : ¬BeginsWith P [] := by
  rintro ⟨c, e, rest, hspells, hnil, -⟩
  obtain ⟨rfl, rfl⟩ := List.append_eq_nil_iff.1 hnil.symm
  obtain ⟨lead, others, hcons, -⟩ := hspells.decode_append []
  cases hcons

/-- A property of letters is one of what is decoded first. The replacement character stands for
what is no character, and it is no letter. -/
theorem beginsWith_cons_iff (hreplacement : ¬P 0xFFFD) :
    BeginsWith P (lead :: rest) ↔ P (decode lead rest).codePoint := by
  constructor
  · rintro ⟨c, e, after, hspells, hs, hc⟩
    obtain ⟨first, others, rfl, hdecode⟩ := hspells.decode_append after
    rw [List.cons_append, List.cons.injEq] at hs
    rw [hs.1, hs.2, hdecode]
    exact hc
  · intro hc
    obtain ⟨n, hn⟩ := exists_decode_length_eq lead rest
    have hcomplete : (decode lead rest).codePoint ≠ 0xFFFD := fun h => hreplacement (h ▸ hc)
    have hspells := spells_take_of_decode (by rw [← hn]) hcomplete
    refine ⟨_, _, rest.drop n, hspells, ?_, hc⟩
    rw [List.cons_append, List.take_append_drop]

/-- Texts have one first letter, which is either recognised or overlooked. -/
theorem BeginsWith.not_isRecognised (h : BeginsWith IsOverlooked s) :
    ¬BeginsWith IsRecognised s := by
  cases s with
  | nil => exact absurd h not_beginsWith_nil
  | cons lead rest =>
    rw [beginsWith_cons_iff (by decide)] at h
    rw [beginsWith_cons_iff fun hcase => absurd hcase.1 (by decide)]
    exact fun hcase => hcase.2 h

theorem beginsWithUppercase_iff :
    beginsWithUppercase s = true ↔ BeginsWith IsRecognised s := by
  cases s with
  | nil => exact iff_of_false (by decide) not_beginsWith_nil
  | cons lead rest =>
    rw [beginsWithUppercase, isUppercase_iff, beginsWith_cons_iff]
    exact fun h => absurd h.1 (by decide)

/-- A text that does not open with an overlooked letter is seen for what it is. -/
theorem beginsWith_isRecognised_iff (h : ¬BeginsWith IsOverlooked s) :
    BeginsWith IsRecognised s ↔ BeginsWith IsCapital s := by
  constructor
  · exact BeginsWith.mono fun _ hc => hc.1
  · rintro ⟨c, e, rest, hspells, hs, hc⟩
    exact ⟨c, e, rest, hspells, hs, hc, fun hoverlooked => h ⟨c, e, rest, hspells, hs, hoverlooked⟩⟩

end Repl.Text
