import Repl.Configuration

/-!
Settings over a history of uses. A text is read as a whole or not at all, whether it is given or
comes from a file: one that is refused leaves no trace in the history, and one that is accepted
leaves none of the values before it.
-/

namespace Repl.Configuration

/-- Something that is done to settings. -/
inductive Use where
  | load (text : Bytes)
  | set (name key value : Bytes)
  | setSource (path : Bytes)
  /-- Reloads the settings from their path, with these files. -/
  | reload (files : Files)

def use (c : Configuration) : Use → Configuration
  | .load text => (c.load text).2
  | .set name key value => c.set name key value
  | .setSource path => c.setSource path
  | .reload files => (c.reload files).2

/-- The settings after a history. -/
def after (c : Configuration) (history : List Use) : Configuration :=
  history.foldl use c

/-- Whether a use reads a text. -/
def Use.reads : Use → Bool
  | load _ | reload _ => true
  | set .. | setSource _ => false

/-- The text that a use finds to read. -/
def text? (c : Configuration) : Use → Option Bytes
  | .load text => some text
  | .reload files => if c.source = [] then none else files.read? c.source
  | .set .. | .setSource _ => none

/-- The sections that a use puts in place of all others. -/
def replacement? (c : Configuration) (u : Use) : Option Sections :=
  (c.text? u).bind Sections.ofText?

variable {c c' : Configuration} {name key text : Bytes} {files : Files}

/-! ## Reading a text -/

/-- Look-ups see the sections only. -/
theorem get_eq_of_sections_eq (h : c.sections = c'.sections) :
    c.get name key = c'.get name key := by
  unfold get
  rw [h]

theorem load_eq (c : Configuration) (text : Bytes) :
    c.load text =
      ((Sections.ofText? text).isSome, ⟨(Sections.ofText? text).getD c.sections, c.source⟩) := by
  unfold load
  cases Sections.ofText? text with
  | none => rfl
  | some sections => rfl

theorem load_of_refused (h : (c.load text).1 = false) : (c.load text).2 = c := by
  rw [load_eq] at h ⊢
  cases hsections : Sections.ofText? text with
  | none => rfl
  | some sections =>
    rw [hsections] at h
    cases h

/-- What a text is loaded to does not depend on the settings before it. -/
theorem load_of_accepted (h : (c.load text).1 = true) (c' : Configuration) :
    (c'.load text).1 = true ∧ (c'.load text).2.sections = (c.load text).2.sections := by
  rw [load_eq] at h
  obtain ⟨sections, hsections⟩ := Option.isSome_iff_exists.1 h
  rw [load_eq, load_eq, hsections]
  exact ⟨rfl, rfl⟩

theorem text?_reload_eq_some_iff :
    c.text? (.reload files) = some text ↔ c.source ≠ [] ∧ files.read? c.source = some text := by
  show (if c.source = [] then none else files.read? c.source) = some text ↔ _
  by_cases hsource : c.source = []
  · simp [hsource]
  · simp [hsource]

theorem text?_reload_eq_none_iff :
    c.text? (.reload files) = none ↔ c.source = [] ∨ files.read? c.source = none := by
  show (if c.source = [] then none else files.read? c.source) = none ↔ _
  by_cases hsource : c.source = []
  · simp [hsource]
  · simp [hsource]

/-- A reload that finds no text changes nothing. -/
theorem reload_of_no_text (h : c.text? (.reload files) = none) :
    c.reload files = (if c.source = [] then .noPath else .notOpened c.source, c) := by
  unfold reload
  by_cases hsource : c.source = []
  · rw [if_pos hsource, if_pos hsource]
  · have hread := (text?_reload_eq_none_iff.1 h).resolve_left hsource
    rw [if_neg hsource, if_neg hsource, hread]

/-- A reload that finds a text does what loading the text does. -/
theorem reload_of_text (h : c.text? (.reload files) = some text) :
    c.reload files =
      (if (c.load text).1 then .loaded else .malformed c.source, (c.load text).2) := by
  obtain ⟨hsource, hread⟩ := text?_reload_eq_some_iff.1 h
  unfold reload
  rw [if_neg hsource, hread]
  dsimp only
  rw [load_eq]
  cases Sections.ofText? text with
  | none => rfl
  | some sections => rfl

/-! ## Histories -/

/-- A use that reads a text replaces all sections or none. -/
theorem use_of_reads {u : Use} (h : u.reads = true) :
    c.use u = ⟨(c.replacement? u).getD c.sections, c.source⟩ := by
  cases u with
  | load text =>
    show (c.load text).2 = _
    rw [load_eq]
    rfl
  | reload files =>
    show (c.reload files).2 = _
    unfold replacement?
    cases htext : c.text? (.reload files) with
    | none =>
      rw [reload_of_no_text htext]
      rfl
    | some text =>
      rw [reload_of_text htext, load_eq]
      rfl
  | set name key value => cases h
  | setSource path => cases h

theorem after_append (c : Configuration) (earlier later : List Use) :
    c.after (earlier ++ later) = (c.after earlier).after later :=
  List.foldl_append

/-- A text that is refused leaves no trace in a history. -/
theorem after_refused {u : Use} {earlier : List Use} (hu : u.reads = true)
    (h : (c.after earlier).replacement? u = none) (later : List Use) :
    c.after (earlier ++ u :: later) = c.after (earlier ++ later) := by
  have hsame : (c.after earlier).use u = c.after earlier := by
    rw [use_of_reads hu, h]
    rfl
  rw [after_append, after_append]
  show ((c.after earlier).use u).after later = _
  rw [hsame]

/-- A text that is accepted leaves nothing of the history before it but the path. -/
theorem after_accepted {u : Use} {earlier : List Use} {sections : Sections}
    (h : (c.after earlier).replacement? u = some sections) (later : List Use) :
    c.after (earlier ++ u :: later) =
      (⟨sections, (c.after earlier).source⟩ : Configuration).after later := by
  have hu : u.reads = true := by
    cases u with
    | load text => rfl
    | reload files => rfl
    | set name key value => cases h
    | setSource path => cases h
  rw [after_append]
  show ((c.after earlier).use u).after later = _
  rw [use_of_reads hu, h]
  rfl

/-- Settings are read from a text as a whole or not at all, after any history. A text that is refused
changes no look-up; after one that is accepted all look-ups depend on the text alone. A reload does
with the text of its file what loading the text does, and changes no look-up if it finds none. Its
caller is told of that once, if the caller asked for it; the settings are the same if not. -/
theorem load_all_or_nothing (history : List Use) (text : Bytes) :
    let c := empty.after history
    ((c.load text).1 = false → ∀ name key, (c.load text).2.get name key = c.get name key) ∧
      ((c.load text).1 = true → ∀ other : List Use,
        ((empty.after other).load text).1 = true ∧
          ∀ name key, ((empty.after other).load text).2.get name key =
            (c.load text).2.get name key) ∧
      ∀ (files : Files) (σ : Type) (tell : Bool → Bytes → σ → σ) (s : σ),
        let told := c.reloadTelling files (some tell) s
        (c.source ≠ [] → files.read? c.source = some text →
          (∀ name key, told.1.get name key = (c.load text).2.get name key) ∧
            told.2 = tell (c.load text).1
              (if (c.load text).1 then ascii "Configuration reloaded successfully."
                else ascii "Failed to parse configuration file: " ++ c.source) s) ∧
          (c.source = [] ∨ files.read? c.source = none →
            (∀ name key, told.1.get name key = c.get name key) ∧
              told.2 = tell false
                (if c.source = [] then ascii "Configuration file path not set."
                  else ascii "Failed to open configuration file: " ++ c.source) s) ∧
          c.reloadTelling files none s = (told.1, s) := by
  intro c
  refine ⟨?_, ?_, ?_⟩
  · intro hrefused name key
    rw [load_of_refused hrefused]
  · intro haccepted other
    obtain ⟨hother, hsections⟩ := load_of_accepted haccepted (empty.after other)
    exact ⟨hother, fun name key => get_eq_of_sections_eq hsections⟩
  · intro files σ tell s told
    have htold : told = ((c.reload files).2,
        tell (c.reload files).1.succeeded (c.reload files).1.message s) := rfl
    refine ⟨?_, ?_, rfl⟩
    · intro hsource hread
      rw [htold, reload_of_text (text?_reload_eq_some_iff.2 ⟨hsource, hread⟩)]
      refine ⟨fun _ _ => rfl, ?_⟩
      cases (c.load text).1 with
      | true => rfl
      | false => rfl
    · intro hnone
      rw [htold, reload_of_no_text (text?_reload_eq_none_iff.2 hnone)]
      refine ⟨fun _ _ => rfl, ?_⟩
      by_cases hsource : c.source = []
      · rw [if_pos hsource, if_pos hsource]
        rfl
      · rw [if_neg hsource, if_neg hsource]
        rfl

end Repl.Configuration
