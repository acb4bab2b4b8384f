import Repl.Output.Files

/-!
What reading a path gives after a file was written to. Only paths of the file that was written to
are concerned.
-/

namespace Repl.Files

variable {path : Bytes} {files files' : Files}

/-- The paths name the same place. -/
def Same (files : Files) (path other : Bytes) : Prop :=
  files.place path = files.place other

instance (files : Files) : DecidableRel files.Same :=
  fun _ _ => inferInstanceAs (Decidable (_ = _))

/-- What is written to the path is read at the other one, if it can be read. -/
def Concerns (files : Files) (path other : Bytes) : Prop :=
  files.writable path = true ∧ files.Same path other

instance (files : Files) : DecidableRel files.Concerns :=
  fun _ _ => inferInstanceAs (Decidable (_ ∧ _))

/-- What the path takes, it keeps to be read: it names a file, or nothing that can be written to. -/
def Keeps (files : Files) (path : Bytes) : Prop :=
  files.writable path = true → ∃ name, files.place path = .file name

/-! ## Paths -/

theorem place_congr (h : files'.resolve = files.resolve) (path : Bytes) :
    files'.place path = files.place path := by
  rw [place, place, h]

theorem writable_congr (h : files'.resolve = files.resolve) (path : Bytes) :
    files'.writable path = files.writable path := by
  rw [writable, writable, place_congr h]

theorem stream?_congr (h : files'.resolve = files.resolve) (path : Bytes) :
    files'.stream? path = files.stream? path := by
  rw [stream?, stream?, place_congr h]

theorem same_congr (h : files'.resolve = files.resolve) {path other : Bytes} :
    files'.Same path other ↔ files.Same path other := by
  rw [Same, place_congr h, place_congr h, Same]

theorem concerns_congr (h : files'.resolve = files.resolve) {path other : Bytes} :
    files'.Concerns path other ↔ files.Concerns path other := by
  rw [Concerns, writable_congr h, same_congr h, Concerns]

theorem keeps_congr (h : files'.resolve = files.resolve) : files'.Keeps path ↔ files.Keeps path := by
  rw [Keeps, writable_congr h, place_congr h, Keeps]

theorem writable_of_file {name : Bytes} (h : files.place path = .file name) :
    files.writable path = true := by
  rw [writable, h]

theorem ne_nil_of_read? {text : Bytes} (h : files.read? path = some text) : path ≠ [] := by
  rintro rfl
  cases h

theorem ne_nil_of_writable (h : files.writable path = true) : path ≠ [] := by
  rintro rfl
  cases h

theorem read?_eq_of_same {other : Bytes} (h : files.Same path other) :
    files.read? path = files.read? other := by
  rw [read?, read?, h]

theorem Keeps.file_of_concerns {other : Bytes} (hkeeps : files.Keeps other)
    (h : files.Concerns path other) : ∃ name, files.place path = .file name := by
  obtain ⟨hwritable, hsame⟩ := h
  rw [hsame]
  apply hkeeps
  rwa [writable, ← hsame]

theorem concerns_of_file {name other : Bytes} (h : files.place path = .file name) :
    files.Concerns path other ↔ files.Same path other :=
  and_iff_right (writable_of_file h)

/-! ## Writing -/

@[simp]
theorem write_resolve (files : Files) (path content : Bytes) :
    (files.write path content).resolve = files.resolve := by
  unfold write
  split <;> rfl

/-- To put a text after a content is to write both. -/
theorem append_eq_write (files : Files) (path content : Bytes) :
    files.append path content = files.write path ((files.read? path).getD [] ++ content) := by
  unfold append write read?
  cases files.place path with
  | file | stream | other => rfl

@[simp]
theorem append_resolve (files : Files) (path content : Bytes) :
    (files.append path content).resolve = files.resolve := by
  rw [append_eq_write, write_resolve]

/-- Storing a text under the name of a file is seen at the paths of the file. -/
theorem read?_insert (files : Files) {name : Bytes} (hname : files.place path = .file name)
    (content other : Bytes) :
    ({ files with contents := files.contents.insert name content } : Files).read? other =
      if files.Same path other then some content else files.read? other := by
  have hplace : ({ files with contents := files.contents.insert name content } : Files).place other =
      files.place other := place_congr rfl other
  rw [read?, read?, hplace]
  cases hother : files.place other with
  | file name' =>
    dsimp only
    rw [Dictionary.find?_insert]
    by_cases h : name' = name
    · have hsame : files.Same path other := hname.trans (h ▸ hother.symm)
      rw [if_pos h, if_pos hsame]
    · have hother' : ¬files.Same path other := fun hsame =>
        h (Place.file.inj (hname.symm.trans (hsame.trans hother))).symm
      rw [if_neg h, if_neg hother']
  | stream | other =>
    have hother' : ¬files.Same path other := fun hsame =>
      nomatch hname.symm.trans (hsame.trans hother)
    rw [if_neg hother']

theorem read?_write_of_file {name : Bytes} (h : files.place path = .file name)
    (content other : Bytes) : (files.write path content).read? other =
      if files.Same path other then some content else files.read? other := by
  rw [write, h]
  exact read?_insert files h content other

theorem write_of_not_file (h : ∀ name, files.place path ≠ .file name) (content : Bytes) :
    files.write path content = files := by
  rw [write]
  cases hplace : files.place path with
  | file name => exact absurd hplace (h name)
  | stream | other => rfl

/-- No file is lost by writing. -/
theorem isSome_read?_write {other : Bytes} (h : (files.read? other).isSome = true)
    (path content : Bytes) : ((files.write path content).read? other).isSome = true := by
  by_cases hfile : ∃ name, files.place path = .file name
  · obtain ⟨name, hname⟩ := hfile
    rw [read?_write_of_file hname]
    split
    · rfl
    · exact h
  · rw [write_of_not_file (not_exists.1 hfile)]
    exact h

theorem Keeps.read?_write {other : Bytes} (h : files.Keeps other) (path content : Bytes) :
    (files.write path content).read? other =
      if files.Concerns path other then some content else files.read? other := by
  by_cases hfile : ∃ name, files.place path = .file name
  · obtain ⟨name, hname⟩ := hfile
    rw [read?_write_of_file hname]
    simp only [concerns_of_file hname]
  · rw [write_of_not_file (not_exists.1 hfile), if_neg (mt h.file_of_concerns hfile)]

/-! ### Appending -/

theorem append_of_not_file (h : ∀ name, files.place path ≠ .file name) (content : Bytes) :
    files.append path content = files := by
  rw [append_eq_write, write_of_not_file h]

theorem isSome_read?_append {other : Bytes} (h : (files.read? other).isSome = true)
    (path content : Bytes) : ((files.append path content).read? other).isSome = true := by
  rw [append_eq_write]
  exact isSome_read?_write h path _

theorem read?_append_of_file {name : Bytes} (h : files.place path = .file name)
    (content other : Bytes) : (files.append path content).read? other =
      if files.Same path other then some ((files.read? other).getD [] ++ content)
      else files.read? other := by
  rw [append_eq_write, read?_write_of_file h]
  exact ite_congr rfl (fun hsame => by rw [read?_eq_of_same hsame]) fun _ => rfl

theorem Keeps.read?_append {other : Bytes} (h : files.Keeps other) (path content : Bytes) :
    (files.append path content).read? other =
      if files.Concerns path other then some ((files.read? other).getD [] ++ content)
      else files.read? other := by
  rw [append_eq_write, h.read?_write]
  exact ite_congr rfl (fun hconcerned => by rw [read?_eq_of_same hconcerned.2]) fun _ => rfl

end Repl.Files
