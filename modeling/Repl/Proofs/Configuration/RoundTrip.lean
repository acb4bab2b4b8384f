import Mathlib.Data.List.Nodup
import Repl.Proofs.Configuration.Loading
import Repl.Proofs.Text.Trim

/-!
Settings written as a text and loaded again. Quotes keep a value as it is, whatever bytes it holds
apart from newlines.
-/

namespace Repl.Configuration

open IniLine

/-- Sections in the order in which they are written, each with its keys and their values. -/
abbrev Listing := List (Bytes × List (Bytes × Bytes))

namespace Listing

def headerLine (name : Bytes) : Bytes :=
  ascii "[" ++ name ++ ascii "]"

def pairLine (key value : Bytes) : Bytes :=
  key ++ ascii " = \"" ++ value ++ ascii "\""

def lines (l : Listing) : List Bytes :=
  l.flatMap fun s => headerLine s.1 :: s.2.map fun p => pairLine p.1 p.2

def write (l : Listing) : Bytes :=
  l.lines.flatMap Text.withNewline

def meanings (l : Listing) : List IniLine :=
  l.flatMap fun s => .header s.1 :: s.2.map fun p => .pair p.1 p.2

/-- Texts that can name something: they stand on one line, and white space around them is no part
of them. -/
structure IsName (s : Bytes) : Prop where
  nonempty : s ≠ []
  oneLine : Ascii.newline ∉ s
  trimmed : Text.trim s = s

/-- Names that a line can start with and that end before its first equals sign. -/
structure IsKey (s : Bytes) : Prop extends IsName s where
  noEquals : Ascii.equalsSign ∉ s
  noComment : s.head? ≠ some Ascii.semicolon ∧ s.head? ≠ some Ascii.numberSign

/-- Listings that can be written: each section has a name of its own, and so has each of its keys.
The values hold any bytes but newlines. -/
structure Writable (l : Listing) : Prop where
  names : ∀ s ∈ l, IsName s.1
  keys : ∀ s ∈ l, ∀ p ∈ s.2, IsKey p.1
  values : ∀ s ∈ l, ∀ p ∈ s.2, Ascii.newline ∉ p.2
  distinctNames : (l.map Prod.fst).Nodup
  distinctKeys : ∀ s ∈ l, (s.2.map Prod.fst).Nodup

instance (s : Bytes) : Decidable (IsName s) :=
  decidable_of_iff (s ≠ [] ∧ Ascii.newline ∉ s ∧ Text.trim s = s)
    ⟨fun ⟨h, h', h''⟩ => ⟨h, h', h''⟩, fun ⟨h, h', h''⟩ => ⟨h, h', h''⟩⟩

instance (s : Bytes) : Decidable (IsKey s) :=
  decidable_of_iff (IsName s ∧ Ascii.equalsSign ∉ s ∧
      s.head? ≠ some Ascii.semicolon ∧ s.head? ≠ some Ascii.numberSign)
    ⟨fun ⟨h, h', h''⟩ => ⟨h, h', h''⟩, fun ⟨h, h', h''⟩ => ⟨h, h', h''⟩⟩

instance (l : Listing) : Decidable l.Writable :=
  decidable_of_iff ((∀ s ∈ l, IsName s.1) ∧ (∀ s ∈ l, ∀ p ∈ s.2, IsKey p.1) ∧
      (∀ s ∈ l, ∀ p ∈ s.2, Ascii.newline ∉ p.2) ∧ (l.map Prod.fst).Nodup ∧
        ∀ s ∈ l, (s.2.map Prod.fst).Nodup)
    ⟨fun ⟨h₁, h₂, h₃, h₄, h₅⟩ => ⟨h₁, h₂, h₃, h₄, h₅⟩,
      fun ⟨h₁, h₂, h₃, h₄, h₅⟩ => ⟨h₁, h₂, h₃, h₄, h₅⟩⟩

variable {l : Listing} {name key value : Bytes}

/-! ## One line -/

theorem trim_headerLine (name : Bytes) : Text.trim (headerLine name) = headerLine name := by
  refine Text.trim_eq_self_iff.2 ⟨Text.trimStart_cons_eq_self_iff.2 ?_, ?_⟩
  · rfl
  · exact Text.trimEnd_concat (by decide) _

theorem reads_headerLine (h : IsName name) :
    Reads (Text.trim (headerLine name)) (.header name) := by
  have hheader : Reads (headerLine name) (.header (Text.trim name)) := .header rfl
  rwa [h.trimmed, ← trim_headerLine] at hheader

/-- The first equals sign of the line of a pair stands between two spaces. -/
theorem pairLine_eq (key value : Bytes) :
    pairLine key value = (key ++ [Ascii.space]) ++
      Ascii.equalsSign :: (Ascii.space :: Ascii.quote :: value ++ [Ascii.quote]) := by
  have hmiddle : ascii " = \"" = [Ascii.space, Ascii.equalsSign, Ascii.space, Ascii.quote] := rfl
  have hlast : ascii "\"" = [Ascii.quote] := rfl
  rw [pairLine, hmiddle, hlast]
  simp

theorem trim_pairLine (h : IsName key) (value : Bytes) :
    Text.trim (pairLine key value) = pairLine key value := by
  have hstart := (Text.trim_eq_self_iff.1 h.trimmed).1
  refine Text.trim_eq_self_iff.2 ⟨?_, Text.trimEnd_concat (by decide) _⟩
  rw [pairLine_eq, List.append_assoc, List.singleton_append]
  exact Text.trimStart_append h.nonempty hstart (by decide) _

theorem trim_key (h : IsName key) : Text.trim (key ++ [Ascii.space]) = key := by
  obtain ⟨hstart, hend⟩ := Text.trim_eq_self_iff.1 h.trimmed
  have hspace : Text.isSpaceCharacter Ascii.space [] = true := by decide
  rw [Text.trim, Text.trimStart_append h.nonempty hstart (by decide),
    Text.trimEnd_concat (by decide), if_pos hspace, hend]

theorem trim_quoted (value : Bytes) :
    Text.trim (Ascii.space :: Ascii.quote :: value ++ [Ascii.quote]) =
      Ascii.quote :: value ++ [Ascii.quote] := by
  have hstart : Text.trimStart (Ascii.quote :: (value ++ [Ascii.quote])) =
      Ascii.quote :: (value ++ [Ascii.quote]) := Text.trimStart_cons_eq_self_iff.2 rfl
  rw [Text.trim, List.cons_append, Text.trimStart_space_cons, List.cons_append, hstart]
  exact Text.trimEnd_concat (by decide) (Ascii.quote :: value)

theorem reads_pairLine (h : IsKey key) (value : Bytes) :
    Reads (Text.trim (pairLine key value)) (.pair key value) := by
  obtain ⟨first, rest, hkey⟩ := List.exists_cons_of_ne_nil h.nonempty
  have hignored : ¬Ignored (pairLine key value) := by
    rw [ignored_iff, pairLine_eq, hkey]
    have hcomment := h.noComment
    rw [hkey] at hcomment
    simpa using hcomment
  have hheader : ∀ inner,
      ¬Encloses Ascii.openBracket Ascii.closeBracket (pairLine key value) inner := by
    -- The line ends in a quote.
    intro inner henclosed
    obtain ⟨-, hlast⟩ := exists_brackets_iff.1 ⟨inner, henclosed⟩
    rw [pairLine] at hlast
    cases List.getLast?_concat.symm.trans hlast
  have hbefore : Ascii.equalsSign ∉ key ++ [Ascii.space] := by
    rw [List.mem_append, not_or]
    exact ⟨h.noEquals, by decide⟩
  have hvalue :
      Unquotes (Text.trim (Ascii.space :: Ascii.quote :: value ++ [Ascii.quote])) value := by
    rw [trim_quoted]
    exact .quoted rfl
  have hpair := Reads.pair hignored hheader (pairLine_eq key value) hbefore hvalue
  rwa [trim_key h.toIsName, ← trim_pairLine h.toIsName] at hpair

/-! ## All lines -/

/-- Every line of a listing is that of a section or of a pair. -/
theorem lines_cases {line : Bytes} (hline : line ∈ l.lines) :
    ∃ s ∈ l, line = headerLine s.1 ∨ ∃ p ∈ s.2, line = pairLine p.1 p.2 := by
  obtain ⟨s, hs, hline⟩ := List.mem_flatMap.1 hline
  refine ⟨s, hs, ?_⟩
  rcases List.mem_cons.1 hline with rfl | hline
  · exact .inl rfl
  · obtain ⟨p, hp, rfl⟩ := List.mem_map.1 hline
    exact .inr ⟨p, hp, rfl⟩

theorem Writable.newline_not_mem (h : l.Writable) {line : Bytes} (hline : line ∈ l.lines) :
    Ascii.newline ∉ line := by
  obtain ⟨s, hs, rfl | ⟨p, hp, rfl⟩⟩ := lines_cases hline
  · rw [headerLine, List.mem_append, List.mem_append, not_or, not_or]
    exact ⟨⟨by decide, (h.names s hs).oneLine⟩, by decide⟩
  · rw [pairLine, List.mem_append, List.mem_append, List.mem_append, not_or, not_or, not_or]
    exact ⟨⟨⟨(h.keys s hs p hp).oneLine, by decide⟩, h.values s hs p hp⟩, by decide⟩

theorem lines_ne_nil {line : Bytes} (hline : line ∈ l.lines) : line ≠ [] := by
  obtain ⟨s, -, rfl | ⟨p, -, rfl⟩⟩ := lines_cases hline
  · exact List.cons_ne_nil _ _
  · exact List.concat_ne_nil _ _

theorem Writable.meanings_eq (h : l.Writable) : l.meanings = l.lines.map ofLine := by
  rw [lines, List.map_flatMap]
  refine List.flatMap_congr fun s hs => ?_
  have hheader : ofLine (headerLine s.1) = .header s.1 :=
    (reads_iff.1 (reads_headerLine (h.names s hs))).symm
  rw [List.map_cons, List.map_map, hheader]
  refine congrArg _ (List.map_congr_left fun p hp => ?_)
  exact reads_iff.1 (reads_pairLine (h.keys s hs p hp) p.2)

theorem Writable.describes (h : l.Writable) {text : Bytes}
    (htext : text = l.write ∨ text ++ [Ascii.newline] = l.write) : Describes text l.meanings := by
  have hwrite : Text.HasLines l.write l.lines :=
    Text.hasLines_flatMap fun _ => h.newline_not_mem
  refine ⟨l.lines, ?_, forall₂_reads_iff.2 h.meanings_eq⟩
  rcases htext with rfl | htext
  · exact hwrite
  · rw [← htext] at hwrite
    exact hwrite.of_concat fun _ => lines_ne_nil

/-- After a section stands all that stood before it, and the header with its pairs. -/
theorem under_section {ms : List IniLine} {pairs : List (Bytes × Bytes)} {other : Bytes} :
    Under other (ms ++ .header name :: pairs.map fun p => .pair p.1 p.2) ↔
      other = name := by
  induction pairs using List.reverseRecOn with
  | nil =>
    rw [List.map_nil, under_concat]
    simp [eq_comm]
  | append_singleton pairs pair ih =>
    rw [List.map_append, ← List.cons_append, ← List.append_assoc]
    refine under_concat.trans ?_
    rw [ih]
    simp

theorem pairUnder_section {ms : List IniLine} {pairs : List (Bytes × Bytes)} {other : Bytes} :
    PairUnder (ms ++ .header name :: pairs.map fun p => .pair p.1 p.2) other key value ↔
      PairUnder ms other key value ∨ other = name ∧ (key, value) ∈ pairs := by
  induction pairs using List.reverseRecOn with
  | nil =>
    rw [List.map_nil, pairUnder_concat]
    simp
  | append_singleton pairs pair ih =>
    rw [List.map_append, ← List.cons_append, ← List.append_assoc]
    refine pairUnder_concat.trans ?_
    have hpair : IniLine.pair pair.1 pair.2 = .pair key value ↔ (key, value) = pair := by
      constructor
      · rintro ⟨⟩
        rfl
      · rintro rfl
        rfl
    rw [hpair, ih, under_section, List.mem_append, List.mem_singleton, and_comm, and_or_left,
      or_comm, or_assoc]

theorem meanings_concat (l : Listing) (s : Bytes × List (Bytes × Bytes)) :
    meanings (l ++ [s]) = l.meanings ++ .header s.1 :: s.2.map fun p => .pair p.1 p.2 := by
  rw [meanings, List.flatMap_append, List.flatMap_singleton]
  rfl

theorem pairUnder_meanings_iff :
    PairUnder l.meanings name key value ↔ ∃ pairs, (name, pairs) ∈ l ∧ (key, value) ∈ pairs := by
  induction l using List.reverseRecOn with
  | nil =>
    constructor
    · rintro ⟨before, after, heq, -⟩
      simp [meanings] at heq
    · rintro ⟨pairs, h, -⟩
      cases h
  | append_singleton l s ih =>
    rw [meanings_concat, pairUnder_section, ih]
    constructor
    · rintro (⟨pairs, hsection, hpair⟩ | ⟨rfl, hpair⟩)
      · exact ⟨pairs, List.mem_append_left _ hsection, hpair⟩
      · exact ⟨s.2, List.mem_append_right _ List.mem_cons_self, hpair⟩
    · rintro ⟨pairs, hsection, hpair⟩
      rcases List.mem_append.1 hsection with hsection | hsection
      · exact .inl ⟨pairs, hsection, hpair⟩
      · cases List.mem_singleton.1 hsection
        exact .inr ⟨rfl, hpair⟩

theorem header_mem_meanings_iff : .header name ∈ l.meanings ↔ ∃ pairs, (name, pairs) ∈ l := by
  rw [meanings, List.mem_flatMap]
  constructor
  · rintro ⟨⟨other, pairs⟩, hsection, hheader⟩
    rcases List.mem_cons.1 hheader with heq | hheader
    · cases heq
      exact ⟨pairs, hsection⟩
    · simp at hheader
  · rintro ⟨pairs, hsection⟩
    exact ⟨(name, pairs), hsection, List.mem_cons_self⟩

theorem wellFormed_section {ms : List IniLine} {pairs : List (Bytes × Bytes)} (h : WellFormed ms)
    (hname : name ≠ []) (hkeys : ∀ p ∈ pairs, p.1 ≠ []) :
    WellFormed (ms ++ .header name :: pairs.map fun p => .pair p.1 p.2) := by
  induction pairs using List.reverseRecOn with
  | nil => exact wellFormed_concat.2 ⟨h, hname⟩
  | append_singleton pairs pair ih =>
    have hbefore := ih fun p hp => hkeys p (List.mem_append_left _ hp)
    have hkey := hkeys pair (List.mem_append_right _ List.mem_cons_self)
    rw [List.map_append, ← List.cons_append, ← List.append_assoc]
    refine wellFormed_concat.2 ⟨hbefore, hkey, name, ?_⟩
    exact List.mem_append_right _ List.mem_cons_self

theorem Writable.wellFormed_meanings (h : l.Writable) : WellFormed l.meanings := by
  have hnonempty : ∀ s ∈ l, s.1 ≠ [] ∧ ∀ p ∈ s.2, p.1 ≠ [] := fun s hs =>
    ⟨(h.names s hs).nonempty, fun p hp => (h.keys s hs p hp).nonempty⟩
  clear h
  induction l using List.reverseRecOn with
  | nil => exact wellFormed_nil
  | append_singleton l s ih =>
    have hbefore := ih fun s hs => hnonempty s (List.mem_append_left _ hs)
    obtain ⟨hname, hkeys⟩ := hnonempty s (List.mem_append_right _ List.mem_cons_self)
    rw [meanings_concat]
    exact wellFormed_section hbefore hname hkeys

/-- As names and keys are distinct, every pair is the last with its key. -/
theorem Writable.lastPair_iff (h : l.Writable) :
    LastPair l.meanings name key value ↔ ∃ pairs, (name, pairs) ∈ l ∧ (key, value) ∈ pairs := by
  have hpair {other : Bytes} (hlast : LastPair l.meanings name key other) :
      ∃ pairs, (name, pairs) ∈ l ∧ (key, other) ∈ pairs := by
    obtain ⟨before, after, heq, hunder, -⟩ := hlast
    exact pairUnder_meanings_iff.1 ⟨before, after, heq, hunder⟩
  refine ⟨hpair, fun ⟨pairs, hsection, hmem⟩ => ?_⟩
  obtain ⟨other, hlast⟩ :=
    exists_lastPair_iff.2 ⟨value, pairUnder_meanings_iff.2 ⟨pairs, hsection, hmem⟩⟩
  obtain ⟨pairs', hsection', hmem'⟩ := hpair hlast
  cases List.inj_on_of_nodup_map h.distinctNames hsection hsection' rfl
  cases List.inj_on_of_nodup_map (h.distinctKeys _ hsection) hmem hmem' rfl
  exact hlast

end Listing

/-- Settings written with quotes are loaded as they were, whatever else the values hold, and nothing
else is found. The last newline of the text may be missing. -/
theorem load_write (c : Configuration) {l : Listing} (h : l.Writable) {text : Bytes}
    (htext : text = l.write ∨ text ++ [Ascii.newline] = l.write) :
    (c.load text).1 = true ∧ ∀ name key,
      (∀ value, (c.load text).2.get name key = .ok value ↔
        ∃ pairs, (name, pairs) ∈ l ∧ (key, value) ∈ pairs) ∧
        ((c.load text).2.get name key = .error .noSection ↔ ∀ pairs, (name, pairs) ∉ l) := by
  obtain ⟨hload, hholds⟩ := c.load_describes (h.describes htext)
  have hloaded := hload.2 h.wellFormed_meanings
  have hholds := hholds hloaded
  refine ⟨hloaded, fun name key => ⟨fun value => ?_, ?_⟩⟩
  · rw [hholds.get_eq_ok_iff, h.lastPair_iff]
  · rw [hholds.get_eq_noSection_iff, Listing.header_mem_meanings_iff, not_exists]

/-- A key like a header and a value full of marks, ending in a cut-off character. -/
def quirks : Listing :=
  [(ascii "[a", [(ascii "[k", ascii "\" = ;]\r" ++ [0xE2, 0x80])]), (ascii "b", [])]

theorem load_write_quirks : quirks.Writable ∧
    (empty.load quirks.write).2.get (ascii "[a") (ascii "[k") =
      .ok (ascii "\" = ;]\r" ++ [0xE2, 0x80]) := by
  have hwritable : quirks.Writable := by decide
  have hget := (load_write empty hwritable (.inl rfl)).2 (ascii "[a") (ascii "[k")
  exact ⟨hwritable, (hget.1 _).2 ⟨_, List.mem_cons_self, List.mem_cons_self⟩⟩

end Repl.Configuration
