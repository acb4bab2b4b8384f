import Mathlib.Logic.Relation
import Repl.Proofs.Configuration.Loading
import Repl.Proofs.Text.Padding

/-!
The layout of a configuration. Lines that say nothing may stand anywhere, white space may stand
around every line, and lines may end with carriage returns: the settings are the same.
-/

namespace Repl

open Text

/-! ## Changes of layout -/

/-- A line that says nothing: white space, with or without a comment after it. -/
inductive IniLine.Idle : Bytes → Prop where
  | blank {line : Bytes} (h : Blank line) : Idle line
  | comment {indent : Bytes} {mark : UInt8} (hindent : Blank indent)
    (hmark : mark = Ascii.semicolon ∨ mark = Ascii.numberSign) (text : Bytes) :
    Idle (indent ++ mark :: text)

/-- A text with a carriage return before every newline. -/
def Text.withReturns (text : Bytes) : Bytes :=
  text.flatMap fun b => if b = Ascii.newline then [13, Ascii.newline] else [b]

/-- A change of a text that is one of its layout. -/
inductive Configuration.LayoutChange : Bytes → Bytes → Prop where
  | insert {text text' line : Bytes} {front back : List Bytes} (hline : IniLine.Idle line)
    (htext : HasLines text (front ++ back)) (htext' : HasLines text' (front ++ line :: back)) :
    LayoutChange text text'
  | pad {text text' line before after : Bytes} {front back : List Bytes} (hbefore : Blank before)
    (hafter : Blank after) (htext : HasLines text (front ++ line :: back))
    (htext' : HasLines text' (front ++ (before ++ line ++ after) :: back)) :
    LayoutChange text text'
  | addReturns (text : Bytes) : LayoutChange text (withReturns text)

variable {text text' line : Bytes}

/-! ## Lines -/

namespace IniLine

theorem Idle.ofLine_eq (h : Idle line) : ofLine line = .ignorable := by
  rw [ofLine, ← (Reads.ignorable _).eq_ofTrimmed]
  cases h with
  | blank hblank =>
    have htrim := hblank.trim_append []
    rw [List.nil_append] at htrim
    exact .inl htrim
  | @comment indent mark hindent hmark text =>
    obtain ⟨left, htrim⟩ : ∃ left, trim (indent ++ mark :: text) = mark :: left := by
      obtain rfl | rfl := hmark
      · exact trim_padded_cons hindent rfl (fun _ => rfl) text
      · exact trim_padded_cons hindent rfl (fun _ => rfl) text
    exact .inr ⟨mark, left, htrim, hmark⟩

theorem ofLine_padded {before after : Bytes} (hbefore : Blank before) (hafter : Blank after)
    (line : Bytes) : ofLine (before ++ line ++ after) = ofLine line := by
  rw [ofLine, ofLine, trim_padded hbefore hafter]

end IniLine

namespace Sections

variable {sections : Sections} {current : Bytes}

/-- Lines add what they say, and nothing but that. -/
theorem readLines_congr {lines lines' : List Bytes}
    (h : lines'.map IniLine.ofLine = lines.map IniLine.ofLine) :
    readLines sections current lines' = readLines sections current lines := by
  induction lines generalizing sections current lines' with
  | nil => rw [List.map_eq_nil_iff.1 h]
  | cons line rest ih =>
    obtain ⟨line', rest', rfl, hline, hrest⟩ := List.map_eq_cons_iff.1 h
    rw [readLines_cons, readLines_cons, hline]
    exact Option.bind_congr fun read _ => ih hrest

theorem readLines_insert (hline : IniLine.ofLine line = .ignorable) (front back : List Bytes) :
    readLines sections current (front ++ line :: back) =
      readLines sections current (front ++ back) := by
  induction front generalizing sections current with
  | nil =>
    rw [List.nil_append, List.nil_append, readLines_cons, hline]
    rfl
  | cons first front ih =>
    rw [List.cons_append, List.cons_append, readLines_cons, readLines_cons]
    exact Option.bind_congr fun read _ => ih

end Sections

namespace Text

theorem withReturns_of_not_mem (h : Ascii.newline ∉ line) : withReturns line = line := by
  induction line with
  | nil => rfl
  | cons b line ih =>
    have hrest := ih (List.not_mem_of_not_mem_cons h)
    rw [withReturns] at hrest ⊢
    rw [List.flatMap_cons, if_neg (List.ne_of_not_mem_cons h).symm, hrest, List.singleton_append]

theorem withReturns_terminated (h : Ascii.newline ∉ line) (rest : Bytes) :
    withReturns (line ++ Ascii.newline :: rest) =
      (line ++ [13]) ++ Ascii.newline :: withReturns rest := by
  have hline := withReturns_of_not_mem h
  rw [withReturns] at hline ⊢
  rw [List.flatMap_append, hline, List.flatMap_cons, if_pos rfl, withReturns]
  simp

theorem blank_return : Blank [13] := by
  have hspace : isSpaceCharacter 13 [] = true := rfl
  exact .cons hspace .nil

/-- Carriage returns at the ends of lines do not change what the lines say. -/
theorem HasLines.withReturns {ls : List Bytes} (h : HasLines text ls) :
    ∃ ls', HasLines (withReturns text) ls' ∧
      ls'.map IniLine.ofLine = ls.map IniLine.ofLine := by
  induction h with
  | empty => exact ⟨[], .empty, rfl⟩
  | @unterminated line hline hne =>
    refine ⟨[line], ?_, rfl⟩
    rw [withReturns_of_not_mem hline]
    exact .unterminated hline hne
  | @terminated line rest others hline _ ih =>
    -- The carriage return becomes the end of the line, where it is white space.
    obtain ⟨ls', hrest, hmap⟩ := ih
    refine ⟨(line ++ [13]) :: ls', ?_, ?_⟩
    · rw [withReturns_terminated hline]
      have hreturned : Ascii.newline ∉ line ++ [13] := fun hmem =>
        (List.mem_append.1 hmem).elim hline (by decide)
      exact .terminated hreturned hrest
    · rw [List.map_cons, List.map_cons, hmap]
      exact congrArg (· :: _) (IniLine.ofLine_padded .nil blank_return line)

end Text

namespace Configuration

theorem LayoutChange.ofText?_eq (h : LayoutChange text text') :
    Sections.ofText? text' = Sections.ofText? text := by
  rw [Sections.ofText?, Sections.ofText?]
  cases h with
  | insert hline htext htext' =>
    rw [← htext.eq_lines, ← htext'.eq_lines, Sections.readLines_insert hline.ofLine_eq]
  | @pad _ line before after front back hbefore hafter htext htext' =>
    rw [← htext.eq_lines, ← htext'.eq_lines]
    refine Sections.readLines_congr ?_
    rw [List.map_append, List.map_append, List.map_cons, List.map_cons,
      IniLine.ofLine_padded hbefore hafter]
  | addReturns =>
    obtain ⟨ls', hlines, hmap⟩ := (hasLines_lines text).withReturns
    rw [← hlines.eq_lines]
    exact Sections.readLines_congr hmap

/-- However the layout of a text is changed, it is loaded just if it was loaded before, and every
look-up has the same answer. -/
theorem load_relaid (c : Configuration) (h : Relation.ReflTransGen LayoutChange text text') :
    (c.load text').1 = (c.load text).1 ∧
      ∀ name key, (c.load text').2.get name key = (c.load text).2.get name key := by
  have hsections : Sections.ofText? text' = Sections.ofText? text := by
    induction h with
    | refl => rfl
    | tail _ hchange ih => rw [hchange.ofText?_eq, ih]
  have hload : c.load text' = c.load text := by rw [load, load, hsections]
  rw [hload]
  exact ⟨rfl, fun _ _ => rfl⟩

/-- A comment, an ideographic space and carriage returns come to a text, but no other settings. -/
theorem load_relaid_pair :
    let text := ascii "[a]\nk = x"
    let padded := ascii "[a]" ++ encode 0x3000 ++ ascii "\nk = x"
    let commented := ascii "[a]" ++ encode 0x3000 ++ ascii "\n;" ++ [0xFF] ++ ascii "\nk = x"
    (LayoutChange text padded ∧ LayoutChange padded commented ∧
      LayoutChange commented (withReturns commented)) ∧
      (empty.load (withReturns commented)).1 = true ∧
        (empty.load (withReturns commented)).2.get (ascii "a") (ascii "k") = .ok (ascii "x") := by
  intro text padded commented
  have hcode : ∀ c ∈ [0x3000], isWhiteSpace c = true := by decide
  have hlines : HasLines text ([] ++ ascii "[a]" :: [ascii "k = x"]) := hasLines_iff.2 rfl
  have hpaddedLines :
      HasLines padded ([] ++ ([] ++ ascii "[a]" ++ encode 0x3000) :: [ascii "k = x"]) :=
    hasLines_iff.2 rfl
  have hpadded : LayoutChange text padded :=
    .pad .nil (blank_flatMap_encode hcode) hlines hpaddedLines
  have hpaddedLines : HasLines padded ([ascii "[a]" ++ encode 0x3000] ++ [ascii "k = x"]) :=
    hasLines_iff.2 rfl
  have hcommentedLines : HasLines commented
      ([ascii "[a]" ++ encode 0x3000] ++ ([] ++ Ascii.semicolon :: [0xFF]) :: [ascii "k = x"]) :=
    hasLines_iff.2 rfl
  have hcommented : LayoutChange padded commented :=
    .insert (.comment .nil (.inl rfl) [0xFF]) hpaddedLines hcommentedLines
  have hreturned : LayoutChange commented (withReturns commented) := .addReturns commented
  obtain ⟨hloaded, hget⟩ := load_relaid empty (((Relation.ReflTransGen.single hpadded).tail
    hcommented).tail hreturned)
  refine ⟨⟨hpadded, hcommented, hreturned⟩, hloaded.trans rfl, ?_⟩
  rw [hget]
  rfl

end Configuration

end Repl
