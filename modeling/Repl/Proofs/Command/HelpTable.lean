import Mathlib.Algebra.GroupWithZero.Nat
import Mathlib.Data.List.DropRight
import Repl.Command.Help
import Repl.Proofs.Text.Trim

/-!
The layout of the help table. Where no text has a newline of its own, every line of the table is
one cell and one text, and all cells are filled up to one width, which leaves room behind every
label. So the lines, cut at that width, tell what the table says.
-/

namespace Repl

/-- None of the texts of the entry has a newline. -/
structure HelpEntry.OneLine (e : HelpEntry) : Prop where
  name : Ascii.newline ∉ e.name
  shorthand : ∀ s ∈ e.shorthand, Ascii.newline ∉ s
  purpose : Ascii.newline ∉ e.description.purpose
  usage : Ascii.newline ∉ e.description.usage
  examples : ∀ x ∈ e.description.examples,
    Ascii.newline ∉ x.scenario ∧ Ascii.newline ∉ x.command

namespace HelpTable

/-! ## What the table says -/

/-- What a line of the table says: a cell of the first column, and a text. -/
structure Line where
  cell : Bytes
  text : Bytes
  deriving DecidableEq, Repr

def exampleLines (name : Bytes) (x : Example) : List Line :=
  [⟨[], ascii "example - " ++ x.scenario ++ ascii ":"⟩,
    ⟨[], ascii "    " ++ name ++ ascii " " ++ x.command⟩]

/-- A command is called by its shorthand and its name, or by its name alone. -/
def caption (e : HelpEntry) : Bytes :=
  match e.shorthand with
  | some shorthand => shorthand ++ ascii ", " ++ e.name
  | none => e.name

/-- The lines about a command: its caption stands beside its purpose, and beside nothing else. -/
def entryLines (e : HelpEntry) : List Line :=
  ⟨caption e, e.description.purpose⟩ ::
    ⟨[], Text.trim (ascii "usage: " ++ e.name ++ ascii " " ++ e.description.usage)⟩ ::
      e.description.examples.flatMap (exampleLines e.name)

def content (entries : List HelpEntry) : List Line :=
  ⟨ascii "Command", ascii "Description"⟩ :: entries.flatMap entryLines

theorem forall_mem_entryLines {P : Line → Prop} {e : HelpEntry} :
    (∀ l ∈ entryLines e, P l) ↔
      P ⟨caption e, e.description.purpose⟩ ∧
        P ⟨[], Text.trim (ascii "usage: " ++ e.name ++ ascii " " ++ e.description.usage)⟩ ∧
        ∀ x ∈ e.description.examples, ∀ l ∈ exampleLines e.name x, P l := by
  rw [entryLines, List.forall_mem_cons, List.forall_mem_cons, List.forall_mem_flatMap]

theorem forall_mem_content {P : Line → Prop} {entries : List HelpEntry} :
    (∀ l ∈ content entries, P l) ↔
      P ⟨ascii "Command", ascii "Description"⟩ ∧ ∀ e ∈ entries, ∀ l ∈ entryLines e, P l := by
  rw [content, List.forall_mem_cons, List.forall_mem_flatMap]

/-- The length of the longest caption. -/
def longestCaption (entries : List HelpEntry) : Nat :=
  (entries.map fun e => (caption e).length).foldr max 0

namespace Line

/-- The line with its cell filled up to a width. -/
def laidOut (width : Nat) (l : Line) : Bytes :=
  l.cell ++ List.replicate (width - l.cell.length) Ascii.space ++ l.text

/-- The line without the spaces at the end of its cell. -/
def bare (l : Line) : Line :=
  ⟨l.cell.rdropWhile (· == Ascii.space), l.text⟩

/-- What stands before and after a position, without the spaces in front of it. -/
def cut (width : Nat) (line : Bytes) : Line :=
  bare ⟨line.take width, line.drop width⟩

theorem cut_laidOut {width : Nat} {l : Line} (h : l.cell.length ≤ width) :
    cut width (l.laidOut width) = l.bare := by
  have hfilled : (l.cell ++ List.replicate (width - l.cell.length) Ascii.space).length = width := by
    rw [List.length_append, List.length_replicate, Nat.add_sub_cancel' h]
  rw [cut, laidOut, List.take_left' hfilled, List.drop_left' hfilled, bare, bare, List.rdropWhile,
    List.reverse_append, List.dropWhile_append_of_pos (by simp), List.rdropWhile]

theorem newline_not_mem_laidOut {width : Nat} {l : Line} (hcell : Ascii.newline ∉ l.cell)
    (htext : Ascii.newline ∉ l.text) : Ascii.newline ∉ l.laidOut width := by
  have hspaces : Ascii.newline ∉ List.replicate (width - l.cell.length) Ascii.space := by
    rw [List.mem_replicate]
    exact fun h => absurd h.2 (by decide)
  rw [laidOut, List.mem_append, List.mem_append]
  exact fun h => h.elim (fun h => h.elim hcell hspaces) htext

end Line

/-! ## The width of the first column -/

@[simp]
theorem longestCaption_cons (e : HelpEntry) (entries : List HelpEntry) :
    longestCaption (e :: entries) = max (caption e).length (longestCaption entries) :=
  rfl

theorem label_eq_caption (e : HelpEntry) : e.label = caption e :=
  rfl

theorem columnWidth_eq (entries : List HelpEntry) :
    columnWidth entries = max 15 (1 + longestCaption entries) := by
  have hfold : ∀ w, 1 ≤ w → entries.foldl (fun w e => max w (e.label.length + 1)) w =
      max w (1 + longestCaption entries) := by
    induction entries with
    | nil =>
      intro w hw
      exact (Nat.max_eq_left hw).symm
    | cons e entries ih =>
      intro w hw
      rw [List.foldl_cons, ih _ (hw.trans (Nat.le_max_left ..)), longestCaption_cons,
        label_eq_caption]
      omega
  exact hfold minWidth (by decide)

theorem bmod_eq_self {n : Nat} (h : n < 2 ^ 31) : Int.bmod n 0x100000000 = n := by
  apply Int.bmod_eq_of_le_mul_two <;> omega

/-- The column is as wide as it should be unless its width is too large for an `int`. -/
theorem width_eq {entries : List HelpEntry} (h : longestCaption entries < 2 ^ 31 - 1) :
    width entries = (max 15 (1 + longestCaption entries) : Nat) := by
  have hsmall : max 15 (1 + longestCaption entries) < 2 ^ 31 := by omega
  have hcolumn : columnWidth entries < 2 ^ 31 := by rwa [columnWidth_eq]
  rw [← columnWidth_eq]
  exact bmod_eq_self hcolumn

theorem row_eq_laidOut (width : Nat) (cell text : Bytes) :
    row width cell text = Line.laidOut width ⟨cell, text⟩ := by
  rw [row, Int.toNat_sub, Line.laidOut]

theorem caption_length_le {entries : List HelpEntry} {e : HelpEntry} (he : e ∈ entries) :
    (caption e).length ≤ longestCaption entries := by
  induction entries with
  | nil => cases he
  | cons first entries ih =>
    rw [longestCaption_cons]
    cases he with
    | head => exact Nat.le_max_left ..
    | tail _ he => exact (ih he).trans (Nat.le_max_right ..)

theorem cell_of_mem_entryLines {e : HelpEntry} :
    ∀ l ∈ entryLines e, l.cell = caption e ∨ l.cell = [] := by
  refine forall_mem_entryLines.2 ⟨.inl rfl, .inr rfl, fun x _ => ?_⟩
  exact List.forall_mem_cons.2 ⟨.inr rfl, List.forall_mem_singleton.2 (.inr rfl)⟩

/-- Every cell leaves room for a space. -/
theorem cell_length_lt {entries : List HelpEntry} :
    ∀ l ∈ content entries, l.cell.length < max 15 (1 + longestCaption entries) := by
  refine forall_mem_content.2 ⟨Nat.lt_of_lt_of_le (by decide) (Nat.le_max_left ..), ?_⟩
  intro e he l hl
  have hcaption := caption_length_le he
  obtain hcell | hcell := cell_of_mem_entryLines l hl
  · rw [hcell]
    omega
  · rw [hcell, List.length_nil]
    omega

/-! ## The lines of the table -/

theorem entryRows_eq (width : Nat) (e : HelpEntry) :
    entryRows width e = (entryLines e).map (Line.laidOut width) := by
  have hrow : row (width : Int) [] = fun text => Line.laidOut width ⟨[], text⟩ :=
    funext (row_eq_laidOut width [])
  have hexamples : (e.description.examples.flatMap (HelpEntry.exampleLines e.name)).map
        (fun text => Line.laidOut width ⟨[], text⟩) =
      (e.description.examples.flatMap (exampleLines e.name)).map (Line.laidOut width) := by
    rw [List.map_flatMap, List.map_flatMap]
    rfl
  rw [entryRows, HelpEntry.lines, entryLines, List.map_cons, List.map_cons, ← hexamples]
  dsimp only
  rw [List.map_cons, hrow, row_eq_laidOut, label_eq_caption]

theorem rows_eq {entries : List HelpEntry} (h : longestCaption entries < 2 ^ 31 - 1) :
    rows entries =
      (content entries).map (Line.laidOut (max 15 (1 + longestCaption entries))) := by
  rw [rows, width_eq h, content, List.map_cons, List.map_flatMap, row_eq_laidOut,
    List.flatMap_congr fun e _ => entryRows_eq _ e]

theorem length_entryLines (e : HelpEntry) :
    (entryLines e).length = 2 + 2 * e.description.examples.length := by
  have hexamples : (e.description.examples.flatMap (exampleLines e.name)).length =
      2 * e.description.examples.length := by
    induction e.description.examples with
    | nil => rfl
    | cons x examples ih =>
      rw [List.flatMap_cons, List.length_append, ih, List.length_cons, Nat.mul_succ, Nat.add_comm]
      rfl
  rw [entryLines, List.length_cons, List.length_cons, hexamples, Nat.add_assoc, Nat.add_comm]

theorem length_content (entries : List HelpEntry) :
    (content entries).length =
      1 + (entries.map fun e => 2 + 2 * e.description.examples.length).sum := by
  rw [content, List.length_cons, List.length_flatMap, Nat.add_comm]
  congr 2
  exact List.map_congr_left fun e _ => length_entryLines e

/-! ### Newlines -/

theorem newline_not_mem_caption {e : HelpEntry} (h : e.OneLine) :
    Ascii.newline ∉ caption e := by
  rw [caption]
  split
  · rename_i s hs
    have hseparator : Ascii.newline ∉ ascii ", " := by decide
    simp [h.shorthand s hs, hseparator, h.name]
  · exact h.name

theorem newline_not_mem_entryLines {e : HelpEntry} (h : e.OneLine) :
    ∀ l ∈ entryLines e, Ascii.newline ∉ l.cell ∧ Ascii.newline ∉ l.text := by
  have hspace : Ascii.newline ∉ ascii " " := by decide
  refine forall_mem_entryLines.2 ⟨⟨newline_not_mem_caption h, h.purpose⟩, ⟨List.not_mem_nil, ?_⟩, ?_⟩
  · have hfront : Ascii.newline ∉ ascii "usage: " := by decide
    refine fun hmem => absurd ((Text.trim_isInfix_self _).subset hmem) ?_
    simp [hfront, hspace, h.name, h.usage]
  · intro x hx
    have hfront : Ascii.newline ∉ ascii "example - " := by decide
    have hcolon : Ascii.newline ∉ ascii ":" := by decide
    have hindent : Ascii.newline ∉ ascii "    " := by decide
    obtain ⟨hscenario, hcommand⟩ := h.examples x hx
    refine List.forall_mem_cons.2 ⟨⟨List.not_mem_nil, ?_⟩,
      List.forall_mem_singleton.2 ⟨List.not_mem_nil, ?_⟩⟩
    · simp [hfront, hcolon, hscenario]
    · simp [hindent, hspace, h.name, hcommand]

theorem splitOn_render {entries : List HelpEntry} (h : ∀ e ∈ entries, e.OneLine)
    (hwidth : longestCaption entries < 2 ^ 31 - 1) :
    (render entries).splitOn Ascii.newline =
      (content entries).map (Line.laidOut (max 15 (1 + longestCaption entries))) := by
  rw [render, rows_eq hwidth]
  refine List.splitOn_intercalate _ (List.forall_mem_map.2 ?_) (by simp [content])
  refine forall_mem_content.2 ⟨Line.newline_not_mem_laidOut (by decide) (by decide), ?_⟩
  intro e he l hl
  obtain ⟨hcell, htext⟩ := newline_not_mem_entryLines (h e he) l hl
  exact Line.newline_not_mem_laidOut hcell htext

/-- Split at its newlines, the table is a line for the headings and, for every command, two lines
and two more for each example, and all of them have a first column of one width. A cell never fills
it, so that a caption is whole and a space comes after it. What the lines say is what stands before
the end of the column, without the spaces that fill it up, and what stands behind it. Only the width
has to be one that an `int` can tell. -/
theorem render_layout {entries : List HelpEntry} (h : ∀ e ∈ entries, e.OneLine)
    (hwidth : longestCaption entries < 2 ^ 31 - 1) :
    let lines := (render entries).splitOn Ascii.newline
    let width := max 15 (1 + longestCaption entries)
    lines.length = 1 + (entries.map fun e => 2 + 2 * e.description.examples.length).sum ∧
      lines = (content entries).map (Line.laidOut width) ∧
      (∀ l ∈ content entries, l.cell.length < width) ∧
      lines.map (Line.cut width) = (content entries).map Line.bare := by
  intro lines width
  have hlines : lines = (content entries).map (Line.laidOut width) := splitOn_render h hwidth
  refine ⟨?_, hlines, cell_length_lt, ?_⟩
  · rw [hlines, List.length_map, length_content]
  · rw [hlines, List.map_map]
    exact List.map_congr_left fun l hl => Line.cut_laidOut (cell_length_lt l hl).le

/-- The longest caption makes room for itself, also in the lines about other commands. One of them
has no shorthand. -/
theorem wide_table_cut :
    let entries : List HelpEntry :=
      [⟨ascii "add", some (ascii "a"),
          ⟨ascii "Adds a number.", ascii "<x>", [⟨ascii "add two", ascii "2"⟩]⟩⟩,
        ⟨ascii "print", none, ⟨ascii "Prints.", [], []⟩⟩,
        ⟨ascii "start-again", some (ascii "again"), ⟨[], [], []⟩⟩]
    (∀ e ∈ entries, e.OneLine) ∧ max 15 (1 + longestCaption entries) = 19 ∧
      ((render entries).splitOn Ascii.newline).map (Line.cut 19) =
        [⟨ascii "Command", ascii "Description"⟩, ⟨ascii "a, add", ascii "Adds a number."⟩,
          ⟨[], ascii "usage: add <x>"⟩, ⟨[], ascii "example - add two:"⟩,
          ⟨[], ascii "    add 2"⟩, ⟨ascii "print", ascii "Prints."⟩, ⟨[], ascii "usage: print"⟩,
          ⟨ascii "again, start-again", []⟩, ⟨[], ascii "usage: start-again"⟩] := by
  intro entries
  have hentries : ∀ e ∈ entries, e.OneLine := by
    refine List.forall_mem_cons.2 ⟨?_, List.forall_mem_cons.2 ⟨?_, List.forall_mem_singleton.2 ?_⟩⟩
    all_goals constructor <;> decide
  have hwidth : max 15 (1 + longestCaption entries) = 19 := by decide
  obtain ⟨-, -, -, hcut⟩ := render_layout hentries (by decide)
  rw [hwidth] at hcut
  refine ⟨hentries, hwidth, hcut.trans ?_⟩
  decide

end HelpTable

end Repl
