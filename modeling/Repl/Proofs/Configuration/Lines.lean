import Repl.Configuration
import Repl.Proofs.Text.Lines

/-!
The meaning of a line of an INI text, told by its characters. Comments come before headers, and
headers before pairs.
-/

namespace Repl.IniLine

variable {line : Bytes}

/-- A line without a meaning: an empty one, or a comment. -/
def Ignored (line : Bytes) : Prop :=
  line = [] ∨ ∃ mark text, line = mark :: text ∧ (mark = Ascii.semicolon ∨ mark = Ascii.numberSign)

/-- The text stands between the two characters. -/
def Encloses (first last : UInt8) (text inner : Bytes) : Prop :=
  text = first :: inner ++ [last]

/-- The value that a text spells: without the quotes around it, if there are any. -/
inductive Unquotes : Bytes → Bytes → Prop where
  | quoted {text value : Bytes} (h : Encloses Ascii.quote Ascii.quote text value) :
    Unquotes text value
  | plain {text : Bytes} (h : ∀ inner, ¬Encloses Ascii.quote Ascii.quote text inner) :
    Unquotes text text

/-- What a line says that has no white space around it. -/
inductive Reads : Bytes → IniLine → Prop where
  | ignorable {line : Bytes} (h : Ignored line) : Reads line .ignorable
  | header {line inner : Bytes} (h : Encloses Ascii.openBracket Ascii.closeBracket line inner) :
    Reads line (.header (Text.trim inner))
  | pair {line before after value : Bytes} (hignored : ¬Ignored line)
    (hheader : ∀ inner, ¬Encloses Ascii.openBracket Ascii.closeBracket line inner)
    (hline : line = before ++ Ascii.equalsSign :: after) (hbefore : Ascii.equalsSign ∉ before)
    (hvalue : Unquotes (Text.trim after) value) : Reads line (.pair (Text.trim before) value)
  | malformed {line : Bytes} (hignored : ¬Ignored line)
    (hheader : ∀ inner, ¬Encloses Ascii.openBracket Ascii.closeBracket line inner)
    (hline : Ascii.equalsSign ∉ line) : Reads line .malformed

theorem ignored_iff : Ignored line ↔
    line = [] ∨ line.head? = some Ascii.semicolon ∨ line.head? = some Ascii.numberSign := by
  cases line with
  | nil => simp [Ignored]
  | cons b rest => simp [Ignored]

/-- Two characters enclose a text that starts with the one and ends with the other, unless they are
the same character, seen twice. -/
theorem exists_encloses_iff {first last : UInt8} {text : Bytes} :
    (∃ inner, Encloses first last text inner) ↔
      2 ≤ text.length ∧ text.head? = some first ∧ text.getLast? = some last := by
  constructor
  · rintro ⟨inner, rfl⟩
    refine ⟨?_, rfl, List.getLast?_concat⟩
    rw [List.length_append, List.length_cons, List.length_singleton]
    omega
  · rintro ⟨hlength, hhead, hlast⟩
    obtain ⟨front, rfl⟩ := List.getLast?_eq_some_iff.1 hlast
    cases front with
    | nil =>
      simp at hlength
    | cons b inner =>
      obtain rfl : b = first := Option.some.inj hhead
      exact ⟨inner, rfl⟩

theorem exists_brackets_iff : (∃ inner, Encloses Ascii.openBracket Ascii.closeBracket line inner) ↔
    line.head? = some Ascii.openBracket ∧ line.getLast? = some Ascii.closeBracket := by
  rw [exists_encloses_iff]
  refine ⟨And.right, fun h => ⟨?_, h⟩⟩
  rcases line with - | ⟨b, - | ⟨c, rest⟩⟩
  · cases h.1
  · -- One character cannot be both brackets.
    cases h.1
    cases h.2
  · simp

theorem Encloses.drop_dropLast {first last : UInt8} {text inner : Bytes}
    (h : Encloses first last text inner) : (text.drop 1).dropLast = inner := by
  subst h
  exact List.dropLast_concat

theorem unquotes_iff {text value : Bytes} : Unquotes text value ↔ value = unquote text := by
  unfold unquote
  by_cases h : ∃ inner, Encloses Ascii.quote Ascii.quote text inner
  · rw [if_pos (exists_encloses_iff.1 h)]
    constructor
    · rintro (henclosed | hplain)
      · exact henclosed.drop_dropLast.symm
      · exact absurd h (not_exists.2 hplain)
    · rintro rfl
      obtain ⟨inner, hinner⟩ := h
      rw [hinner.drop_dropLast]
      exact .quoted hinner
  · rw [if_neg fun hends => h (exists_encloses_iff.2 hends)]
    constructor
    · rintro (henclosed | -)
      · exact absurd ⟨_, henclosed⟩ h
      · rfl
    · rintro rfl
      exact .plain (not_exists.1 h)

theorem Encloses.not_ignored {inner : Bytes}
    (h : Encloses Ascii.openBracket Ascii.closeBracket line inner) : ¬Ignored line := by
  subst h
  rintro (hempty | ⟨mark, text, hline, rfl | rfl⟩)
  · cases hempty
  · cases hline
  · cases hline

theorem Reads.eq_ofTrimmed {meaning : IniLine} (h : Reads line meaning) :
    meaning = ofTrimmed line := by
  unfold ofTrimmed
  cases h with
  | ignorable h => rw [if_pos (ignored_iff.1 h)]
  | header h =>
    rw [if_neg fun hignored => h.not_ignored (ignored_iff.2 hignored),
      if_pos (exists_brackets_iff.1 ⟨_, h⟩), h.drop_dropLast]
  | @pair before after value hignored hheader hline hbefore hvalue =>
    rw [if_neg fun h => hignored (ignored_iff.2 h),
      if_neg fun h => not_exists.2 hheader (exists_brackets_iff.2 h)]
    subst hline
    rw [if_pos (by simp), Text.takeWhile_ne_append hbefore, Text.dropWhile_ne_append hbefore,
      unquotes_iff.1 hvalue]
    rfl
  | malformed hignored hheader hline =>
    rw [if_neg fun h => hignored (ignored_iff.2 h),
      if_neg fun h => not_exists.2 hheader (exists_brackets_iff.2 h), if_neg (by simpa using hline)]

theorem reads_ofTrimmed (line : Bytes) : Reads line (ofTrimmed line) := by
  by_cases hignored : Ignored line
  · rw [← (Reads.ignorable hignored).eq_ofTrimmed]
    exact .ignorable hignored
  by_cases hheader : ∃ inner, Encloses Ascii.openBracket Ascii.closeBracket line inner
  · obtain ⟨inner, hinner⟩ := hheader
    rw [← (Reads.header hinner).eq_ofTrimmed]
    exact .header hinner
  have hheader := not_exists.1 hheader
  by_cases hequals : Ascii.equalsSign ∈ line
  · obtain ⟨before, after, hline, hbefore⟩ := List.eq_append_cons_of_mem hequals
    have hpair : Reads line _ :=
      .pair hignored hheader hline hbefore (unquotes_iff.2 rfl)
    rw [← hpair.eq_ofTrimmed]
    exact hpair
  · rw [← (Reads.malformed hignored hheader hequals).eq_ofTrimmed]
    exact .malformed hignored hheader hequals

/-- Every line has one meaning. -/
theorem reads_iff {meaning : IniLine} : Reads line meaning ↔ meaning = ofTrimmed line := by
  constructor
  · exact Reads.eq_ofTrimmed
  · rintro rfl
    exact reads_ofTrimmed line

end Repl.IniLine
