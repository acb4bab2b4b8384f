import Repl.Proofs.Text.Ends
import Repl.Value

/-!
Texts that hold one word. A value of any type but text is read from the text without the white space
around it, so that a type is told by the words that it accepts. Bytes take any word of one byte that
is no white space, except that the unsigned ones are refused a minus sign.
-/

namespace Repl

variable {type : ValueType} {s t u w word message : Bytes} {v : Value}

/-! ## White space around a word -/

namespace Value

/-- White space of any length, as a value may have around it. -/
def Spaces (s : Bytes) : Prop :=
  ∀ b ∈ s, isSpace b = true

instance (s : Bytes) : Decidable (Spaces s) :=
  decidable_of_iff (s.all isSpace = true) List.all_eq_true

/-- The text holds the word, with white space around it. -/
def HoldsWord (t word : Bytes) : Prop :=
  ∃ u w, Spaces u ∧ Spaces w ∧ t = u ++ word ++ w

theorem holdsWord_strip (t : Bytes) : HoldsWord t (strip t) := by
  obtain ⟨u, w, hsplit, hu, hw⟩ := exists_append_stripped isSpace t
  exact ⟨u, w, hu, hw, hsplit⟩

/-- Stripping a text gives the word that it holds, if the word has no white space at its ends. -/
theorem strip_eq_iff : strip t = word ↔ HoldsWord t word ∧
    (∀ b ∈ word.head?, isSpace b = false) ∧ ∀ b ∈ word.getLast?, isSpace b = false := by
  constructor
  · rintro rfl
    exact ⟨holdsWord_strip t, fun b => head?_stripped, fun b => getLast?_stripped⟩
  · rintro ⟨⟨u, w, hu, hw, rfl⟩, hends⟩
    calc strip (u ++ word ++ w) = stripped isSpace word := stripped_append hu hw word
      _ = word := stripped_eq_self_iff.2 hends

/-- A text holds one of the words of a language without white space just if it is one when it is
stripped. -/
theorem exists_holdsWord_iff {p : Bytes → Prop}
    (hp : ∀ word, p word → ∀ b ∈ word, isSpace b = false) :
    (∃ word, HoldsWord t word ∧ p word) ↔ p (strip t) := by
  constructor
  · rintro ⟨word, hword, h⟩
    have hvisible := hp word h
    have hstrip : strip t = word := strip_eq_iff.2 ⟨hword,
      fun b hb => hvisible b (List.mem_of_head? hb), fun b hb => hvisible b (List.mem_of_getLast? hb)⟩
    rwa [hstrip]
  · exact fun h => ⟨strip t, holdsWord_strip t, h⟩

end Value

/-! ## Reading a word -/

namespace ValueType

open Value

/-- What is said of a text that is no value. -/
def refusal (t : Bytes) : Bytes :=
  ascii "invalid value '" ++ t ++ ascii "'"

theorem parse_eq_ok_iff (htype : type ≠ text) :
    type.parse t = .ok v ↔ type.ofWord? (strip t) = some v := by
  rw [parse, value?, if_neg htype]
  cases type.ofWord? (strip t) with
  | none => simp
  | some v' => simp

theorem parse_eq_error_iff :
    type.parse t = .error message ↔ (∀ v, type.parse t ≠ .ok v) ∧ message = refusal t := by
  rw [parse]
  cases type.value? t with
  | none => simp [refusal, eq_comm]
  | some v => simp

/-- A type is told by the words that it accepts, if they hold no white space. -/
theorem parse_eq_ok_iff_exists_word (htype : type ≠ text) {accepts : Bytes → Value → Prop}
    (hword : ∀ word v, type.ofWord? word = some v ↔ accepts word v)
    (hvisible : ∀ word v, accepts word v → ∀ b ∈ word, isSpace b = false) :
    type.parse t = .ok v ↔ ∃ word, HoldsWord t word ∧ accepts word v := by
  rw [parse_eq_ok_iff htype, hword, exists_holdsWord_iff fun word => hvisible word v]

/-- A word with a minus sign in front is refused, and any other is read. -/
theorem unlessMinus_eq_some_iff {read : Option Value} :
    (if word.head? == some Ascii.minus then none else read) = some v ↔
      word.head? ≠ some Ascii.minus ∧ read = some v := by
  split
  · rename_i hminus
    exact iff_of_false nofun fun h => h.1 (beq_iff_eq.1 hminus)
  · rename_i hminus
    exact (and_iff_right (mt beq_iff_eq.2 hminus)).symm

/-! ## Bytes -/

theorem ofWord?_signed_byte_eq_some_iff :
    (byte true).ofWord? word = some v ↔ ∃ b, word = [b] ∧ v = .byte b := by
  cases word with
  | nil =>
    have hread : (byte true).ofWord? [] = none := rfl
    simp [hread]
  | cons b rest =>
    cases rest with
    | nil =>
      have hread : (byte true).ofWord? [b] = some (.byte b) := rfl
      simp [hread, eq_comm]
    | cons b' rest =>
      have hread : (byte true).ofWord? (b :: b' :: rest) = none := rfl
      simp [hread]

theorem ofWord?_unsigned_byte_eq_some_iff : (byte false).ofWord? word = some v ↔
    word.head? ≠ some Ascii.minus ∧ (byte true).ofWord? word = some v :=
  unlessMinus_eq_some_iff

theorem strip_eq_singleton_iff {b : UInt8} :
    strip t = [b] ↔ isSpace b = false ∧ HoldsWord t [b] := by
  rw [strip_eq_iff]
  simp [and_comm]

/-- A byte is read from the texts that hold it alone, and a minus sign is no unsigned byte. -/
theorem parse_byte (t : Bytes) :
    (∀ v, (byte true).parse t = .ok v ↔
      ∃ b, v = .byte b ∧ isSpace b = false ∧ HoldsWord t [b]) ∧
    (∀ v, (byte false).parse t = .ok v ↔
      (byte true).parse t = .ok v ∧ ¬HoldsWord t [Ascii.minus]) ∧
    ∀ signed message, (byte signed).parse t = .error message ↔
      (∀ v, (byte signed).parse t ≠ .ok v) ∧ message = refusal t := by
  have hword (signed : Bool) (v : Value) :
      (byte signed).parse t = .ok v ↔ (byte signed).ofWord? (strip t) = some v :=
    parse_eq_ok_iff nofun
  refine ⟨fun v => ?_, fun v => ?_, fun signed message => parse_eq_error_iff⟩
  · rw [hword, ofWord?_signed_byte_eq_some_iff]
    exact exists_congr fun b => by rw [strip_eq_singleton_iff, and_comm]
  · rw [hword, hword, ofWord?_unsigned_byte_eq_some_iff, and_comm]
    refine and_congr_right fun hread => not_congr ?_
    obtain ⟨b, hstrip, -⟩ := ofWord?_signed_byte_eq_some_iff.1 hread
    rw [hstrip, List.head?_cons, Option.some.injEq]
    constructor
    · rintro rfl
      exact (strip_eq_singleton_iff.1 hstrip).2
    · intro hminus
      rw [strip_eq_singleton_iff.2 ⟨rfl, hminus⟩] at hstrip
      exact (List.head_eq_of_cons_eq hstrip).symm

/-- A minus sign is a signed byte but no unsigned one. -/
theorem minus_no_unsigned_byte :
    (byte true).parse [Ascii.minus] = .ok (.byte Ascii.minus) ∧
      (byte false).parse [Ascii.minus] = .error (ascii "invalid value '-'") ∧
      ¬∀ t v, (byte true).parse t = .ok v ↔ (byte false).parse t = .ok v := by
  refine ⟨rfl, rfl, fun hsame => ?_⟩
  cases (hsame [Ascii.minus] _).1 rfl

end ValueType

end Repl
