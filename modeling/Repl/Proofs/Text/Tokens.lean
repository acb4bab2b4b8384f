import Repl.Proofs.Text.Ends
import Repl.Proofs.Text.Padding

/-!
Trimming, told by tokens. A text is cut into tokens from the front, one decoded character after
the other, and trimming takes away the tokens of white space at both ends. The scan from the back
does not know where tokens begin, but it agrees with them: white space begins with a byte that ends
whatever stands before it, so that the tokens before it are those of the text without it.
-/

namespace Repl.Text

variable {c lead : UInt8} {front rest s : Bytes}

/-! ## Tokens -/

/-- One character of a text: its code point, and the bytes that spell it. -/
structure Token where
  codePoint : Nat
  bytes : Bytes
  deriving DecidableEq, Repr

def Token.isWhite (t : Token) : Bool :=
  isWhiteSpace t.codePoint

/-- The first token of the text `lead :: rest`. -/
def Token.first (lead : UInt8) (rest : Bytes) : Token :=
  ⟨(decode lead rest).codePoint, lead :: rest.take ((decode lead rest).length - 1)⟩

/-- The text `lead :: rest` after its first token. -/
def afterFirst (lead : UInt8) (rest : Bytes) : Bytes :=
  rest.drop ((decode lead rest).length - 1)

/-- The tokens of a text after the bytes that are skipped. -/
def tokensAfter : Nat → Bytes → List Token
  | _, [] => []
  | skip + 1, _ :: rest => tokensAfter skip rest
  | 0, lead :: rest =>
    .first lead rest :: tokensAfter ((decode lead rest).length - 1) rest

/-- A text, cut into characters from its front. A byte that begins no complete character is a token
of its own, with the replacement character. -/
def tokens (s : Bytes) : List Token :=
  tokensAfter 0 s

def spell (ts : List Token) : Bytes :=
  ts.flatMap Token.bytes

theorem spell_append (ts us : List Token) : spell (ts ++ us) = spell ts ++ spell us :=
  List.flatMap_append

theorem tokensAfter_eq (skip : Nat) (s : Bytes) : tokensAfter skip s = tokens (s.drop skip) := by
  induction s generalizing skip with
  | nil =>
    rw [List.drop_nil]
    cases skip <;> rfl
  | cons b rest ih =>
    cases skip with
    | zero => rfl
    | succ skip => exact ih skip

theorem tokens_cons (lead : UInt8) (rest : Bytes) :
    tokens (lead :: rest) = .first lead rest :: tokens (afterFirst lead rest) := by
  rw [afterFirst, ← tokensAfter_eq]
  rfl

theorem first_bytes_append (lead : UInt8) (rest : Bytes) :
    (Token.first lead rest).bytes ++ afterFirst lead rest = lead :: rest :=
  congrArg (lead :: ·) (List.take_append_drop ..)

/-- What is shown of a text after its first token is shown of the text. -/
theorem tokens_induction {motive : Bytes → Prop} (nil : motive [])
    (cons : ∀ lead rest, motive (afterFirst lead rest) → motive (lead :: rest)) (s : Bytes) :
    motive s := by
  match s with
  | [] => exact nil
  | lead :: rest =>
    have hshorter : (afterFirst lead rest).length < (lead :: rest).length :=
      Nat.lt_succ_of_le (List.drop_suffix _ rest).length_le
    exact cons lead rest (tokens_induction nil cons (afterFirst lead rest))
termination_by s.length
decreasing_by exact hshorter

/-- Tokens leave nothing out. -/
theorem spell_tokens (s : Bytes) : spell (tokens s) = s := by
  induction s using tokens_induction with
  | nil => rfl
  | cons lead rest ih =>
    rw [tokens_cons, spell, List.flatMap_cons, ← spell, ih, first_bytes_append]

/-! ## Texts cut in two -/

theorem first_append (hc : isContinuation c = false) (lead : UInt8) (front back : Bytes) :
    Token.first lead (front ++ c :: back) = .first lead front ∧
      afterFirst lead (front ++ c :: back) = afterFirst lead front ++ c :: back := by
  have hreach : (decode lead front).length - 1 ≤ front.length :=
    Nat.sub_le_of_le_add (decode_length_le lead front)
  rw [Token.first, Token.first, afterFirst, afterFirst, decode_append hc,
    List.take_append_of_le_length hreach, List.drop_append_of_le_length hreach]
  exact ⟨rfl, rfl⟩

/-- No token reaches over a byte that continues nothing. -/
theorem tokens_append (hc : isContinuation c = false) (front back : Bytes) :
    tokens (front ++ c :: back) = tokens front ++ tokens (c :: back) := by
  induction front using tokens_induction with
  | nil => rfl
  | cons lead front ih =>
    obtain ⟨hfirst, hafter⟩ := first_append hc lead front back
    rw [List.cons_append, tokens_cons, hfirst, hafter, ih, tokens_cons lead front, List.cons_append]

theorem tokens_append_blank {w : Bytes} (hw : Blank w) (front : Bytes) :
    tokens (front ++ w) = tokens front ++ tokens w := by
  obtain rfl | ⟨lead, others, rfl, hlead⟩ := hw.eq_nil_or_cons
  · rw [List.append_nil]
    exact (List.append_nil _).symm
  · exact tokens_append hlead front others

/-- The last tokens of a text are the tokens of what they spell. -/
theorem tokens_spell_of_append {ts us : List Token} (h : tokens s = ts ++ us) :
    tokens (spell us) = us := by
  induction ts generalizing s with
  | nil =>
    rw [List.nil_append] at h
    rw [← h, spell_tokens]
  | cons t ts ih =>
    cases s with
    | nil => cases h
    | cons lead rest =>
      rw [tokens_cons, List.cons_append] at h
      exact ih (List.cons.inj h).2

/-! ## White space -/

theorem continueValue_take (value n : Nat) (rest : Bytes) :
    continueValue value n (rest.take n) = continueValue value n rest := by
  induction n generalizing value rest with
  | zero => rw [continueValue, continueValue]
  | succ n ih =>
    cases rest with
    | nil => rfl
    | cons b rest => rw [List.take_succ_cons, continueValue, continueValue, ih]

/-- A token of white space is complete: what it decodes to is no matter of what stands after it. -/
theorem isSpaceCharacter_of_first (h : (Token.first lead rest).isWhite = true) :
    isSpaceCharacter lead (rest.take ((decode lead rest).length - 1)) = true := by
  change isWhiteSpace (decode lead rest).codePoint = true at h
  obtain hnone | ⟨-, payload, n, hsequence⟩ := decode_eq_decodeSequence lead
  · rw [hnone] at h
    cases h
  cases hvalue : continueValue payload.toNat n rest with
  | none =>
    rw [hsequence, decodeSequence, hvalue] at h
    cases h
  | some value =>
    have hdecode : decode lead rest = ⟨value, n + 1⟩ := by rw [hsequence, decodeSequence, hvalue]
    have htake : decode lead (rest.take n) = ⟨value, n + 1⟩ := by
      rw [hsequence, decodeSequence, continueValue_take, hvalue]
    have hlength : (rest.take n).length = n :=
      List.length_take_of_le (continueValue_eq_some hvalue).1
    rw [hdecode] at h ⊢
    rw [Nat.add_sub_cancel, isSpaceCharacter, htake, hlength, beq_self_eq_true]
    exact h

theorem blank_spell_of_front {ts us : List Token} (h : tokens s = ts ++ us)
    (hwhite : ∀ t ∈ ts, t.isWhite = true) : Blank (spell ts) := by
  induction ts generalizing s with
  | nil => exact .nil
  | cons t ts ih =>
    obtain ⟨ht, hts⟩ := List.forall_mem_cons.1 hwhite
    cases s with
    | nil => cases h
    | cons lead rest =>
      rw [tokens_cons, List.cons_append] at h
      obtain ⟨rfl, hrest⟩ := List.cons.inj h
      exact .cons (isSpaceCharacter_of_first ht) (ih hrest hts)

theorem blank_spell_of_back {ts us : List Token} (h : tokens s = ts ++ us)
    (hwhite : ∀ t ∈ us, t.isWhite = true) : Blank (spell us) :=
  blank_spell_of_front ((tokens_spell_of_append h).trans (List.append_nil us).symm) hwhite

/-- The bytes of white space at the end of a text stand in one token. -/
theorem tokens_append_space_character (h : isSpaceCharacter lead rest = true) (front : Bytes) :
    ∃ t, tokens (front ++ lead :: rest) = tokens front ++ [t] ∧ t.isWhite = true := by
  obtain ⟨hlead, -, -⟩ := isSpaceCharacter_spec h
  rw [isSpaceCharacter, Bool.and_eq_true, beq_iff_eq] at h
  refine ⟨.first lead rest, ?_, h.2⟩
  rw [tokens_append hlead, tokens_cons, afterFirst, h.1, Nat.add_sub_cancel, List.drop_length]
  rfl

/-! ## The core of a text -/

/-- The tokens between the white space at both ends. -/
def core (ts : List Token) : List Token :=
  (ts.dropWhile Token.isWhite).rdropWhile Token.isWhite

theorem exists_white_core (ts : List Token) : ∃ leading trailing,
    ts = leading ++ core ts ++ trailing ∧ (∀ t ∈ leading, t.isWhite = true) ∧
      ∀ t ∈ trailing, t.isWhite = true :=
  exists_append_stripped Token.isWhite ts

theorem core_eq_self_iff {ts : List Token} : core ts = ts ↔
    (∀ t ∈ ts.head?, t.isWhite = false) ∧ ∀ t ∈ ts.getLast?, t.isWhite = false :=
  stripped_eq_self_iff

theorem core_core (ts : List Token) : core (core ts) = core ts :=
  stripped_stripped Token.isWhite ts

/-! ## Trimming -/

/-- The scan from the back either finds nothing, or begins with a character of white space. -/
theorem trimEndBefore_eq_or (tail before : Bytes) :
    trimEndBefore tail before = before.reverse ++ tail ∨
      ∃ front lead rest, before.reverse ++ tail = front ++ lead :: rest ∧
        isSpaceCharacter lead rest = true := by
  induction before generalizing tail with
  | nil => exact .inl rfl
  | cons b before ih =>
    rw [List.reverse_cons, List.append_assoc, List.singleton_append, trimEndBefore]
    split
    · exact ih (b :: tail)
    split
    · rename_i hspace
      exact .inr ⟨before.reverse, b, tail, rfl, hspace⟩
    · exact .inl rfl

/-- A text is trimmed if its first and its last token are no white space. -/
theorem trim_eq_self_of_core (h : core (tokens s) = tokens s) : trim s = s := by
  obtain ⟨hhead, hlast⟩ := core_eq_self_iff.1 h
  rw [trim_eq_self_iff]
  constructor
  · cases s with
    | nil => rfl
    | cons lead rest =>
      rw [trimStart_cons_eq_self_iff]
      rw [tokens_cons] at hhead
      exact hhead (.first lead rest) rfl
  · have hscan := trimEndBefore_eq_or [] s.reverse
    rw [List.reverse_reverse, List.append_nil] at hscan
    obtain hsame | ⟨front, lead, rest, rfl, hspace⟩ := hscan
    · exact hsame
    · obtain ⟨t, htokens, ht⟩ := tokens_append_space_character hspace front
      rw [htokens] at hlast
      cases ht.symm.trans (hlast t List.getLast?_concat)

theorem tokens_spell_core (s : Bytes) : tokens (spell (core (tokens s))) = core (tokens s) := by
  obtain ⟨leading, trailing, hsplit, -, htrailing⟩ := exists_white_core (tokens s)
  have hblank : Blank (spell trailing) := blank_spell_of_back hsplit htrailing
  have hspelled : tokens (spell trailing) = trailing := tokens_spell_of_append hsplit
  rw [List.append_assoc] at hsplit
  -- No token of the core reaches into the white space behind it.
  have hback := tokens_spell_of_append hsplit
  rw [spell_append, tokens_append_blank hblank, hspelled] at hback
  exact List.append_cancel_right hback

/-- Trimming takes away the tokens of white space at both ends of a text, and nothing else. What it
leaves is cut into the same tokens as before. A text has excess white space just if its first token
or its last one is white space. -/
theorem trim_eq_spell_core (s : Bytes) :
    trim s = spell (core (tokens s)) ∧ tokens (trim s) = core (tokens s) ∧
      (∃ leading trailing, tokens s = leading ++ core (tokens s) ++ trailing ∧
        s = spell leading ++ trim s ++ spell trailing ∧ (∀ t ∈ leading, t.isWhite = true) ∧
          ∀ t ∈ trailing, t.isWhite = true) ∧
      (hasExcessWhiteSpace s = true ↔ (∃ t ∈ (tokens s).head?, t.isWhite = true) ∨
        ∃ t ∈ (tokens s).getLast?, t.isWhite = true) := by
  obtain ⟨leading, trailing, hsplit, hleading, htrailing⟩ := exists_white_core (tokens s)
  have hcore := tokens_spell_core s
  have hspell : s = spell leading ++ spell (core (tokens s)) ++ spell trailing := by
    rw [← spell_append, ← spell_append, ← hsplit, spell_tokens]
  have hfront : Blank (spell leading) := by
    rw [List.append_assoc] at hsplit
    exact blank_spell_of_front hsplit hleading
  have hback : Blank (spell trailing) := blank_spell_of_back hsplit htrailing
  -- The core has no white space at its ends, so that trimming leaves it as it is.
  have htrim : trim s = spell (core (tokens s)) := by
    calc trim s = trim (spell leading ++ spell (core (tokens s)) ++ spell trailing) := by
          rw [← hspell]
      _ = trim (spell (core (tokens s))) := trim_padded hfront hback _
      _ = spell (core (tokens s)) := trim_eq_self_of_core (by rw [hcore, core_core])
  refine ⟨htrim, htrim ▸ hcore,
    ⟨leading, trailing, hsplit, htrim ▸ hspell, hleading, htrailing⟩, ?_⟩
  have hsame : trim s = s ↔ core (tokens s) = tokens s := by
    refine ⟨fun h => ?_, trim_eq_self_of_core⟩
    rw [← hcore, ← htrim, h]
  rw [hasExcessWhiteSpace, bne_iff_ne, ne_eq, hsame, core_eq_self_iff, not_and_or]
  simp only [not_forall, Bool.not_eq_false, exists_prop]

/-- An overlong character of white space, the beginning of a character, and a whole one. -/
example : (tokens ([0xE0, 0x82, 0x85] ++ [0xE3, 0x80] ++ encode 0x3000)).map Token.codePoint =
    [0x85, 0xFFFD, 0xFFFD, 0x3000] := by
  decide

end Repl.Text
