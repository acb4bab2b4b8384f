import Repl.Proofs.Command.Registration
import Repl.Proofs.Text.Lines

/-!
What a registry makes of a line, told by the parsers alone: no line is lost to the table, and none
reaches two parsers. Keys that can be entered are not always keys that can be typed.
-/

namespace Repl

variable {κ : Type}

/-! ## Splitting a line -/

/-- The identifier is what stands before the first space of the line, or all of it, and the
arguments are what stands after that space. -/
def Splits (line identifier arguments : Bytes) : Prop :=
  Ascii.space ∉ identifier ∧
    (line = identifier ++ Ascii.space :: arguments ∨ line = identifier ∧ arguments = [])

theorem CommandLine.ofLine?_of_splits {line identifier arguments : Bytes} (hline : line ≠ [])
    (h : Splits line identifier arguments) :
    CommandLine.ofLine? line = some ⟨identifier, arguments⟩ := by
  obtain ⟨hspace, hcases⟩ := h
  rw [ofLine?, if_neg hline]
  obtain rfl | ⟨rfl, rfl⟩ := hcases
  · rw [Text.takeWhile_ne_append hspace, Text.dropWhile_ne_append hspace]
    rfl
  · -- No space at all: the whole line is the identifier.
    rw [Text.takeWhile_ne_of_not_mem hspace, Text.dropWhile_ne_of_not_mem hspace]
    rfl

theorem splits_takeWhile (line : Bytes) :
    Splits line (line.takeWhile (· ≠ Ascii.space))
      ((line.dropWhile (· ≠ Ascii.space)).drop 1) := by
  refine ⟨fun hmem => by simpa using List.mem_takeWhile_imp hmem, ?_⟩
  have happend := List.takeWhile_append_dropWhile (p := (· ≠ Ascii.space)) (l := line)
  have hhead := List.head?_dropWhile_not (· ≠ Ascii.space) line
  cases hdrop : line.dropWhile (· ≠ Ascii.space) with
  | nil =>
    rw [hdrop, List.append_nil] at happend
    exact .inr ⟨happend.symm, rfl⟩
  | cons b rest =>
    rw [hdrop] at happend hhead
    obtain rfl : b = Ascii.space := by simpa using hhead
    exact .inl happend.symm

theorem CommandLine.ofLine?_eq_some_iff {line identifier arguments : Bytes} :
    CommandLine.ofLine? line = some ⟨identifier, arguments⟩ ↔
      line ≠ [] ∧ Splits line identifier arguments := by
  constructor
  · intro h
    rw [ofLine?] at h
    split at h
    · cases h
    · rename_i hline
      cases h
      exact ⟨hline, splits_takeWhile line⟩
  · rintro ⟨hline, h⟩
    exact ofLine?_of_splits hline h

/-! ## The parser with a key -/

theorem Parser.withoutArguments_eq_ok_iff {name arguments : Bytes} {command c : κ} :
    withoutArguments name command arguments = .ok (some c) ↔ arguments = [] ∧ c = command := by
  unfold withoutArguments
  by_cases h : arguments = []
  · rw [if_pos h]
    constructor
    · rintro ⟨⟩
      exact ⟨h, rfl⟩
    · rintro ⟨-, rfl⟩
      rfl
  · rw [if_neg h]
    constructor
    · rintro ⟨⟩
    · rintro ⟨h', -⟩
      exact absurd h' h

namespace Registry

variable {r : Registry κ} {p : Parser κ}

/-- A key leads to the one position whose parser has it. -/
theorem Sound.table_find?_eq_some_iff (h : r.Sound) {key : Bytes} {i : Nat} :
    r.table.find? key = some i ↔ ∃ p, r.parsers[i]? = some p ∧ p.HasKey key := by
  rw [DispatchTable.find?]
  cases hshorthand : r.table.shorthands.find? key with
  | some j =>
    obtain ⟨q, hq, hown⟩ := Option.bind_eq_some_iff.1 ((h.shorthands key j).1 hshorthand)
    constructor
    · rintro ⟨⟩
      exact ⟨q, hq, .inr hown⟩
    · rintro ⟨p, hp, hname | hown'⟩
      · -- a key is not both a shorthand and a name
        have hdisjoint := (List.nodup_append.1 h.registrable.keys).2.2
        have hpname := List.mem_map_of_mem (f := some) (List.mem_of_getElem? hp)
        have hqown := List.mem_map_of_mem (f := some) (List.mem_of_getElem? hq)
        exact absurd rfl (hdisjoint key (List.mem_filterMap.2 ⟨_, hpname, congrArg some hname⟩) key
          (List.mem_filterMap.2 ⟨_, hqown, hown⟩))
      · have hi := (h.shorthands key i).2 (Option.bind_eq_some_iff.2 ⟨p, hp, hown'⟩)
        exact hshorthand.symm.trans hi
  | none =>
    dsimp only
    rw [h.names, Option.bind_eq_some_iff]
    constructor
    · rintro ⟨p, hp, hname⟩
      exact ⟨p, hp, .inl (Option.some.inj hname)⟩
    · rintro ⟨p, hp, hname | hown⟩
      · exact ⟨p, hp, congrArg some hname⟩
      · have hfree := (h.shorthands.find?_eq_none_iff key).1 hshorthand p (List.mem_of_getElem? hp)
        exact absurd hown hfree

theorem Sound.find?_eq_some_iff (h : r.Sound) {key : Bytes} :
    r.find? key = some p ↔ p ∈ r.parsers ∧ p.HasKey key := by
  rw [Registry.find?, Option.bind_eq_some_iff]
  constructor
  · rintro ⟨i, hi, hp⟩
    obtain ⟨q, hq, hkey⟩ := h.table_find?_eq_some_iff.1 hi
    rw [hp] at hq
    cases hq
    exact ⟨List.mem_of_getElem? hp, hkey⟩
  · rintro ⟨hmem, hkey⟩
    obtain ⟨i, hp⟩ := List.mem_iff_getElem?.1 hmem
    exact ⟨i, h.table_find?_eq_some_iff.2 ⟨p, hp, hkey⟩, hp⟩

theorem Sound.find?_parser_eq_none_iff (h : r.Sound) {key : Bytes} :
    r.find? key = none ↔ ∀ p ∈ r.parsers, ¬p.HasKey key := by
  rw [Option.eq_none_iff_forall_ne_some]
  constructor
  · intro hnone p hp hkey
    exact hnone p (h.find?_eq_some_iff.2 ⟨hp, hkey⟩)
  · intro hfree p hp
    obtain ⟨hmem, hkey⟩ := h.find?_eq_some_iff.1 hp
    exact hfree p hmem hkey

theorem mem_parsers_of_register {parsers : List (Option (Parser κ))}
    (h : (register parsers).outcome = .ok r) : some p ∈ parsers ↔ p ∈ r.parsers := by
  rw [← parsers_of_register h, List.mem_map]
  simp

/-! ## The command of a line -/

/-- The answers to a line, by what the parsers themselves say: the right one follows from the line's
identifier, whose parser is asked for the arguments. -/
inductive Answers (parsers : List (Option (Parser κ))) : Bytes → Except Bytes κ → Prop where
  | empty : Answers parsers [] (.error (ascii "empty command string"))
  | unknown {line identifier arguments : Bytes} (hline : line ≠ [])
    (hsplit : Splits line identifier arguments)
    (hfree : ∀ p, some p ∈ parsers → ¬p.HasKey identifier) :
    Answers parsers line (.error (ascii "no command parser for '" ++ identifier ++ ascii "'"))
  | refused {line identifier arguments message : Bytes} {p : Parser κ} (hline : line ≠ [])
    (hsplit : Splits line identifier arguments) (hp : some p ∈ parsers)
    (hkey : p.HasKey identifier) (hparse : p.parse arguments = .error message) :
    Answers parsers line (.error message)
  | noCommand {line identifier arguments : Bytes} {p : Parser κ} (hline : line ≠ [])
    (hsplit : Splits line identifier arguments) (hp : some p ∈ parsers)
    (hkey : p.HasKey identifier) (hparse : p.parse arguments = .ok none) :
    Answers parsers line
      (.error (ascii "command parser for '" ++ identifier ++ ascii "' produced no command"))
  | command {line identifier arguments : Bytes} {p : Parser κ} {command : κ} (hline : line ≠ [])
    (hsplit : Splits line identifier arguments) (hp : some p ∈ parsers)
    (hkey : p.HasKey identifier) (hparse : p.parse arguments = .ok (some command)) :
    Answers parsers line (.ok command)

theorem answers_parse {parsers : List (Option (Parser κ))}
    (h : (register parsers).outcome = .ok r) (line : Bytes) :
    Answers parsers line ((r.parse line).mapError LineError.message) := by
  have hsound := sound_of_register h
  rw [parse]
  cases hline : CommandLine.ofLine? line with
  | none =>
    obtain rfl : line = [] := by simpa [CommandLine.ofLine?] using hline
    exact .empty
  | some split =>
    obtain ⟨identifier, arguments⟩ := split
    obtain ⟨hne, hsplit⟩ := CommandLine.ofLine?_eq_some_iff.1 hline
    dsimp only
    cases hfind : r.find? identifier with
    | none =>
      refine .unknown hne hsplit fun p hp => ?_
      exact hsound.find?_parser_eq_none_iff.1 hfind p ((mem_parsers_of_register h).1 hp)
    | some p =>
      obtain ⟨hmem, hkey⟩ := hsound.find?_eq_some_iff.1 hfind
      have hp := (mem_parsers_of_register h).2 hmem
      dsimp only
      cases hparse : p.parse arguments with
      | error message => exact .refused hne hsplit hp hkey hparse
      | ok result =>
        cases result with
        | none => exact .noCommand hne hsplit hp hkey hparse
        | some command => exact .command hne hsplit hp hkey hparse

theorem parse_of_answers {parsers : List (Option (Parser κ))}
    (h : (register parsers).outcome = .ok r) {line : Bytes} {answer : Except Bytes κ}
    (hanswer : Answers parsers line answer) :
    (r.parse line).mapError LineError.message = answer := by
  have hsound := sound_of_register h
  have hfind {p : Parser κ} {key : Bytes} (hp : some p ∈ parsers) (hkey : p.HasKey key) :
      r.find? key = some p :=
    hsound.find?_eq_some_iff.2 ⟨(mem_parsers_of_register h).1 hp, hkey⟩
  cases hanswer with
  | empty => rfl
  | unknown hline hsplit hfree =>
    have hnone := hsound.find?_parser_eq_none_iff.2 fun p hp =>
      hfree p ((mem_parsers_of_register h).2 hp)
    rw [parse, CommandLine.ofLine?_of_splits hline hsplit]
    dsimp only
    rw [hnone]
    rfl
  | refused hline hsplit hp hkey hparse | noCommand hline hsplit hp hkey hparse
    | command hline hsplit hp hkey hparse =>
    rw [parse, CommandLine.ofLine?_of_splits hline hsplit]
    dsimp only
    rw [hfind hp hkey]
    dsimp only
    rw [hparse]
    rfl

theorem getElem?_of_register {parsers : List (Option (Parser κ))}
    (h : (register parsers).outcome = .ok r) {i : Nat} :
    parsers[i]? = some (some p) ↔ r.parsers[i]? = some p := by
  rw [← parsers_of_register h, List.getElem?_map, Option.map_eq_some_iff]
  simp

/-- A registry gives every line the answer that its parsers give. No two of them have a key in
common, and every position in the table is that of a parser with the key. -/
theorem parse_eq_iff_answers {parsers : List (Option (Parser κ))}
    (h : (register parsers).outcome = .ok r) :
    (∀ line answer,
      (r.parse line).mapError LineError.message = answer ↔ Answers parsers line answer) ∧
      (∀ (key : Bytes) (i j : Nat) (p q : Parser κ), parsers[i]? = some (some p) →
        parsers[j]? = some (some q) → p.HasKey key → q.HasKey key → i = j) ∧
      ∀ key i, (key, i) ∈ r.table.shorthands.entries ++ r.table.names.entries →
        ∃ p, parsers[i]? = some (some p) ∧ p.HasKey key := by
  have hsound := sound_of_register h
  refine ⟨fun line answer => ⟨?_, parse_of_answers h⟩, ?_, ?_⟩
  · rintro rfl
    exact answers_parse h line
  · intro key i j p q hp hq hpkey hqkey
    have hi := hsound.table_find?_eq_some_iff.2 ⟨p, (getElem?_of_register h).1 hp, hpkey⟩
    have hj := hsound.table_find?_eq_some_iff.2 ⟨q, (getElem?_of_register h).1 hq, hqkey⟩
    exact Option.some.inj (hi.symm.trans hj)
  · intro key i he
    rcases List.mem_append.1 he with he | he
    · rw [Dictionary.mem_entries_iff, hsound.shorthands, Option.bind_eq_some_iff] at he
      obtain ⟨p, hp, hown⟩ := he
      exact ⟨p, (getElem?_of_register h).2 hp, .inr hown⟩
    · rw [Dictionary.mem_entries_iff, hsound.names, Option.bind_eq_some_iff] at he
      obtain ⟨p, hp, hname⟩ := he
      exact ⟨p, (getElem?_of_register h).2 hp, .inl (Option.some.inj hname)⟩

/-- A command without examples that takes no arguments. -/
def plain (name : Bytes) (shorthand : Option Bytes) : Parser Unit :=
  ⟨name, shorthand, ⟨[], [], []⟩, Parser.withoutArguments name ()⟩

theorem plain_refuses_arguments :
    ∃ r, (register [some (plain (ascii "quit") (some (ascii "q")))]).outcome = .ok r ∧
      (r.parse (ascii "q now")).mapError LineError.message =
        .error (ascii "invalid arguments to 'quit': 'now'") := by
  have hregister : (register [some (plain (ascii "quit") (some (ascii "q")))]).outcome = .ok _ := rfl
  have hsplit : Splits (ascii "q now") (ascii "q") (ascii "now") := ⟨by decide, .inl rfl⟩
  refine ⟨_, hregister, ((parse_eq_iff_answers hregister).1 _ _).2 ?_⟩
  exact .refused (by decide) hsplit List.mem_cons_self (.inr rfl) rfl

/-! ## Keys that can be typed -/

/-- The line is left to the parser, with the arguments. -/
def ResolvesTo (r : Registry κ) (line : Bytes) (p : Parser κ) (arguments : Bytes) : Prop :=
  ∃ identifier, CommandLine.ofLine? line = some ⟨identifier, arguments⟩ ∧
    r.find? identifier = some p

theorem ResolvesTo.parse_eq_ok_iff {line arguments : Bytes} (h : r.ResolvesTo line p arguments)
    {command : κ} : r.parse line = .ok command ↔ p.parse arguments = .ok (some command) := by
  obtain ⟨identifier, hline, hfind⟩ := h
  rw [parse, hline]
  dsimp only
  rw [hfind]
  dsimp only
  rcases p.parse arguments with message | (_ | command) <;> simp

/-- The keys that reach their parser, alone and with any arguments, are those that are not empty and
have no space. Registration asks for neither. -/
theorem resolvesTo_key_iff {parsers : List (Option (Parser κ))}
    (h : (register parsers).outcome = .ok r) (hp : some p ∈ parsers) {key : Bytes}
    (hkey : p.HasKey key) :
    ((r.ResolvesTo key p [] ∧
      ∀ arguments, r.ResolvesTo (key ++ Ascii.space :: arguments) p arguments) ↔
        key ≠ [] ∧ Ascii.space ∉ key) ∧
      ∀ line arguments, r.ResolvesTo line p arguments → ∀ command,
        r.parse line = .ok command ↔ p.parse arguments = .ok (some command) := by
  have hfind : r.find? key = some p :=
    (sound_of_register h).find?_eq_some_iff.2 ⟨(mem_parsers_of_register h).1 hp, hkey⟩
  refine ⟨?_, fun _ _ hresolves _ => hresolves.parse_eq_ok_iff⟩
  constructor
  · rintro ⟨⟨_, halone, -⟩, hwith⟩
    refine ⟨(CommandLine.ofLine?_eq_some_iff.1 halone).1, fun hspace => ?_⟩
    -- The line is split at the space in the key, so the rest of the key goes to the arguments.
    obtain ⟨front, rest, rfl, hfront⟩ := List.eq_append_cons_of_mem hspace
    obtain ⟨_, hline, -⟩ := hwith []
    have hsplit : Splits (front ++ Ascii.space :: rest ++ [Ascii.space]) front
        (rest ++ [Ascii.space]) := ⟨hfront, .inl (by simp)⟩
    rw [CommandLine.ofLine?_of_splits (by simp) hsplit] at hline
    simp at hline
  · rintro ⟨hne, hspace⟩
    refine ⟨⟨key, CommandLine.ofLine?_of_splits hne ⟨hspace, .inr ⟨rfl, rfl⟩⟩, hfind⟩, ?_⟩
    intro arguments
    exact ⟨key, CommandLine.ofLine?_of_splits (by simp) ⟨hspace, .inl rfl⟩, hfind⟩

theorem resolvesTo_quit :
    ∃ r, (register [some (plain (ascii "quit") (some (ascii "q")))]).outcome = .ok r ∧
      r.ResolvesTo (ascii "q now") (plain (ascii "quit") (some (ascii "q"))) (ascii "now") := by
  have hregister : (register [some (plain (ascii "quit") (some (ascii "q")))]).outcome = .ok _ := rfl
  have hkey : (plain (ascii "quit") (some (ascii "q"))).HasKey (ascii "q") := .inr rfl
  have hiff := (resolvesTo_key_iff hregister List.mem_cons_self hkey).1
  exact ⟨_, hregister, (hiff.2 (by decide)).2 (ascii "now")⟩

/-- A name with a space can be registered, and so can an empty shorthand, but neither can be typed.
-/
theorem untypable_keys_registered :
    ∃ r, (register [some (plain (ascii "ab cd") (some []))]).outcome = .ok r ∧
      ((plain (ascii "ab cd") (some [])).HasKey (ascii "ab cd") ∧
        ¬r.ResolvesTo (ascii "ab cd") (plain (ascii "ab cd") (some [])) [] ∧
        r.parse (ascii "ab cd") = .error (.unknown (ascii "ab"))) ∧
      (plain (ascii "ab cd") (some [])).HasKey [] ∧
        ¬r.ResolvesTo [] (plain (ascii "ab cd") (some [])) [] ∧ r.parse [] = .error .empty := by
  refine ⟨_, rfl, ⟨.inl rfl, ?_, rfl⟩, .inr rfl, ?_, rfl⟩
  · rintro ⟨_, hline, -⟩
    cases hline
  · rintro ⟨_, hline, -⟩
    cases hline

end Registry

end Repl
