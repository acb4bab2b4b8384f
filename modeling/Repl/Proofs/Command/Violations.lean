import Repl.Log.Logger
import Repl.Proofs.Command.Registration

/-!
Why a list of parsers makes no registry. The parsers are checked one after another, and each of them
against its rules in a fixed order: it is there, its examples parse, its shorthand is free, its name
is long enough, and its name is free. The first rule that is broken is the one reported.
-/

namespace Repl

variable {κ : Type}

/-- The first rule that a parser breaks which comes after others, with the message about it. -/
inductive Breaks (earlier : List (Option (Parser κ))) : Option (Parser κ) → Bytes → Prop where
  | missing :
    Breaks earlier none (ascii "null command parser at position " ++ Text.decimal earlier.length)
  | emptyExample {p : Parser κ} {before after : List Example} {e : Example}
    (hexamples : p.description.examples = before ++ e :: after)
    (hbefore : ∀ other ∈ before, ∃ command, p.parse other.command = .ok (some command))
    (hparse : p.parse e.command = .ok none) :
    Breaks earlier (some p)
      (ascii "example command '" ++ e.command ++ ascii "' produced no command")
  | unparsableExample {p : Parser κ} {before after : List Example} {e : Example} {error : Bytes}
    (hexamples : p.description.examples = before ++ e :: after)
    (hbefore : ∀ other ∈ before, ∃ command, p.parse other.command = .ok (some command))
    (hparse : p.parse e.command = .error error) :
    Breaks earlier (some p)
      (ascii "unparsable example command '" ++ e.command ++ ascii "': " ++ error)
  | takenShorthand {p : Parser κ} {key : Bytes} (hexamples : p.ExamplesParse)
    (hkey : p.shorthand = some key) (htaken : key ∈ allKeys earlier) :
    Breaks earlier (some p) (ascii "duplicate command parser for '" ++ key ++ ascii "'")
  | shortName {p : Parser κ} (hexamples : p.ExamplesParse)
    (hfree : ∀ key, p.shorthand = some key → key ∉ allKeys earlier) (hshort : p.name.length < 2) :
    Breaks earlier (some p)
      (ascii "invalid command name '" ++ p.name ++ ascii "': must contain at least 2 characters")
  | takenName {p : Parser κ} (hexamples : p.ExamplesParse)
    (hfree : ∀ key, p.shorthand = some key → key ∉ allKeys earlier) (hlong : 2 ≤ p.name.length)
    (htaken : p.name ∈ allKeys earlier ∨ p.shorthand = some p.name) :
    Breaks earlier (some p) (ascii "duplicate command parser for '" ++ p.name ++ ascii "'")

/-- The parser at the position breaks a rule. -/
def BreaksAt (parsers : List (Option (Parser κ))) (i : Nat) (message : Bytes) : Prop :=
  ∃ p, parsers[i]? = some p ∧ Breaks (parsers.take i) p message

theorem breaksAt_append_cons {earlier later : List (Option (Parser κ))} {p : Option (Parser κ)}
    {message : Bytes} :
    BreaksAt (earlier ++ p :: later) earlier.length message ↔ Breaks earlier p message := by
  rw [BreaksAt, List.getElem?_append_right (Nat.le_refl _), Nat.sub_self, List.getElem?_cons_zero,
    List.take_left]
  simp

namespace DispatchTable

/-- What can be wrong with the keys of a command, in the order in which it is looked for. -/
theorem insert_eq_some_iff {t : DispatchTable} {index : Nat} {name : Bytes}
    {shorthand : Option Bytes} {e : KeyError} :
    (t.insert index name shorthand).1 = some e ↔
      (∃ key, shorthand = some key ∧ t.find? key ≠ none ∧ e = .duplicate key) ∨
        (∀ key, shorthand = some key → t.find? key = none) ∧
          (name.length < 2 ∧ e = .shortName name ∨
            2 ≤ name.length ∧ (t.find? name ≠ none ∨ shorthand = some name) ∧
              e = .duplicate name) := by
  have h := insertion t index name shorthand
  generalize t.insert index name shorthand = outcome at h
  cases h with
  | takenShorthand key hkey taken =>
    constructor
    · rintro ⟨⟩
      exact .inl ⟨key, hkey, taken, rfl⟩
    · rintro (⟨other, hother, -, rfl⟩ | ⟨free, -⟩)
      · cases hkey.symm.trans hother
        rfl
      · exact absurd (free key hkey) taken
  | shortName free short =>
    constructor
    · rintro ⟨⟩
      exact .inr ⟨free, .inl ⟨short, rfl⟩⟩
    · rintro (⟨key, hkey, taken, -⟩ | ⟨-, ⟨-, rfl⟩ | ⟨long, -⟩⟩)
      · exact absurd (free key hkey) taken
      · rfl
      · omega
  | takenName free long taken =>
    constructor
    · rintro ⟨⟩
      refine .inr ⟨free, .inr ⟨long, ?_, rfl⟩⟩
      rw [Ne, bindShorthand_find?_eq_none_iff, not_and_or, not_not] at taken
      exact taken.symm
    · rintro (⟨key, hkey, taken, -⟩ | ⟨-, ⟨short, -⟩ | ⟨-, -, rfl⟩⟩)
      · exact absurd (free key hkey) taken
      · omega
      · rfl
  | entered free long nameFree =>
    obtain ⟨hne, hname⟩ := (bindShorthand_find?_eq_none_iff t index shorthand).1 nameFree
    refine iff_of_false (by simp) ?_
    rintro (⟨key, hkey, taken, -⟩ | ⟨-, ⟨short, -⟩ | ⟨-, hname' | hname', -⟩⟩)
    · exact taken (free key hkey)
    · omega
    · exact hname' hname
    · exact hne hname'

end DispatchTable

namespace Registry

variable {r : Registry κ} {p : Parser κ} {e : SpecError}

theorem forM_checkExample_eq_error_iff {examples : List Example} :
    examples.forM (checkExample p) = .error e ↔
      ∃ before x after, examples = before ++ x :: after ∧
        (∀ other ∈ before, ∃ command, p.parse other.command = .ok (some command)) ∧
          checkExample p x = .error e := by
  induction examples with
  | nil =>
    refine iff_of_false (fun h => by cases h) ?_
    rintro ⟨before, x, after, heq, -⟩
    simp at heq
  | cons first rest ih =>
    show (checkExample p first >>= fun _ => rest.forM (checkExample p)) = .error e ↔ _
    cases hfirst : checkExample p first with
    | error error =>
      constructor
      · rintro ⟨⟩
        exact ⟨[], first, rest, rfl, List.forall_mem_nil _, hfirst⟩
      · rintro ⟨- | ⟨other, before⟩, x, after, heq, hbefore, hx⟩
        · obtain ⟨rfl, -⟩ := List.cons.inj heq
          exact hfirst.symm.trans hx
        · -- The first example parses if it stands before another that does not.
          obtain ⟨rfl, -⟩ := List.cons.inj heq
          rw [checkExample_eq_ok_iff.2 (hbefore first List.mem_cons_self)] at hfirst
          cases hfirst
    | ok _ =>
      refine Iff.trans ih ?_
      constructor
      · rintro ⟨before, x, after, rfl, hbefore, hx⟩
        refine ⟨first :: before, x, after, rfl, ?_, hx⟩
        exact List.forall_mem_cons.2 ⟨checkExample_eq_ok_iff.1 hfirst, hbefore⟩
      · rintro ⟨- | ⟨other, before⟩, x, after, heq, hbefore, hx⟩
        · obtain ⟨rfl, -⟩ := List.cons.inj heq
          cases hfirst.symm.trans hx
        · obtain ⟨rfl, rfl⟩ := List.cons.inj heq
          exact ⟨before, x, after, rfl, (List.forall_mem_cons.1 hbefore).2, hx⟩

theorem add_eq_error_iff :
    r.add p = .error e ↔
      p.description.examples.forM (checkExample p) = .error e ∨
        p.ExamplesParse ∧ ∃ error,
          (r.table.insert r.parsers.length p.name p.shorthand).1 = some error ∧ e = .key error := by
  rw [Parser.ExamplesParse, ← forM_checkExample_eq_ok_iff, add]
  cases p.description.examples.forM (checkExample p) with
  | error error => simp [bind, Except.bind]
  | ok _ =>
    rcases r.table.insert r.parsers.length p.name p.shorthand with ⟨_ | error, table⟩
    · simp [bind, Except.bind]
    · simp [bind, Except.bind, eq_comm]

theorem checkExample_eq_error_iff {x : Example} :
    checkExample p x = .error e ↔
      p.parse x.command = .ok none ∧ e = .emptyExample x.command ∨
        ∃ error, p.parse x.command = .error error ∧ e = .unparsableExample x.command error := by
  rw [checkExample]
  rcases p.parse x.command with error | (_ | command) <;> simp [eq_comm]

/-- A parser is refused with the message about the first rule that it breaks. -/
theorem Sound.breaks_iff (h : r.Sound) {message : Bytes} :
    Breaks (r.parsers.map some) (some p) message ↔
      ∃ e, r.add p = .error e ∧ e.message = message := by
  have hfree {key : Bytes} : r.table.find? key = none ↔ key ∉ allKeys (r.parsers.map some) :=
    h.find?_eq_none_iff
  have htaken {key : Bytes} : r.table.find? key ≠ none ↔ key ∈ allKeys (r.parsers.map some) := by
    rw [Ne, hfree, not_not]
  simp only [add_eq_error_iff, forM_checkExample_eq_error_iff, checkExample_eq_error_iff,
    DispatchTable.insert_eq_some_iff, hfree, htaken]
  constructor
  · intro hbreaks
    cases hbreaks with
    | emptyExample hexamples hbefore hparse =>
      exact ⟨_, .inl ⟨_, _, _, hexamples, hbefore, .inl ⟨hparse, rfl⟩⟩, rfl⟩
    | unparsableExample hexamples hbefore hparse =>
      exact ⟨_, .inl ⟨_, _, _, hexamples, hbefore, .inr ⟨_, hparse, rfl⟩⟩, rfl⟩
    | takenShorthand hexamples hkey htaken =>
      exact ⟨_, .inr ⟨hexamples, _, .inl ⟨_, hkey, htaken, rfl⟩, rfl⟩, rfl⟩
    | shortName hexamples hfree hshort =>
      exact ⟨_, .inr ⟨hexamples, _, .inr ⟨hfree, .inl ⟨hshort, rfl⟩⟩, rfl⟩, rfl⟩
    | takenName hexamples hfree hlong htaken =>
      exact ⟨_, .inr ⟨hexamples, _, .inr ⟨hfree, .inr ⟨hlong, htaken, rfl⟩⟩, rfl⟩, rfl⟩
  · rintro ⟨_, ⟨before, x, after, hexamples, hbefore, hx⟩ | ⟨hexamples, _, hkeys, rfl⟩, rfl⟩
    · obtain ⟨hparse, rfl⟩ | ⟨error, hparse, rfl⟩ := hx
      · exact .emptyExample hexamples hbefore hparse
      · exact .unparsableExample hexamples hbefore hparse
    · obtain ⟨key, hkey, htaken, rfl⟩ | ⟨hfree, ⟨hshort, rfl⟩ | ⟨hlong, htaken, rfl⟩⟩ := hkeys
      · exact .takenShorthand hexamples hkey htaken
      · exact .shortName hexamples hfree hshort
      · exact .takenName hexamples hfree hlong htaken

/-- A parser that is added breaks no rule. -/
theorem not_breaks_of_registrable {earlier : List (Option (Parser κ))} {p : Option (Parser κ)}
    {message : Bytes} (h : Registrable (earlier ++ [p])) : ¬Breaks earlier p message := by
  have hlast : p ∈ earlier ++ [p] := List.mem_append_right _ List.mem_cons_self
  intro hbreaks
  cases p with
  | none => exact h.present hlast
  | some p =>
    obtain ⟨-, hexamples, hfree, hlong, hne, hname⟩ := Registrable.concat_iff.1 h
    have hparses {before after : List Example} {e : Example}
        (heq : p.description.examples = before ++ e :: after) :
        ∃ command, p.parse e.command = .ok (some command) :=
      hexamples e (heq ▸ List.mem_append_right _ List.mem_cons_self)
    cases hbreaks with
    | emptyExample heq _ hparse =>
      obtain ⟨command, hcommand⟩ := hparses heq
      cases hparse.symm.trans hcommand
    | unparsableExample heq _ hparse =>
      obtain ⟨command, hcommand⟩ := hparses heq
      cases hparse.symm.trans hcommand
    | takenShorthand _ hkey htaken => exact hfree _ hkey htaken
    | shortName _ _ hshort => omega
    | takenName _ _ _ htaken => exact htaken.elim hname hne

theorem not_breaksAt_of_registrable {earlier later : List (Option (Parser κ))} {j : Nat}
    {message : Bytes} (h : Registrable earlier) (hj : j < earlier.length) :
    ¬BreaksAt (earlier ++ later) j message := by
  rintro ⟨p, hp, hbreaks⟩
  rw [List.getElem?_append_left hj] at hp
  rw [List.take_append_of_le_length (Nat.le_of_lt hj)] at hbreaks
  refine not_breaks_of_registrable ?_ hbreaks
  have htake : earlier.take j ++ [p] = earlier.take (j + 1) := by
    rw [List.take_add_one, hp, Option.toList_some]
  rw [htake]
  rw [← List.take_append_drop (j + 1) earlier] at h
  exact h.of_append

/-- The parsers are added up to the first that breaks a rule, and its message is the only one that
there is about it. -/
theorem Sound.addAll_error (h : r.Sound) {parsers : List (Option (Parser κ))}
    (hall : (r.addAll parsers).outcome = .error e) :
    ∃ (earlier : List (Parser κ)) (p : Option (Parser κ)) (later : List (Option (Parser κ))),
      parsers = earlier.map some ++ p :: later ∧
        (r.addAll parsers).names = earlier.map Parser.name ∧
          Registrable ((r.parsers ++ earlier).map some) ∧
            ∀ message, Breaks ((r.parsers ++ earlier).map some) p message ↔ message = e.message := by
  induction parsers generalizing r with
  | nil => cases hall
  | cons next rest ih =>
    cases next with
    | none =>
      obtain rfl : SpecError.missingParser r.parsers.length = e := Except.error.inj hall
      have hposition : r.parsers.length = (r.parsers.map some).length := by rw [List.length_map]
      refine ⟨[], none, rest, rfl, rfl, by simpa using h.registrable, fun message => ?_⟩
      rw [List.append_nil, SpecError.message, hposition]
      constructor
      · rintro ⟨⟩
        rfl
      · rintro rfl
        exact .missing
    | some p =>
      rw [Registry.addAll] at hall ⊢
      cases hadd : r.add p with
      | error error =>
        rw [hadd] at hall
        obtain rfl : error = e := Except.error.inj hall
        refine ⟨[], some p, rest, rfl, rfl, by simpa using h.registrable, fun message => ?_⟩
        rw [List.append_nil, h.breaks_iff, hadd]
        simp [eq_comm]
      | ok r₁ =>
        rw [hadd] at hall
        obtain ⟨earlier, q, later, rfl, hnames, hregistrable, hbreaks⟩ := ih (h.add hadd) hall
        rw [add_parsers hadd, List.append_assoc] at hregistrable hbreaks
        exact ⟨p :: earlier, q, later, rfl, congrArg (p.name :: ·) hnames, hregistrable, hbreaks⟩

/-- If parsers make no registry, the first of them that breaks a rule is to blame. The caller is
told about it up to the first NUL of the message. A log that takes everything has an entry for each
parser before, and one with the whole message. -/
theorem register_reports_first_violation {parsers : List (Option (Parser κ))}
    (h : ∀ r, (register parsers).outcome ≠ .ok r) :
    ∃ i message, (∀ other, BreaksAt parsers i other ↔ other = message) ∧
      (∀ j < i, ∀ other, ¬BreaksAt parsers j other) ∧
        (∃ e, (register parsers).outcome = .error e ∧ e.report = Text.untilNul message) ∧
          ∃ earlier : List (Parser κ), parsers.take i = earlier.map some ∧
            ∀ logger : Log.Logger, logger.level (ascii "Registry") = .debug →
              (register parsers).entries.filter logger.admits =
                (earlier.map fun p => ⟨.debug, ascii "Registry",
                  ascii "Registered command '" ++ p.name ++ ascii "'."⟩) ++
                    [⟨.error, ascii "Registry", message⟩] := by
  cases houtcome : (register parsers).outcome with
  | ok r => exact absurd houtcome (h r)
  | error e =>
    obtain ⟨earlier, p, later, rfl, hnames, hregistrable, hbreaks⟩ :=
      sound_empty.addAll_error houtcome
    have hlength : earlier.length = (earlier.map some).length := by rw [List.length_map]
    refine ⟨earlier.length, e.message, fun other => ?_, fun j hj other => ?_, ⟨e, rfl, rfl⟩,
      earlier, ?_, fun logger hlogger => ?_⟩
    · rw [hlength, breaksAt_append_cons]
      exact hbreaks other
    · exact not_breaksAt_of_registrable hregistrable (hlength ▸ hj)
    · rw [hlength, List.take_left]
    · have hentries : (register (earlier.map some ++ p :: later)).entries =
          (earlier.map fun p => ⟨.debug, ascii "Registry",
            ascii "Registered command '" ++ p.name ++ ascii "'."⟩) ++
              [⟨.error, ascii "Registry", e.message⟩] := by
        rw [Registration.entries, houtcome, show (register _).names = _ from hnames, List.map_map]
        rfl
      rw [hentries, List.filter_eq_self]
      intro entry hentry
      have hcategory : entry.category = ascii "Registry" := by
        rw [List.mem_append, List.mem_map, List.mem_singleton] at hentry
        obtain ⟨q, -, rfl⟩ | rfl := hentry <;> rfl
      rw [Log.Logger.admits, hcategory, hlogger]
      exact Log.Level.debug_admits entry.level

/-- A shorthand with a NUL in it that is taken when it comes again, with a name that is too short; and
no parser at all after that. -/
def clashing : List (Option (Parser Unit)) :=
  let parser (name : Bytes) : Parser Unit :=
    ⟨name, some [103, 0, 49], ⟨[], [], []⟩, fun _ => .ok (some ())⟩
  [some (parser (ascii "go")), some (parser (ascii "x")), none]

theorem clashing_shorthand_reported :
    (∀ r, (register clashing).outcome ≠ .ok r) ∧
      ∃ i message, BreaksAt clashing i message ∧ (∀ j < i, ∀ other, ¬BreaksAt clashing j other) ∧
        (∃ e, (register clashing).outcome = .error e ∧ e.report = Text.untilNul message) ∧
          Text.untilNul message = ascii "duplicate command parser for 'g" := by
  have hfails : ∀ r, (register clashing).outcome ≠ .ok r := fun r hr => by cases hr
  obtain ⟨i, message, hbreaks, hfirst, ⟨e, houtcome, hreport⟩, -⟩ :=
    register_reports_first_violation hfails
  refine ⟨hfails, i, message, (hbreaks message).2 rfl, hfirst, ⟨e, houtcome, hreport⟩, ?_⟩
  rw [← hreport, ← Except.error.inj houtcome]
  rfl

end Registry

end Repl
