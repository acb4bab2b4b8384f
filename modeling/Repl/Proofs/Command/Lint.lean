import Mathlib.Data.List.Nodup
import Repl.Proofs.Command.Examples
import Repl.Proofs.Text.Uppercase

/-!
The rules of style, apart from the checks that look for them. A description in order breaks no rule.
What the checks find are the broken rules: those about purpose and usage first, and then those about
each example, always in the order in which the rules are listed. Where a text opens with an uppercase
letter that is not recognised, they find a rule too many or miss one.
-/

namespace Repl

/-! ## How texts begin and end -/

namespace Text

theorem endsWith_iff {s : Bytes} {b : UInt8} : endsWith s b = true ↔ [b] <:+ s := by
  rw [endsWith, beq_iff_eq, List.singleton_suffix_iff_getLast?_eq_some]

theorem startsWith_iff {s start : Bytes} : startsWith s start = true ↔ start <+: s :=
  List.isPrefixOf_iff_prefix

end Text

/-! ## The rules -/

/-- The example breaks a rule, given which characters are uppercase letters. The rules about the
first and the last character of a scenario look past the white space around it. -/
def Example.Violates (upper : Nat → Prop) (name : Bytes) (e : Example) : Lint → Prop
  | .exampleScenarioHasExcessWhitespace => Text.trim e.scenario ≠ e.scenario
  | .exampleScenarioIsEmpty => e.scenario = []
  | .exampleScenarioBeginsWithUppercase =>
    e.scenario ≠ [] ∧ Text.BeginsWith upper (Text.trim e.scenario)
  | .exampleScenarioEndsWithPeriod => e.scenario ≠ [] ∧ [Ascii.period] <:+ Text.trim e.scenario
  | .exampleCommandHasExcessWhitespace => Text.trim e.command ≠ e.command
  | .exampleCommandIsEmpty => e.command = []
  | .exampleCommandBeginsWithCommandName => e.command ≠ [] ∧ name <+: e.command
  | .purposeHasExcessWhitespace | .purposeIsEmpty | .purposeDoesNotBeginWithUppercase
  | .purposeDoesNotEndWithPeriod | .usageHasExcessWhitespace | .usageBeginsWithCommandName => False

/-- The description breaks a rule about purpose or usage. -/
def Description.Violates (upper : Nat → Prop) (name : Bytes) (d : Description) : Lint → Prop
  | .purposeHasExcessWhitespace => Text.trim d.purpose ≠ d.purpose
  | .purposeIsEmpty => d.purpose = []
  | .purposeDoesNotBeginWithUppercase =>
    d.purpose ≠ [] ∧ ¬Text.BeginsWith upper (Text.trim d.purpose)
  | .purposeDoesNotEndWithPeriod => d.purpose ≠ [] ∧ ¬[Ascii.period] <:+ Text.trim d.purpose
  | .usageHasExcessWhitespace => Text.trim d.usage ≠ d.usage
  | .usageBeginsWithCommandName => d.usage ≠ [] ∧ name <+: d.usage
  | .exampleScenarioHasExcessWhitespace | .exampleScenarioIsEmpty
  | .exampleScenarioBeginsWithUppercase | .exampleScenarioEndsWithPeriod
  | .exampleCommandHasExcessWhitespace | .exampleCommandIsEmpty
  | .exampleCommandBeginsWithCommandName => False

structure Example.InOrder (upper : Nat → Prop) (name : Bytes) (e : Example) : Prop where
  scenario_ne_nil : e.scenario ≠ []
  scenario_trimmed : Text.trim e.scenario = e.scenario
  scenario_lowercase : ¬Text.BeginsWith upper e.scenario
  scenario_open : ¬[Ascii.period] <:+ e.scenario
  command_ne_nil : e.command ≠ []
  command_trimmed : Text.trim e.command = e.command
  command_nameless : ¬name <+: e.command

structure Description.InOrder (upper : Nat → Prop) (name : Bytes) (d : Description) : Prop where
  purpose_ne_nil : d.purpose ≠ []
  purpose_trimmed : Text.trim d.purpose = d.purpose
  purpose_uppercase : Text.BeginsWith upper d.purpose
  purpose_closed : [Ascii.period] <:+ d.purpose
  usage_trimmed : Text.trim d.usage = d.usage
  usage_nameless : d.usage ≠ [] → ¬name <+: d.usage
  examples : ∀ e ∈ d.examples, e.InOrder upper name

/-- Neither the purpose nor a scenario opens with an uppercase letter that is not recognised. -/
structure Description.SparesOverlooked (d : Description) : Prop where
  purpose : ¬Text.BeginsWith Text.IsOverlooked (Text.trim d.purpose)
  scenarios : ∀ e ∈ d.examples, ¬Text.BeginsWith Text.IsOverlooked (Text.trim e.scenario)

namespace Lint

/-- The rules with a property, in the order in which all rules are listed. -/
structure Lists (P : Lint → Prop) (found : List Lint) : Prop where
  sublist : found.Sublist all
  mem_iff : ∀ lint, lint ∈ found ↔ P lint

theorem Lists.congr {P Q : Lint → Prop} {found : List Lint} (h : Lists P found)
    (hiff : ∀ lint, P lint ↔ Q lint) : Lists Q found :=
  ⟨h.sublist, fun lint => (h.mem_iff lint).trans (hiff lint)⟩

theorem Lists.count_eq {P : Lint → Prop} {found : List Lint} (h : Lists P found) (lint : Lint)
    [Decidable (P lint)] : found.count lint = if P lint then 1 else 0 := by
  rw [(h.sublist.nodup (by decide)).count]
  exact if_congr (h.mem_iff lint) rfl rfl

theorem mem_when_iff {violated : Bool} {lint other : Lint} :
    other ∈ when violated lint ↔ violated = true ∧ other = lint := by
  cases violated with
  | true => rw [when, if_pos rfl, List.mem_singleton]; simp
  | false => rw [when, if_neg Bool.false_ne_true]; simp

theorem when_sublist (violated : Bool) (lint : Lint) : (when violated lint).Sublist [lint] := by
  cases violated with
  | true => exact List.Sublist.refl _
  | false => exact List.nil_sublist _

/-- If a property holds as often as a weaker one, the weaker one never holds alone. -/
theorem of_countP_eq {α : Type} {p q : α → Bool} {l : List α} (h : ∀ x, p x = true → q x = true)
    (hcount : l.countP p = l.countP q) : ∀ x ∈ l, q x = true → p x = true := by
  intro x hx hq
  rw [List.countP_eq_length_filter, List.countP_eq_length_filter] at hcount
  have hmem : x ∈ l.filter q := List.mem_filter.2 ⟨hx, hq⟩
  rw [← (l.monotone_filter_right h).eq_of_length hcount, List.mem_filter] at hmem
  exact hmem.2

/-- Rules that depend on another are not looked at if that one is broken. -/
theorem dependent_sublist {broken : Prop} [Decidable broken] {lint : Lint} {found rules : List Lint}
    (h : found.Sublist rules) : (if broken then [lint] else found).Sublist (lint :: rules) := by
  split
  · exact List.sublist_append_left [lint] rules
  · exact .cons lint h

end Lint

/-- The rules that a description breaks: its own, and then those of each example. None of them is
missing, and none is there without being broken. -/
structure Description.Verdict (upper : Nat → Prop) (name : Bytes) (d : Description)
    (found : List Lint) : Prop where
  nil_iff : found = [] ↔ d.InOrder upper name
  listed : ∃ own each, found = own ++ each.flatten ∧ Lint.Lists (d.Violates upper name) own ∧
    List.Forall₂ (fun e broken => Lint.Lists (e.Violates upper name) broken) d.examples each

/-! ## What the checks find -/

namespace Example

variable {upper : Nat → Prop} {name : Bytes} {e : Example}

theorem lints_sublist (name : Bytes) (e : Example) : (e.lints name).Sublist Lint.all := by
  have hrules : (e.lints name).Sublist
      ([.exampleScenarioHasExcessWhitespace] ++
        (.exampleScenarioIsEmpty ::
          ([.exampleScenarioBeginsWithUppercase] ++ [.exampleScenarioEndsWithPeriod])) ++
        [.exampleCommandHasExcessWhitespace] ++
        (.exampleCommandIsEmpty :: [.exampleCommandBeginsWithCommandName])) :=
    (((Lint.when_sublist _ _).append
        (Lint.dependent_sublist ((Lint.when_sublist _ _).append (Lint.when_sublist _ _)))).append
      (Lint.when_sublist _ _)).append (Lint.dependent_sublist (Lint.when_sublist _ _))
  exact hrules.trans (List.sublist_append_right (Lint.all.take 6) _)

theorem mem_lints_iff {lint : Lint} :
    lint ∈ e.lints name ↔ e.Violates Text.IsRecognised name lint := by
  by_cases hscenario : e.scenario = [] <;> by_cases hcommand : e.command = [] <;> cases lint <;>
    simp [lints, Violates, Lint.mem_when_iff, hscenario, hcommand, Text.beginsWithUppercase_iff,
      Text.endsWith_iff, Text.startsWith_iff, Text.hasExcessWhiteSpace]

theorem lists_lints (name : Bytes) (e : Example) :
    Lint.Lists (e.Violates Text.IsRecognised name) (e.lints name) :=
  ⟨lints_sublist name e, fun _ => mem_lints_iff⟩

theorem inOrder_iff : e.InOrder upper name ↔ ∀ lint, ¬e.Violates upper name lint := by
  constructor
  · intro h lint
    cases lint <;> simp [Violates, h.scenario_ne_nil, h.scenario_trimmed, h.scenario_lowercase,
      h.scenario_open, h.command_ne_nil, h.command_trimmed, h.command_nameless]
  · intro h
    have hscenario : e.scenario ≠ [] := h .exampleScenarioIsEmpty
    have htrimmed : Text.trim e.scenario = e.scenario :=
      not_not.1 (h .exampleScenarioHasExcessWhitespace)
    have hcommand : e.command ≠ [] := h .exampleCommandIsEmpty
    constructor
    case scenario_ne_nil => exact hscenario
    case scenario_trimmed => exact htrimmed
    case scenario_lowercase =>
      rw [← htrimmed]
      exact fun hcase => h .exampleScenarioBeginsWithUppercase ⟨hscenario, hcase⟩
    case scenario_open =>
      rw [← htrimmed]
      exact fun hperiod => h .exampleScenarioEndsWithPeriod ⟨hscenario, hperiod⟩
    case command_ne_nil => exact hcommand
    case command_trimmed => exact not_not.1 (h .exampleCommandHasExcessWhitespace)
    case command_nameless =>
      exact fun hname => h .exampleCommandBeginsWithCommandName ⟨hcommand, hname⟩

theorem violates_isRecognised_iff (h : ¬Text.BeginsWith Text.IsOverlooked (Text.trim e.scenario))
    (lint : Lint) :
    e.Violates Text.IsRecognised name lint ↔ e.Violates Text.IsCapital name lint := by
  cases lint
  case exampleScenarioBeginsWithUppercase =>
    exact and_congr_right fun _ => Text.beginsWith_isRecognised_iff h
  all_goals exact Iff.rfl

end Example

namespace Description

variable {upper : Nat → Prop} {name : Bytes} {d : Description}

theorem ownLints_sublist (name : Bytes) (d : Description) :
    (d.purposeLints ++ d.usageLints name).Sublist Lint.all := by
  have hpurpose : d.purposeLints.Sublist
      ([.purposeHasExcessWhitespace] ++
        (.purposeIsEmpty ::
          ([.purposeDoesNotBeginWithUppercase] ++ [.purposeDoesNotEndWithPeriod]))) :=
    (Lint.when_sublist _ _).append
      (Lint.dependent_sublist ((Lint.when_sublist _ _).append (Lint.when_sublist _ _)))
  have husage : (d.usageLints name).Sublist
      ([.usageHasExcessWhitespace] ++ [.usageBeginsWithCommandName]) := by
    refine (Lint.when_sublist _ _).append ?_
    split
    · exact List.nil_sublist _
    · exact Lint.when_sublist _ _
  exact (hpurpose.append husage).trans (List.sublist_append_left _ (Lint.all.drop 6))

theorem mem_ownLints_iff {lint : Lint} :
    lint ∈ d.purposeLints ++ d.usageLints name ↔ d.Violates Text.IsRecognised name lint := by
  by_cases hpurpose : d.purpose = [] <;> by_cases husage : d.usage = [] <;> cases lint <;>
    simp [purposeLints, usageLints, Violates, Lint.mem_when_iff, hpurpose, husage,
      ← Text.beginsWithUppercase_iff, ← Text.endsWith_iff, Text.startsWith_iff,
      Text.hasExcessWhiteSpace]

theorem lists_ownLints (name : Bytes) (d : Description) :
    Lint.Lists (d.Violates Text.IsRecognised name) (d.purposeLints ++ d.usageLints name) :=
  ⟨ownLints_sublist name d, fun _ => mem_ownLints_iff⟩

theorem inOrder_iff :
    d.InOrder upper name ↔
      (∀ lint, ¬d.Violates upper name lint) ∧
        ∀ e ∈ d.examples, ∀ lint, ¬e.Violates upper name lint := by
  constructor
  · intro h
    refine ⟨fun lint => ?_, fun e he => Example.inOrder_iff.1 (h.examples e he)⟩
    cases lint <;> simp [Violates, h.purpose_ne_nil, h.purpose_trimmed, h.purpose_uppercase,
      h.purpose_closed, h.usage_trimmed]
    exact h.usage_nameless
  · rintro ⟨h, hexamples⟩
    have hpurpose : d.purpose ≠ [] := h .purposeIsEmpty
    have htrimmed : Text.trim d.purpose = d.purpose := not_not.1 (h .purposeHasExcessWhitespace)
    constructor
    case purpose_ne_nil => exact hpurpose
    case purpose_trimmed => exact htrimmed
    case purpose_uppercase =>
      rw [← htrimmed]
      by_contra hcase
      exact h .purposeDoesNotBeginWithUppercase ⟨hpurpose, hcase⟩
    case purpose_closed =>
      rw [← htrimmed]
      by_contra hperiod
      exact h .purposeDoesNotEndWithPeriod ⟨hpurpose, hperiod⟩
    case usage_trimmed => exact not_not.1 (h .usageHasExcessWhitespace)
    case usage_nameless => exact fun husage hname => h .usageBeginsWithCommandName ⟨husage, hname⟩
    case examples => exact fun e he => Example.inOrder_iff.2 (hexamples e he)

section Lists

variable {own : List Lint} {each : List (List Lint)}

theorem mem_listed_iff (hown : Lint.Lists (d.Violates upper name) own)
    (heach : List.Forall₂ (fun e broken => Lint.Lists (e.Violates upper name) broken)
      d.examples each) {lint : Lint} :
    lint ∈ own ++ each.flatten ↔
      d.Violates upper name lint ∨ ∃ e ∈ d.examples, e.Violates upper name lint := by
  rw [List.mem_append, hown.mem_iff]
  refine or_congr_right ?_
  clear hown
  generalize d.examples = examples at heach
  induction heach with
  | nil => simp
  | cons hfirst _ ih =>
    rw [List.flatten_cons, List.mem_append, hfirst.mem_iff, ih, List.exists_mem_cons_iff]

theorem verdict_of_lists (hown : Lint.Lists (d.Violates upper name) own)
    (heach : List.Forall₂ (fun e broken => Lint.Lists (e.Violates upper name) broken)
      d.examples each) :
    d.Verdict upper name (own ++ each.flatten) := by
  refine ⟨?_, own, each, rfl, hown, heach⟩
  rw [List.eq_nil_iff_forall_not_mem, inOrder_iff]
  simp only [mem_listed_iff hown heach, not_or, not_exists, not_and]
  exact ⟨fun h => ⟨fun lint => (h lint).1, fun e he lint => (h lint).2 e he⟩,
    fun h lint => ⟨h.1 lint, fun e he => h.2 e he lint⟩⟩

end Lists

/-- With the letters that are recognised for uppercase letters the checks are always right. -/
theorem verdict_lints (name : Bytes) (d : Description) :
    d.Verdict Text.IsRecognised name (d.lints name) := by
  rw [lints, List.flatMap_def]
  refine verdict_of_lists (lists_ownLints name d) ?_
  rw [List.forall₂_map_right_iff, List.forall₂_same]
  exact fun e _ => e.lists_lints name

/-! ## Letters that are not recognised -/

theorem violates_isRecognised_iff (h : ¬Text.BeginsWith Text.IsOverlooked (Text.trim d.purpose))
    (lint : Lint) :
    d.Violates Text.IsRecognised name lint ↔ d.Violates Text.IsCapital name lint := by
  cases lint
  case purposeDoesNotBeginWithUppercase =>
    exact and_congr_right fun _ => not_congr (Text.beginsWith_isRecognised_iff h)
  all_goals exact Iff.rfl

theorem Verdict.isCapital {found : List Lint} (h : d.Verdict Text.IsRecognised name found)
    (hspares : d.SparesOverlooked) : d.Verdict Text.IsCapital name found := by
  obtain ⟨-, own, each, rfl, hown, heach⟩ := h
  refine verdict_of_lists (hown.congr (violates_isRecognised_iff hspares.purpose)) ?_
  rw [List.forall₂_iff_get] at heach ⊢
  refine ⟨heach.1, fun i hi hi' => (heach.2 i hi hi').congr ?_⟩
  exact Example.violates_isRecognised_iff (hspares.scenarios _ (List.get_mem _ _))

/-- Only scenarios break the rule that they do not begin with an uppercase letter, each of them at
most once. -/
theorem Verdict.count_eq {found : List Lint} (h : d.Verdict upper name found)
    [DecidablePred fun e : Example => e.Violates upper name .exampleScenarioBeginsWithUppercase] :
    found.count .exampleScenarioBeginsWithUppercase =
      d.examples.countP
        fun e : Example => e.Violates upper name .exampleScenarioBeginsWithUppercase := by
  obtain ⟨-, own, each, rfl, hown, heach⟩ := h
  -- The rules of purpose and usage do not count, so the count goes by the examples.
  have hnone : Lint.exampleScenarioBeginsWithUppercase ∉ own := fun hmem => (hown.mem_iff _).1 hmem
  rw [List.count_append, List.count_eq_zero_of_not_mem hnone, Nat.zero_add]
  clear hown
  generalize d.examples = examples at heach
  induction heach with
  | nil => rfl
  | cons hfirst _ ih =>
    rw [List.flatten_cons, List.count_append, hfirst.count_eq, ih, List.countP_cons, Nat.add_comm]
    simp only [decide_eq_true_eq]

/-- With all uppercase letters the checks are right just if no text opens with a letter that is not
recognised: such a purpose is found to break a rule that it keeps, and such a scenario to keep a rule
that it breaks. -/
theorem verdict_isCapital_iff :
    d.Verdict Text.IsCapital name (d.lints name) ↔ d.SparesOverlooked := by
  refine ⟨fun h => ⟨fun hpurpose => ?_, fun e he hscenario => ?_⟩, (verdict_lints name d).isCapital⟩
  · -- The purpose is found to break a rule that it keeps, and that no example could break.
    have hne : d.purpose ≠ [] := fun hnil => Text.not_beginsWith_nil (hnil ▸ hpurpose)
    have hfound : Lint.purposeDoesNotBeginWithUppercase ∈ d.lints name :=
      List.mem_append_left _ (mem_ownLints_iff.2 ⟨hne, hpurpose.not_isRecognised⟩)
    obtain ⟨-, own, each, heq, hown, heach⟩ := h
    rw [heq, mem_listed_iff hown heach] at hfound
    obtain hown | ⟨e, -, hexample⟩ := hfound
    · exact hown.2 (hpurpose.mono fun _ => Text.isCapital_of_isOverlooked)
    · exact hexample
  · -- The rule about scenarios is found too rarely, as recognised letters are fewer.
    classical
    have hcount := (verdict_lints name d).count_eq.symm.trans h.count_eq
    have hweaker : ∀ e' : Example,
        e'.Violates Text.IsRecognised name .exampleScenarioBeginsWithUppercase →
          e'.Violates Text.IsCapital name .exampleScenarioBeginsWithUppercase :=
      fun _ => And.imp_right (Text.BeginsWith.mono fun _ hcase => hcase.1)
    have hne : e.scenario ≠ [] := fun hnil => Text.not_beginsWith_nil (hnil ▸ hscenario)
    have hbroken : e.Violates Text.IsCapital name .exampleScenarioBeginsWithUppercase :=
      ⟨hne, hscenario.mono fun _ => Text.isCapital_of_isOverlooked⟩
    have hfound := Lint.of_countP_eq (by simpa using hweaker) hcount e he (decide_eq_true hbroken)
    exact hscenario.not_isRecognised (of_decide_eq_true hfound).2

/-! ## Exclusions -/

variable {exclusions : List Lint}

theorem failure?_eq_none_iff :
    d.failure? name exclusions = none ↔ ∀ lint ∈ d.lints name, lint ∈ exclusions := by
  rw [failure?, List.find?_eq_none]
  simp

theorem failure?_eq_some_iff {lint : Lint} :
    d.failure? name exclusions = some lint ↔
      ∃ before after, d.lints name = before ++ lint :: after ∧ lint ∉ exclusions ∧
        ∀ earlier ∈ before, earlier ∈ exclusions := by
  rw [failure?, List.find?_eq_some_iff_append]
  constructor
  · rintro ⟨hlint, before, after, hsplit, hbefore⟩
    exact ⟨before, after, hsplit, by simpa using hlint, by simpa using hbefore⟩
  · rintro ⟨before, after, hsplit, hlint, hbefore⟩
    exact ⟨by simpa using hlint, before, after, hsplit, by simpa using hbefore⟩

/-- The checks find nothing wrong with a description just if it is in order, and otherwise the rules
that it breaks: those about purpose and usage, and then those about the examples one after another,
each time in the order of the rules. This is so for the uppercase letters that are recognised, and
for all of them just if neither purpose nor scenario opens with one that is not. With exclusions the
checks fail just if a broken rule is not excluded, with the first such rule; more exclusions let no
description fail. -/
theorem lints_tell_violations (name : Bytes) (d : Description) :
    d.Verdict Text.IsRecognised name (d.lints name) ∧
      (d.Verdict Text.IsCapital name (d.lints name) ↔ d.SparesOverlooked) ∧
      (∀ exclusions, d.failure? name exclusions ≠ none ↔
        ∃ lint ∈ d.lints name, lint ∉ exclusions) ∧
      (∀ exclusions lint, d.failure? name exclusions = some lint ↔
        ∃ before after, d.lints name = before ++ lint :: after ∧ lint ∉ exclusions ∧
          ∀ earlier ∈ before, earlier ∈ exclusions) ∧
      ∀ exclusions more, exclusions ⊆ more → d.failure? name exclusions = none →
        d.failure? name more = none := by
  refine ⟨verdict_lints name d, verdict_isCapital_iff, fun exclusions => ?_,
    fun _ _ => failure?_eq_some_iff, ?_⟩
  · rw [Ne, failure?_eq_none_iff]
    push Not
    rfl
  · intro exclusions more hmore hpass
    rw [failure?_eq_none_iff] at hpass ⊢
    exact fun lint hlint => hmore (hpass lint hlint)

/-- The purpose «Ґук.», which opens with an uppercase letter of Ukrainian. -/
def ukrainian : Description :=
  ⟨[0xD2, 0x90, 0xD1, 0x83, 0xD0, 0xBA, 0x2E], [], []⟩

theorem ukrainian_in_order_but_flagged :
    ukrainian.InOrder Text.IsCapital (ascii "go") ∧
      ukrainian.lints (ascii "go") = [.purposeDoesNotBeginWithUppercase] := by
  refine ⟨?_, by decide⟩
  constructor
  case purpose_uppercase => exact (Text.beginsWith_cons_iff (by decide)).2 (by decide)
  case usage_nameless => exact fun h => absurd rfl h
  case examples => exact fun e he => absurd he List.not_mem_nil
  all_goals decide

/-- A purpose of white space is not empty, but without its white space it has no characters. -/
example : purposeLints ⟨ascii " ", [], []⟩ =
    [.purposeHasExcessWhitespace, .purposeDoesNotBeginWithUppercase,
      .purposeDoesNotEndWithPeriod] := by
  decide

end Description

end Repl
