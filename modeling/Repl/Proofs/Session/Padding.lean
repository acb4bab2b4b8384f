import Mathlib.Data.List.Forall2
import Repl.Proofs.Session.Alignment
import Repl.Proofs.Session.Script
import Repl.Proofs.Text.Padding

/-!
White space around the lines of a script. Two sessions whose scripts differ in nothing else go alike,
if their commands read lines in questions only: a question sees no more of a line than what is left
without that white space.
-/

namespace Repl

open Exchange Terminal

variable {κ γ α : Type}

/-! ## Scripts and events that differ in padding only -/

inductive ScriptEntry.SameButPadding : ScriptEntry → ScriptEntry → Prop where
  | line {text text' : Bytes} (h : Text.SameButPadding text text') :
    SameButPadding (.line text) (.line text')
  | failure (message : Bytes) : SameButPadding (.failure message) (.failure message)

/-- The uses are the same, or reads of lines that differ in padding only. -/
inductive Invocation.SameButPadding : Invocation → Invocation → Prop where
  | same (i : Invocation) : SameButPadding i i
  | lineRead {line line' : Bytes} (h : Text.SameButPadding line line') :
    SameButPadding (.lineRead line) (.lineRead line')

/-- The events are the same, or uses of the terminal that are the same but for padding. -/
inductive Event.SameButPadding : Event → Event → Prop where
  | same (e : Event) : SameButPadding e e
  | use {e e' : Event} {call call' : Call} (he : e.call? = some call) (he' : e'.call? = some call')
    (h : call.invocation.SameButPadding call'.invocation) : SameButPadding e e'

theorem Event.SameButPadding.nested {e e' : Event} (h : e.SameButPadding e') :
    (Event.nested e).SameButPadding (.nested e') := by
  cases h with
  | same => exact .same _
  | use he he' h => exact .use he he' h

theorem Event.SameButPadding.entry?_eq {e e' : Event} (h : e.SameButPadding e') :
    e'.entry? = e.entry? := by
  cases h with
  | same => rfl
  | use he he' _ => rw [Event.entry?_eq_none he, Event.entry?_eq_none he']

theorem Event.SameButPadding.invocation?_rel {e e' : Event} (h : e.SameButPadding e') :
    Option.Rel Invocation.SameButPadding e.invocation? e'.invocation? := by
  cases h with
  | same =>
    cases e.invocation? with
    | none => exact .none
    | some i => exact .some (.same i)
  | use he he' h =>
    rw [Event.invocation?_eq_map_call?, Event.invocation?_eq_map_call?, he, he']
    exact .some h

namespace Transcript

variable {t t' : Transcript}

/-- The events are the same, but for white space around the lines read. -/
abbrev SameButPadding (t t' : Transcript) : Prop :=
  List.Forall₂ Event.SameButPadding t t'

theorem sameButPadding_refl : ∀ t : Transcript, SameButPadding t t
  | [] => .nil
  | e :: t => .cons (.same e) (sameButPadding_refl t)

theorem SameButPadding.invocations (h : SameButPadding t t') :
    List.Forall₂ Invocation.SameButPadding t.invocations t'.invocations :=
  List.rel_filterMap (fun _ _ he => he.invocation?_rel) h

/-- Padding is no matter of the log, nor of the moments of its entries. -/
theorem SameButPadding.entriesAfter_eq (h : SameButPadding t t') (earlier : Nat) :
    entriesAfter earlier t' = entriesAfter earlier t := by
  have hcount {i i' : Option Invocation} (hi : Option.Rel Invocation.SameButPadding i i') :
      i'.toList.length = i.toList.length := by cases hi <;> rfl
  induction h generalizing earlier with
  | nil => rfl
  | cons he _ ih =>
    rw [entriesAfter, entriesAfter, he.entry?_eq, hcount he.invocation?_rel, ih]

end Transcript

/-! ## Sessions side by side -/

namespace Padding

/-- Benches whose scripts differ in padding only. -/
inductive Hosts : Bench → Bench → Prop where
  | mk {script script' : List ScriptEntry} (h : List.Forall₂ ScriptEntry.SameButPadding script script')
    (rules : List PrintRule) (prints : Nat) (logger : Option Log.Logger) :
    Hosts ⟨⟨.script script, rules, prints⟩, logger⟩ ⟨⟨.script script', rules, prints⟩, logger⟩

end Padding

/-- Two sessions on scripts that differ in padding only. They never part. -/
def padding : Alignment Bench Unit where
  Hosts _ := Padding.Hosts
  Events _ t t' _ := Transcript.SameButPadding t t'
  Parted _ _ := False

namespace Padding

variable {b b' : Bench} {event : Call → Event}

theorem composes : padding.Composes where
  nil _ := .nil
  append h h' := List.rel_append h h'
  nested h := List.rel_map (fun _ _ he => he.nested) h
  applied _ _ _ := Transcript.sameButPadding_refl _
  parted_append h _ := h
  append_parted _ h := h
  parted_nested h := h

theorem prints : padding.Prints := by
  intro _ b b' event purpose text _ hb
  refine .inl ?_
  obtain ⟨hscript, rules, prints, logger⟩ := hb
  -- The rules see the same text and number in both sessions.
  cases h : rules.find? (·.applies text prints) with
  | none =>
    rw [Bench.printFor_of_none purpose _ logger h, Bench.printFor_of_none purpose _ logger h]
    exact ⟨rfl, Transcript.sameButPadding_refl _, hscript, rules, prints + 1, logger⟩
  | some rule =>
    rw [Bench.printFor_of_some purpose _ logger h, Bench.printFor_of_some purpose _ logger h]
    exact ⟨rfl, Transcript.sameButPadding_refl _, hscript, rules, prints + 1, logger⟩

/-- The same text is read on both, once the white space around it is gone. -/
theorem nextTrimmed_alike (hevent : Event.Uses event) (hb : Hosts b b') :
    padding.Alike event () (nextTrimmed b) (nextTrimmed b') () := by
  obtain ⟨hscript, rules, prints, logger⟩ := hb
  cases hscript with
  | nil => exact ⟨rfl, Transcript.sameButPadding_refl _, .nil, rules, prints, logger⟩
  | @cons entry entry' script script' hentry hrest =>
    cases hentry with
    | failure message =>
      exact ⟨rfl, Transcript.sameButPadding_refl _, hrest, rules, prints, logger⟩
    | @line text text' hline =>
      have hread : Event.SameButPadding (event ⟨.line, .lineRead text⟩)
          (event ⟨.line, .lineRead text'⟩) := .use (hevent _) (hevent _) (.lineRead hline)
      exact ⟨congrArg Except.ok hline.trim_eq.symm, .cons hread .nil, hrest, rules, prints, logger⟩

theorem lawful : padding.LawfulAsking where
  toComposes := composes
  print := prints
  round := by
    intro α _ b b' event prompt parse hevent hb
    have hround := composes.goes_askOnce_of_trimmed prints hevent
      (fun hb => .inl ⟨(), nextTrimmed_alike hevent hb⟩) prompt parse hb
    cases hround with
    | inl halike => exact .inl halike
    | inr hbreaks => exact hbreaks.events.elim
  log := by
    intro _ b b' entry hb
    have hadmits : b'.admits entry = b.admits entry := by cases hb; rfl
    refine ⟨?_, hb⟩
    show Transcript.SameButPadding (if b.admits entry then _ else _) (if b'.admits entry then _ else _)
    rw [hadmits]
    exact Transcript.sameButPadding_refl _

theorem Hosts.hasScript (h : Hosts b b') : b.HasScript ∧ b'.HasScript := by
  cases h
  exact ⟨⟨_, rfl⟩, ⟨_, rfl⟩⟩

end Padding

namespace Session

/-- A session on another script ends the same and leaves the same, its events are the same but for
padding, and what is left of the scripts differs in padding only. -/
structure SameButPadding (reply reply' : Reply Event (State Bench γ) Unit) : Prop where
  outcome : reply'.outcome = reply.outcome
  events : Transcript.SameButPadding reply.events reply'.events
  states : padding.States () reply.state reply'.state

/-- A session shows the same as another one: it ends the same, leaves the same context and flag, logs
the same at the same moments, and makes the same use of the terminal, but for white space around the
lines read. -/
structure ShowsSame (reply reply' : Reply Event (State Bench γ) Unit) : Prop where
  outcome : reply'.outcome = reply.outcome
  context : reply'.state.context = reply.state.context
  flag : reply'.state.flag = reply.state.flag
  entries : ∀ earlier, Transcript.entriesAfter earlier reply'.events =
    Transcript.entriesAfter earlier reply.events
  invocations : List.Forall₂ Invocation.SameButPadding (Transcript.invocations reply.events)
    (Transcript.invocations reply'.events)

theorem SameButPadding.showsSame {reply reply' : Reply Event (State Bench γ) Unit}
    (h : SameButPadding reply reply') : ShowsSame reply reply' where
  outcome := h.outcome
  context := h.states.context
  flag := h.states.flag
  entries := h.events.entriesAfter_eq
  invocations := h.events.invocations

variable {app : Application κ γ} {s s' : State Bench γ}

theorem run_padded (hactions : ∀ command, (app.action command).ReadsLinesIf padding.Reads)
    (hs : padding.States () s s') : SameButPadding (run app s) (run app s') := by
  have ⟨hscript, hscript'⟩ := hs.hosts.hasScript
  cases run_follows_of_actions Bench.supply Padding.lawful hactions hscript hscript' hs with
  | inl h =>
    obtain ⟨_, _, rfl, houtcome, hevents, hstates⟩ := h
    exact ⟨houtcome, hevents, hstates⟩
  | inr hparted => exact hparted.elim

theorem runAll_padded (hactions : ∀ command, (app.action command).ReadsLinesIf padding.Reads)
    (count : Nat) (hs : padding.States () s s') :
    List.Forall₂ SameButPadding (runAll app count s) (runAll app count s') := by
  induction count generalizing s s' with
  | zero => exact .nil
  | succ count ih =>
    have hrun := run_padded hactions hs
    exact .cons hrun (ih hrun.states)

end Session

end Repl
