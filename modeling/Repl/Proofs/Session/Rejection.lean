import Repl.Proofs.Session.Alignment
import Repl.Proofs.Session.Positions
import Repl.Proofs.Session.Script
import Repl.Session.Stock

/-!
A line that is refused leaves no trace. A session on a script goes as the one on the script without
the line does, but for the round in which the line was refused: its prompt, the line and the
complaint.
-/

namespace Repl

open Exchange Terminal

variable {κ γ α : Type}

/-! ## What becomes of a line -/

namespace Transcript

/-- Some print failed. -/
def PrintFailed (t : Transcript) : Prop :=
  ∃ i ∈ t.invocations, i.isRead = false ∧ i.succeeded = false

/-- The read after `n` others gave the line, and what came next did not refuse it. -/
def Takes (n : Nat) (line : Bytes) (t : Transcript) : Prop :=
  ∃ before after, t.calls = before ++ ⟨.line, .lineRead line⟩ :: after ∧ Call.reads before = n ∧
    ∀ call, after.head? = some call → call.purpose ≠ .complaint

/-- The read after `n` others gave the line, and it was answered with a complaint. -/
def Refuses (n : Nat) (line : Bytes) (t : Transcript) : Prop :=
  ∃ before answer after,
    t.calls = before ++ ⟨.line, .lineRead line⟩ :: ⟨.complaint, answer⟩ :: after ∧
      Call.reads before = n

theorem printFailed_map {event : Call → Event} (hevent : Event.Uses event) {calls : List Call}
    {call : Call} (hcall : call ∈ calls) (hprint : call.invocation.isRead = false)
    (hfailed : call.invocation.succeeded = false) : PrintFailed (calls.map event) := by
  refine ⟨call.invocation, ?_, hprint, hfailed⟩
  rw [invocations_eq_map_calls, calls_map hevent]
  exact List.mem_map_of_mem hcall

theorem PrintFailed.append_left {t : Transcript} (h : t.PrintFailed) (u : Transcript) :
    PrintFailed (t ++ u) := by
  have ⟨i, hi, hfailed⟩ := h
  refine ⟨i, ?_, hfailed⟩
  rw [invocations_append]
  exact List.mem_append_left _ hi

theorem PrintFailed.append_right {u : Transcript} (h : u.PrintFailed) (t : Transcript) :
    PrintFailed (t ++ u) := by
  have ⟨i, hi, hfailed⟩ := h
  refine ⟨i, ?_, hfailed⟩
  rw [invocations_append]
  exact List.mem_append_right _ hi

theorem Takes.append {n : Nat} {line : Bytes} {t u : Transcript} (h : Takes n line t)
    (hfresh : Fresh u) : Takes n line (t ++ u) := by
  have ⟨before, after, hcalls, hreads, hafter⟩ := h
  refine ⟨before, after ++ u.calls, ?_, hreads, ?_⟩
  · rw [calls_append, hcalls, List.append_assoc, List.cons_append]
  · cases after with
    | nil => exact hfresh
    | cons call rest => exact hafter

theorem Takes.after {n : Nat} {line : Bytes} {u : Transcript} (h : Takes n line u)
    (t : Transcript) : Takes (reads t + n) line (t ++ u) := by
  have ⟨before, after, hcalls, hreads, hafter⟩ := h
  refine ⟨t.calls ++ before, after, ?_, ?_, hafter⟩
  · rw [calls_append, hcalls, List.append_assoc]
  · rw [Call.reads_append, hreads]
    rfl

theorem Refuses.lt_reads {n : Nat} {line : Bytes} {t : Transcript} (h : Refuses n line t) :
    n < reads t := by
  have ⟨before, answer, after, hcalls, hreads⟩ := h
  unfold reads
  rw [hcalls, Call.reads_append, Call.reads_cons_of_isRead rfl]
  omega

theorem Takes.not_refuses {n : Nat} {line : Bytes} {t : Transcript} (h : Takes n line t) :
    ¬Refuses n line t := by
  intro hrefuses
  have ⟨before, after, hcalls, hreads, hafter⟩ := h
  have ⟨before', answer, after', hcalls', hreads'⟩ := hrefuses
  have ⟨_, heq⟩ := Call.eq_of_reads_eq rfl rfl (hcalls.symm.trans hcalls')
    (hreads.trans hreads'.symm)
  obtain ⟨-, rfl⟩ := List.cons.inj heq
  exact hafter _ rfl rfl

end Transcript

/-! ## Sessions with and without a line -/

namespace Rejection

/-- The events of a round in which the line is refused. -/
def IsRefusal (line : Bytes) (block : Transcript) : Prop :=
  ∃ (event : Call → Event) (prompt reason : Bytes), Event.Uses event ∧
    block = [⟨.prompt, .printed prompt⟩, ⟨.line, .lineRead line⟩,
      ⟨.complaint, .printed (complaint reason)⟩].map event

/-- No rule is about the next two prints in particular. -/
def Spared (rules : List PrintRule) (prints : Nat) : Prop :=
  ∀ rule ∈ rules, rule.pattern ≠ .at prints ∧ rule.pattern ≠ .at (prints + 1)

/-- The benches of a session on a script and of one on the script without the line. So many entries
are before the line; once it is refused, the first terminal has two prints more behind it. -/
inductive Hosts (line : Bytes) (later : List ScriptEntry) : Option Nat → Bench → Bench → Prop where
  | ahead (earlier : List ScriptEntry) (rules : List PrintRule) (prints : Nat)
    (logger : Option Log.Logger) :
    Hosts line later (some earlier.length)
      ⟨⟨.script (earlier ++ .line line :: later), rules, prints⟩, logger⟩
      ⟨⟨.script (earlier ++ later), rules, prints⟩, logger⟩
  | behind (source : Source) (rules : List PrintRule) (prints : Nat) (logger : Option Log.Logger)
    (hspared : Spared rules prints) :
    Hosts line later none ⟨⟨source, rules, prints + 2⟩, logger⟩ ⟨⟨source, rules, prints⟩, logger⟩

/-- The events are the same, but for the round in which the line is refused. -/
inductive Events (line : Bytes) : Option Nat → Transcript → Transcript → Option Nat → Prop where
  | ahead {n m : Nat} {t : Transcript} (hreads : t.reads + m = n) :
    Events line (some n) t t (some m)
  | here {n : Nat} {t block u : Transcript} (hblock : IsRefusal line block) (hreads : t.reads = n) :
    Events line (some n) (t ++ block ++ u) (t ++ u) none
  | behind (t : Transcript) : Events line none t t none

end Rejection

/-- A session on a script, and one on the script without the line. They part if a print fails, or
if the line is read and not refused. -/
def rejection (line : Bytes) (later : List ScriptEntry) : Alignment Bench (Option Nat) where
  Hosts := Rejection.Hosts line later
  Events := Rejection.Events line
  Parted k t := t.PrintFailed ∨ ∃ n, k = some n ∧ t.Takes n line

namespace Rejection

variable {line : Bytes} {later : List ScriptEntry} {k k' k'' : Option Nat} {b b' : Bench}
  {t u t' u' : Transcript} {event : Call → Event}

theorem IsRefusal.nested {block : Transcript} (h : IsRefusal line block) :
    IsRefusal line (block.map .nested) := by
  obtain ⟨event, prompt, reason, hevent, rfl⟩ := h
  refine ⟨.nested ∘ event, prompt, reason, hevent, ?_⟩
  rw [List.map_map]

/-- Events without reads, which both sessions make, keep the stage. -/
theorem Events.same (h : t.reads = 0) : Events line k t t k := by
  cases k with
  | none => exact .behind t
  | some n => exact .ahead (by omega)

theorem Events.append (h : Events line k t u k') (h' : Events line k' t' u' k'') :
    Events line k (t ++ t') (u ++ u') k'' := by
  cases h with
  | @ahead n m t hreads =>
    cases h' with
    | ahead hreads' =>
      apply Events.ahead
      rw [Transcript.reads_append]
      omega
    | @here m t' block v hblock hreads' =>
      rw [← List.append_assoc, ← List.append_assoc, ← List.append_assoc]
      apply Events.here hblock
      rw [Transcript.reads_append]
      omega
  | @here n t block v hblock hreads =>
    cases h' with
    | behind t' =>
      rw [List.append_assoc (t ++ block) v t', List.append_assoc t v t']
      exact Events.here hblock hreads
  | behind t =>
    cases h' with
    | behind t' => exact .behind _

theorem Events.nested (h : Events line k t u k') :
    Events line k (t.map .nested) (u.map .nested) k' := by
  cases h with
  | ahead hreads =>
    apply Events.ahead
    rwa [Transcript.reads_nested]
  | here hblock hreads =>
    rw [List.map_append, List.map_append, List.map_append]
    apply Events.here (IsRefusal.nested hblock)
    rwa [Transcript.reads_nested]
  | behind t => exact .behind _

theorem parted_append (h : (rejection line later).Parted k t) (hfresh : Transcript.Fresh t') :
    (rejection line later).Parted k (t ++ t') := by
  cases h with
  | inl hfailed => exact .inl (hfailed.append_left t')
  | inr htakes =>
    have ⟨n, hk, htakes⟩ := htakes
    exact .inr ⟨n, hk, htakes.append hfresh⟩

theorem append_parted (h : Events line k t u k') (h' : (rejection line later).Parted k' t') :
    (rejection line later).Parted k (t ++ t') := by
  cases h' with
  | inl hfailed => exact .inl (hfailed.append_right t)
  | inr htakes =>
    obtain ⟨m, rfl, htakes⟩ := htakes
    cases h with
    | @ahead n m t hreads => exact .inr ⟨n, rfl, hreads ▸ htakes.after t⟩

theorem parted_nested (h : (rejection line later).Parted k t) :
    (rejection line later).Parted k (t.map .nested) := by
  cases h with
  | inl hfailed =>
    have ⟨i, hi, h⟩ := hfailed
    exact .inl ⟨i, (Transcript.invocations_map_nested t).symm ▸ hi, h⟩
  | inr htakes =>
    have ⟨n, hk, before, after, hcalls, h⟩ := htakes
    exact .inr ⟨n, hk, before, after, (Transcript.calls_map_nested t).trans hcalls, h⟩

theorem composes : (rejection line later).Composes where
  nil _ := Events.same rfl
  append := Events.append
  nested := Events.nested
  applied _ _ _ := Events.same rfl
  parted_append := parted_append
  append_parted := append_parted
  parted_nested := parted_nested

/-! ### Uses of the terminals -/

theorem applies_of_at {rule : PrintRule} {number : Nat} (h : rule.pattern = .at number)
    (text : Bytes) : rule.applies text number = true := by
  rw [PrintRule.applies, h]
  exact beq_self_eq_true number

/-- Two prints that no rule was about are spared. -/
theorem spared_of_find?_eq_none {rules : List PrintRule} {prints : Nat} {text text' : Bytes}
    (h : rules.find? (·.applies text prints) = none)
    (h' : rules.find? (·.applies text' (prints + 1)) = none) : Spared rules prints := by
  rw [List.find?_eq_none] at *
  intro rule hrule
  exact ⟨fun hat => h rule hrule (applies_of_at hat text),
    fun hat => h' rule hrule (applies_of_at hat text')⟩

/-- If no rule is about a print on the first terminal, none is about the same print on the other, two
prints earlier. -/
theorem Spared.find?_eq_none {rules : List PrintRule} {prints : Nat} (hspared : Spared rules prints)
    {text : Bytes} (h : rules.find? (·.applies text (prints + 2)) = none) :
    rules.find? (·.applies text prints) = none ∧ Spared rules (prints + 1) := by
  rw [List.find?_eq_none] at *
  constructor
  · intro rule hrule
    have hnot := h rule hrule
    have hother := (hspared rule hrule).1
    unfold PrintRule.applies at *
    cases hpattern : rule.pattern with
    | text other =>
      rw [hpattern] at hnot
      exact hnot
    | «at» number =>
      intro happlies
      rw [hpattern, eq_of_beq happlies] at hother
      exact hother rfl
  · intro rule hrule
    exact ⟨(hspared rule hrule).2, fun hat => h rule hrule (applies_of_at hat text)⟩

theorem prints : (rejection line later).Prints := by
  intro k b b' event purpose text hevent hb
  cases hb with
  | ahead earlier rules prints logger =>
    -- The rules see the same text and number in both sessions, so a print may fail in both.
    have hsilent (i : Invocation) (h : i.isRead = false) :
        Transcript.reads ([⟨purpose, i⟩].map event) = 0 := by
      rw [Transcript.reads_map hevent]
      exact List.countP_eq_zero.2 (by simp [h])
    cases h : rules.find? (·.applies text prints) with
    | none =>
      rw [Bench.printFor_of_none purpose _ logger h, Bench.printFor_of_none purpose _ logger h]
      exact .inl ⟨rfl, Events.same (hsilent _ rfl), .ahead earlier rules (prints + 1) logger⟩
    | some rule =>
      rw [Bench.printFor_of_some purpose _ logger h, Bench.printFor_of_some purpose _ logger h]
      exact .inl ⟨rfl, Events.same (hsilent _ rfl), .ahead earlier rules (prints + 1) logger⟩
  | behind source rules prints logger hspared =>
    -- The other terminal counts two prints less, and only a rule for a number could tell.
    cases h : rules.find? (·.applies text (prints + 2)) with
    | none =>
      have ⟨h', hspared'⟩ := hspared.find?_eq_none h
      rw [Bench.printFor_of_none purpose _ logger h, Bench.printFor_of_none purpose _ logger h']
      exact .inl ⟨rfl, .behind _, .behind source rules (prints + 1) logger hspared'⟩
    | some rule =>
      rw [Bench.printFor_of_some purpose _ logger h]
      exact .inr ⟨⟨_, rfl⟩, .inl (Transcript.printFailed_map hevent (.head _) rfl rfl)⟩

theorem line_alike (hevent : Event.Uses event) (hk : k ≠ some 0) (hb : Hosts line later k b b') :
    ∃ k', (rejection line later).Alike event k (nextLine b) (nextLine b') k' := by
  cases hb with
  | ahead earlier rules prints logger =>
    cases earlier with
    | nil => exact absurd rfl hk
    | cons entry rest =>
      have hone (i : Invocation) (h : i.isRead = true) :
          Transcript.reads ([⟨.line, i⟩].map event) = 1 := by
        rw [Transcript.reads_map hevent]
        exact Call.reads_cons_of_isRead h []
      cases entry with
      | line text =>
        refine ⟨some rest.length, rfl, .ahead ?_, .ahead rest rules prints logger⟩
        have hread := hone (.lineRead text) rfl
        show Transcript.reads ([⟨.line, .lineRead text⟩].map event) + rest.length = rest.length + 1
        omega
      | failure message =>
        refine ⟨some rest.length, rfl, .ahead ?_, .ahead rest rules prints logger⟩
        have hread := hone (.readFailed message) rfl
        show Transcript.reads ([⟨.line, .readFailed message⟩].map event) + rest.length =
          rest.length + 1
        omega
  | behind source rules prints logger hspared =>
    have ⟨outcome, i, source', hread⟩ := Bench.exists_nextLine source
    rw [hread, hread]
    exact ⟨none, rfl, .behind _, .behind source' rules prints logger hspared⟩

/-- Where the line comes next, the first session reads it. -/
theorem Hosts.at_line (hb : Hosts line later (some 0) b b') :
    ∃ rules prints logger, b = ⟨⟨.script (.line line :: later), rules, prints⟩, logger⟩ ∧
      b' = ⟨⟨.script later, rules, prints⟩, logger⟩ := by
  generalize hk : some 0 = k at hb
  cases hb with
  | behind => cases hk
  | ahead earlier rules prints logger =>
    cases earlier with
    | nil => exact ⟨rules, prints, logger, rfl, rfl⟩
    | cons entry rest => cases hk

theorem takes_map (hevent : Event.Uses event) (calls : List Call) (h : Call.reads calls = 0) :
    Transcript.Takes 0 line ((calls ++ [Call.mk .line (.lineRead line)]).map event) := by
  refine ⟨calls, [], Transcript.calls_map hevent _, h, ?_⟩
  intro call hcall
  cases hcall

theorem line_parted (hevent : Event.Uses event) (hb : Hosts line later (some 0) b b') :
    (rejection line later).Parted (some 0) ((nextLine b).events.map event) := by
  obtain ⟨rules, prints, logger, rfl, rfl⟩ := hb.at_line
  exact .inr ⟨0, rfl, takes_map hevent [] rfl⟩

/-- In a round that asks for the line, it is refused, or the sessions part. -/
theorem round_cases (hevent : Event.Uses event) (prompt : Bytes) (parse : Bytes → Except Bytes α)
    (hb : Hosts line later (some 0) b b') :
    (∃ k', (rejection line later).Skips event (some 0) (askOnce prompt parse b) b' k') ∨
      (rejection line later).Parted (some 0) ((askOnce prompt parse b).events.map event) := by
  obtain ⟨rules, prints, logger, rfl, rfl⟩ := hb.at_line
  cases hprompt : rules.find? (·.applies prompt prints) with
  | some rule =>
    have hfailed := Bench.printFor_of_some .prompt (.script (.line line :: later)) logger hprompt
    rw [askOnce, bind_apply_of_error (by rw [hfailed]), hfailed]
    exact .inr (.inl (Transcript.printFailed_map hevent (.head _) rfl rfl))
  | none =>
    have hprinted := Bench.printFor_of_none .prompt (.script (.line line :: later)) logger hprompt
    cases hparse : parse (Text.trim line) with
    | ok value =>
      rw [askOnce_of_accepted hprinted rfl hparse]
      exact .inr (.inr ⟨0, rfl, takes_map hevent [_] rfl⟩)
    | error reason =>
      cases hcomplaint : rules.find? (·.applies (complaint reason) (prints + 1)) with
      | some rule =>
        have hfailed := Bench.printFor_of_some .complaint (.script later) logger hcomplaint
        rw [askOnce_of_refused hprinted rfl hparse hfailed]
        exact .inr (.inl (Transcript.printFailed_map hevent (.tail _ (.tail _ (.head _))) rfl rfl))
      | none =>
        have hcomplained := Bench.printFor_of_none .complaint (.script later) logger hcomplaint
        have hblock : IsRefusal line _ := ⟨event, prompt, reason, hevent, rfl⟩
        have hspared := spared_of_find?_eq_none hprompt hcomplaint
        rw [askOnce_of_refused hprinted rfl hparse hcomplained]
        refine .inl ⟨none, rfl, ?_, .behind (.script later) rules prints logger hspared⟩
        have hevents := Events.here (t := []) (u := []) hblock rfl
        rwa [List.append_nil] at hevents

theorem lawful : (rejection line later).Lawful where
  toComposes := composes
  print := prints
  line := by
    intro k b b' event hevent hb
    by_cases hk : k = some 0
    · subst hk
      exact .inr (line_parted hevent hb)
    · exact .inl (line_alike hevent hk hb)
  round := by
    intro α k b b' event prompt parse hevent hb
    by_cases hk : k = some 0
    · subst hk
      exact .inr (round_cases hevent prompt parse hb)
    · have hround := composes.goes_askOnce prints hevent
        (fun hb => .inl (line_alike hevent hk hb)) prompt parse hb
      cases hround with
      | inl halike => exact .inl halike
      | inr hbroken => exact .inr (.inr hbroken.events)
  log := by
    intro k b b' entry hb
    refine ⟨?_, hb⟩
    have hadmits : b'.admits entry = b.admits entry := by cases hb <;> rfl
    show Events line k (if b.admits entry then _ else _) (if b'.admits entry then _ else _) k
    rw [hadmits]
    apply Events.same
    split <;> rfl

/-! ### The round that is left out -/

theorem IsRefusal.entries_eq_nil {block : Transcript} (h : IsRefusal line block) :
    block.filterMap Event.entry? = [] := by
  have ⟨event, prompt, reason, hevent, hblock⟩ := h
  rw [List.filterMap_eq_nil_iff, hblock]
  intro e he
  obtain ⟨call, -, rfl⟩ := List.mem_map.1 he
  exact Event.entry?_eq_none (hevent call)

theorem IsRefusal.exists_invocations {block : Transcript} (h : IsRefusal line block) :
    ∃ prompt error, block.invocations = [.printed prompt, .lineRead line,
      .printed (ascii "Invalid input: " ++ error ++ ascii ".\n")] := by
  have ⟨event, prompt, reason, hevent, hblock⟩ := h
  refine ⟨prompt, reason, ?_⟩
  rw [Transcript.invocations_eq_map_calls, hblock, Transcript.calls_map hevent]
  show [_, _, Invocation.printed (complaint reason)] = _
  rw [complaint_eq]

/-- If the line was refused, its round is all that the other session leaves out. -/
theorem Events.of_refuses {n : Nat} (h : Events line (some n) t u k') (hrefuses : t.Refuses n line) :
    k' = none ∧ ∃ front block back, IsRefusal line block ∧ Transcript.reads front = n ∧
      t = front ++ block ++ back ∧ u = front ++ back := by
  cases h with
  | @ahead n m t hreads =>
    have hlt := hrefuses.lt_reads
    omega
  | here hblock hreads => exact ⟨rfl, _, _, _, hblock, hreads, rfl, rfl⟩

theorem Hosts.source_eq (h : Hosts line later none b b') :
    b'.terminal.source = b.terminal.source := by
  cases h with
  | behind => rfl

end Rejection

/-- A line that is refused, by the session, by a command or in a session inside it, is inert if no
print fails: without it the session ends the same, leaves the same and logs the same, and of all that
it does with the terminal only the prompt, the line and the complaint are missing. -/
theorem Bench.refused_line_inert (app : Application κ γ) (earlier later : List ScriptEntry)
    (line : Bytes) (rules : List PrintRule) (prints : Nat) (logger : Option Log.Logger)
    (context : γ) (flag : RunFlag) :
    let start (script : List ScriptEntry) : Session.State Bench γ :=
      ⟨⟨⟨.script script, rules, prints⟩, logger⟩, context, flag⟩
    let reply := Session.run app (start (earlier ++ .line line :: later))
    let other := Session.run app (start (earlier ++ later))
    Transcript.Refuses earlier.length line reply.events → ¬Transcript.PrintFailed reply.events →
      other.outcome = reply.outcome ∧ other.state.context = reply.state.context ∧
        other.state.flag = reply.state.flag ∧
        other.state.host.terminal.source = reply.state.host.terminal.source ∧
        other.events.filterMap Event.entry? = reply.events.filterMap Event.entry? ∧
        ∃ (front back : List Invocation) (prompt error : Bytes),
          Invocation.reads front = earlier.length ∧
          Transcript.invocations reply.events =
            front ++ [.printed prompt, .lineRead line,
              .printed (ascii "Invalid input: " ++ error ++ ascii ".\n")] ++ back ∧
          Transcript.invocations other.events = front ++ back := by
  intro start reply other hrefuses hprinted
  have hs : (rejection line later).States (some earlier.length)
      (start (earlier ++ .line line :: later)) (start (earlier ++ later)) :=
    ⟨.ahead earlier rules prints logger, rfl, rfl⟩
  cases Session.run_follows Bench.supply Rejection.lawful app ⟨_, rfl⟩ ⟨_, rfl⟩ hs with
  | inr hparted =>
    cases hparted with
    | inl hfailed => exact absurd hfailed hprinted
    | inr htakes =>
      obtain ⟨n, hn, htakes⟩ := htakes
      cases hn
      exact absurd hrefuses htakes.not_refuses
  | inl h =>
    obtain ⟨_, k', rfl, houtcome, hevents, hstates⟩ := h
    obtain ⟨rfl, front, block, back, hblock, hreads, hreply, hother⟩ :=
      Rejection.Events.of_refuses hevents hrefuses
    obtain ⟨prompt, error, hinvocations⟩ := hblock.exists_invocations
    refine ⟨houtcome, hstates.context, hstates.flag, hstates.hosts.source_eq, ?_,
      front.invocations, back.invocations, prompt, error, ?_, ?_, ?_⟩
    · rw [show other.events = _ from hother, show reply.events = _ from hreply,
        List.filterMap_append, List.filterMap_append, List.filterMap_append,
        hblock.entries_eq_nil, List.append_nil]
    · rw [Transcript.invocations_eq_map_calls]
      exact hreads
    · rw [show reply.events = _ from hreply, Transcript.invocations_append,
        Transcript.invocations_append, hinvocations]
    · rw [show other.events = _ from hother, Transcript.invocations_append]

namespace Stock

/-- Commands that ask for a truth value, in sessions inside sessions. -/
def asking : List Spec :=
  [.builtin .quit, .named (ascii "nest") none ⟨[], [], []⟩ .nest,
    .named (ascii "ask") none ⟨[], [], []⟩ (.ask (ascii "choice") (ascii "? ") .bool false)]

/-- A session of these commands. -/
def asked (script : List ScriptEntry) : Reply Event (Session.State Bench Bytes) Unit :=
  let r := (register asking).outcome.toOption.getD .empty
  Session.run (application r .standard) ⟨⟨⟨.script script, [], 0⟩, none⟩, [], .stopped⟩

theorem calls_asked :
    Transcript.calls (asked [.line (ascii "nest"), .line (ascii "ask"), .line (ascii "yes"),
      .line (ascii "1"), .line (ascii "q")]).events =
    [⟨.prompt, .printed (ascii "+>> ")⟩, ⟨.line, .lineRead (ascii "nest")⟩,
      ⟨.prompt, .printed (ascii "+>> ")⟩, ⟨.line, .lineRead (ascii "ask")⟩,
      ⟨.prompt, .printed (ascii "? ")⟩, ⟨.line, .lineRead (ascii "yes")⟩,
      ⟨.complaint, .printed (ascii "Invalid input: invalid value 'yes'.\n")⟩,
      ⟨.prompt, .printed (ascii "? ")⟩, ⟨.line, .lineRead (ascii "1")⟩,
      ⟨.prompt, .printed (ascii "+>> ")⟩, ⟨.line, .lineRead (ascii "q")⟩,
      ⟨.output, .printed (ascii "Exiting.\n")⟩] := by
  decide +kernel

/-- In a session inside the session, a command refuses an answer, which is inert. -/
theorem asked_refused_line_inert :
    let reply := asked [.line (ascii "nest"), .line (ascii "ask"), .line (ascii "yes"),
      .line (ascii "1"), .line (ascii "q")]
    let other := asked [.line (ascii "nest"), .line (ascii "ask"), .line (ascii "1"),
      .line (ascii "q")]
    Transcript.Refuses 2 (ascii "yes") reply.events ∧ ¬Transcript.PrintFailed reply.events ∧
      other.outcome = reply.outcome ∧ other.state.context = reply.state.context := by
  intro reply other
  have hrefuses : Transcript.Refuses 2 (ascii "yes") reply.events :=
    ⟨[⟨.prompt, .printed (ascii "+>> ")⟩, ⟨.line, .lineRead (ascii "nest")⟩,
      ⟨.prompt, .printed (ascii "+>> ")⟩, ⟨.line, .lineRead (ascii "ask")⟩,
      ⟨.prompt, .printed (ascii "? ")⟩], _, _, calls_asked, rfl⟩
  have hprinted : ¬Transcript.PrintFailed reply.events := by
    intro hfailed
    have ⟨i, hi, _, hnot⟩ := hfailed
    have hall : (Transcript.invocations reply.events).all (·.succeeded) = true := by
      rw [Transcript.invocations_eq_map_calls, calls_asked]
      rfl
    rw [List.all_eq_true.1 hall i hi] at hnot
    cases hnot
  have hinert := Bench.refused_line_inert (application _ .standard)
    [.line (ascii "nest"), .line (ascii "ask")] [.line (ascii "1"), .line (ascii "q")]
    (ascii "yes") [] 0 none [] .stopped hrefuses hprinted
  exact ⟨hrefuses, hprinted, hinert.1, hinert.2.1⟩

end Stock

end Repl
