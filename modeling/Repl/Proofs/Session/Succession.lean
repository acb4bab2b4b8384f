import Repl.Proofs.Session.LookAhead
import Repl.Proofs.Session.Script

/-!
Sessions on one script, one after another. What follows in a script is of no account to a session
that does not read it, and what went on before a session only shows in the context that it left.
-/

namespace Repl

open Exchange Terminal

variable {ω κ γ : Type}

/-- Every rule is about a text, whatever the number of its print. -/
def PrintRule.AboutTexts (rules : List PrintRule) : Prop :=
  ∀ rule ∈ rules, ∃ text, rule.pattern = .text text

theorem PrintRule.AboutTexts.find?_eq {rules : List PrintRule} (h : AboutTexts rules) (text : Bytes)
    (number number' : Nat) :
    rules.find? (·.applies text number) = rules.find? (·.applies text number') := by
  induction rules with
  | nil => rfl
  | cons rule rules ih =>
    obtain ⟨other, hpattern⟩ := h rule List.mem_cons_self
    have hrule : rule.applies text number = rule.applies text number' := by
      unfold PrintRule.applies
      rw [hpattern]
    rw [List.find?_cons, List.find?_cons, hrule,
      ih fun rule hrule => h rule (List.mem_cons_of_mem _ hrule)]

/-- How a session went and what it left, apart from its host. -/
structure Session.Course (γ : Type) where
  outcome : Except Bytes Unit
  events : Transcript
  context : γ
  flag : RunFlag

def Session.course {ω : Type} (reply : Reply Event (State ω γ) Unit) : Course γ :=
  ⟨reply.outcome, reply.events, reply.state.context, reply.state.flag⟩

namespace Bench

/-- The benches of a session on a script, of which some entries are left, and of one on the script
and what comes later. The second terminal has `more` prints behind it. -/
inductive Continued (script later : List ScriptEntry) (rules : List PrintRule)
    (logger : Option Log.Logger) (more : Nat) : Nat → Bench → Bench → Prop where
  | intro (earlier rest : List ScriptEntry) (prints : Nat) (hscript : script = earlier ++ rest) :
    Continued script later rules logger more rest.length ⟨⟨.script rest, rules, prints⟩, logger⟩
      ⟨⟨.script (rest ++ later), rules, prints + more⟩, logger⟩

variable {script later : List ScriptEntry} {rules : List PrintRule} {logger : Option Log.Logger}
  {more k : Nat} {b b' : Bench}

theorem continued_print (hrules : more = 0 ∨ PrintRule.AboutTexts rules) (text : Bytes)
    (hb : Continued script later rules logger more k b b') :
    (print text b').1 = (print text b).1 ∧
      Continued script later rules logger more k (print text b).2 (print text b').2 := by
  cases hb with
  | intro earlier rest prints hscript =>
    constructor
    · have hfind : rules.find? (·.applies text (prints + more)) =
          rules.find? (·.applies text prints) := by
        cases hrules with
        | inl hmore => rw [hmore, Nat.add_zero]
        | inr htexts => exact htexts.find?_eq text _ _
      show (Scripted.print text _).1 = (Scripted.print text _).1
      rw [Scripted.print, Scripted.print]
      dsimp only
      rw [hfind]
    · show Continued script later rules logger more rest.length _
        ⟨⟨.script (rest ++ later), rules, prints + more + 1⟩, logger⟩
      rw [Nat.add_right_comm]
      exact .intro earlier rest (prints + 1) hscript

theorem continued_readLine (hb : Continued script later rules logger more (k + 1) b b') :
    (readLine b').1 = (readLine b).1 ∧
      Continued script later rules logger more k (readLine b).2 (readLine b').2 := by
  generalize hk : k + 1 = n at hb
  cases hb with
  | intro earlier rest prints hscript =>
    cases rest with
    | nil => cases hk
    | cons entry rest =>
      obtain rfl : k = rest.length := Nat.succ.inj hk
      have hafter : Continued script later rules logger more rest.length
          ⟨⟨.script rest, rules, prints⟩, logger⟩
          ⟨⟨.script (rest ++ later), rules, prints + more⟩, logger⟩ := by
        apply Continued.intro (earlier ++ [entry])
        rw [hscript, List.append_assoc, List.singleton_append]
      cases entry with
      | line text => exact ⟨rfl, hafter⟩
      | failure message => exact ⟨rfl, hafter⟩

theorem continued_agree (hrules : more = 0 ∨ PrintRule.AboutTexts rules) :
    Host.Agree (Continued script later rules logger more) where
  print := continued_print hrules
  readLine := continued_readLine
  log entry hb := by
    cases hb with
    | intro earlier rest prints hscript => exact ⟨rfl, .intro earlier rest prints hscript⟩

/-- A session on a script is the same on a script that goes on, unless it reads past the end of the
first one. It leaves what it has not read, and what comes later. -/
theorem run_append (app : Application κ γ) (script later : List ScriptEntry)
    {rules : List PrintRule} (prints more : Nat) (hrules : more = 0 ∨ PrintRule.AboutTexts rules)
    (logger : Option Log.Logger) (context : γ) (flag : RunFlag) :
    let reply := Session.run app (⟨⟨⟨.script script, rules, prints⟩, logger⟩, context, flag⟩ :
      Session.State Bench γ)
    let other := Session.run app (⟨⟨⟨.script (script ++ later), rules, prints + more⟩, logger⟩,
      context, flag⟩ : Session.State Bench γ)
    let unread := script.drop (Transcript.reads reply.events)
    Transcript.reads reply.events ≤ script.length →
      Session.course other = Session.course reply ∧
        ∃ prints', reply.state.host = ⟨⟨.script unread, rules, prints'⟩, logger⟩ ∧
          other.state.host = ⟨⟨.script (unread ++ later), rules, prints' + more⟩, logger⟩ := by
  intro reply other unread hreads
  have hs : (sharing (Continued script later rules logger more)).States script.length
      (⟨⟨⟨.script script, rules, prints⟩, logger⟩, context, flag⟩ : Session.State Bench γ)
      ⟨⟨⟨.script (script ++ later), rules, prints + more⟩, logger⟩, context, flag⟩ :=
    ⟨.intro [] script prints rfl, rfl, rfl⟩
  obtain ⟨houtcome, hevents, left, hleft, hstates⟩ :=
    Session.run_of_agree Bench.supply (continued_agree hrules) app ⟨_, rfl⟩ ⟨_, rfl⟩ hs hreads
  have hcourse : Session.course other = Session.course reply := by
    rw [Session.course, houtcome, hevents, hstates.context, hstates.flag]
    rfl
  refine ⟨hcourse, ?_⟩
  have hhosts : Continued script later rules logger more left reply.state.host other.state.host :=
    hstates.hosts
  change Transcript.reads reply.events + left = script.length at hleft
  generalize reply.state.host = b, other.state.host = b' at hhosts
  cases hhosts with
  | intro earlier rest prints' hscript =>
    have hunread : unread = rest := by
      have hread : Transcript.reads reply.events = earlier.length := by
        rw [hscript, List.length_append] at hleft
        omega
      show script.drop (Transcript.reads reply.events) = rest
      rw [hread, hscript, List.drop_left]
    rw [hunread]
    exact ⟨prints', rfl, rfl⟩

end Bench

/-! ## The first prompt -/

namespace Terminal

variable {τ α : Type} [Terminal τ] {prompt : Bytes} {parse : Bytes → Except Bytes α} {t : τ}

theorem askOnce_events_of_ok {result : Option α}
    (h : (askOnce prompt parse t).outcome = .ok result) :
    ∃ rest, (askOnce prompt parse t).events = ⟨.prompt, .printed prompt⟩ :: rest := by
  obtain ⟨_, hprint, -, heq⟩ := ok_of_bind h
  rw [askOnce, heq, Reply.after_events]
  rw [printFor_apply] at hprint ⊢
  dsimp only at hprint ⊢
  rw [hprint]
  exact ⟨_, rfl⟩

/-- A question that is answered was asked. -/
theorem Asks.events_of_ok {t' : τ} {value : α} {calls : List Call}
    (h : Asks prompt parse t ⟨.ok value, calls, t'⟩) :
    ∃ rest, calls = ⟨.prompt, .printed prompt⟩ :: rest := by
  generalize hanswer : (⟨.ok value, calls, t'⟩ : Reply Call τ α) = answer at h
  cases h with
  | failed _ => cases hanswer
  | answered hround =>
    cases hanswer
    have hasked := askOnce_events_of_ok (congrArg Reply.outcome hround)
    rwa [hround] at hasked
  | @again _ _ earlier answer hround _ =>
    obtain ⟨rest, hasked⟩ := askOnce_events_of_ok (congrArg Reply.outcome hround)
    rw [hround] at hasked
    change earlier = _ at hasked
    have hcalls : calls = earlier ++ answer.events := congrArg Reply.events hanswer
    rw [hcalls, hasked]
    exact ⟨_, rfl⟩

end Terminal

namespace Session

variable [Host ω] {app : Application κ γ} {s : State ω γ}

theorem Unfolds.head?_of_round {last next : LastOutcome}
    {reply : Reply Event (State ω γ) LastOutcome} (h : Unfolds app (.round last) s reply)
    (hok : reply.outcome = .ok next) :
    (Transcript.invocations reply.events).head? = some (.printed (app.prompts.after last)) := by
  cases h with
  | unread _ => cases hok
  | applied hasks _ =>
    obtain ⟨rest, rfl⟩ := hasks.events_of_ok
    rfl

/-- A session that ends well starts with the prompt of a session that has applied nothing. -/
theorem Unfolds.head?_of_session {reply : Reply Event (State ω γ) Unit}
    (h : Unfolds app .session s reply) (hok : reply.outcome = .ok ()) :
    (Transcript.invocations reply.events).head? = some (.printed app.prompts.applied) := by
  cases h with
  | @session _ cycle hrounds =>
    rw [bracket_const_eq] at hok ⊢
    dsimp only [Reply.after] at hok ⊢
    rw [Transcript.invocations_append, (isLog_log _ _ _).invocations_eq_nil, List.nil_append]
    cases hrounds with
    | stopped hflag => cases hflag
    | failed _ _ => cases hok
    | again _ hround _ =>
      have hfirst := hround.head?_of_round rfl
      rw [Reply.after_events, List.append_assoc, Transcript.invocations_append, List.head?_append,
        hfirst]
      rfl

end Session

/-! ## One after another -/

namespace Bench

open Session

variable (app : Application κ γ) (rules : List PrintRule) (logger : Option Log.Logger)

/-- A session on a bench of its own. -/
def alone (script : List ScriptEntry) (context : γ) : Reply Event (State Bench γ) Unit :=
  run app (.start ⟨.ofScript script rules, logger⟩ context)

/-- Sessions on benches of their own, each with the context that the one before it left. -/
def separately : List (List ScriptEntry) → γ → List (Reply Event (State Bench γ) Unit)
  | [], _ => []
  | script :: scripts, context =>
    let reply := alone app rules logger script context
    reply :: separately scripts reply.state.context

variable {app rules logger}

theorem exists_alone_of_mem_separately {scripts : List (List ScriptEntry)} {context : γ}
    {reply : Reply Event (State Bench γ) Unit}
    (h : reply ∈ separately app rules logger scripts context) :
    ∃ script ∈ scripts, ∃ context, reply = alone app rules logger script context := by
  induction scripts generalizing context with
  | nil => cases h
  | cons script scripts ih =>
    cases h with
    | head => exact ⟨script, List.mem_cons_self, context, rfl⟩
    | tail _ h =>
      obtain ⟨other, hother, hreply⟩ := ih h
      exact ⟨other, List.mem_cons_of_mem _ hother, hreply⟩

/-- A session that reads its own script to the end goes the same way where the script goes on,
whatever was printed before it and however the session before it ended. -/
theorem run_of_alone (hrules : PrintRule.AboutTexts rules) {script : List ScriptEntry} {context : γ}
    (hreads : Transcript.reads (alone app rules logger script context).events = script.length)
    (later : List ScriptEntry) (prints : Nat) (flag : RunFlag) :
    let reply := run app (⟨⟨⟨.script (script ++ later), rules, prints⟩, logger⟩, context, flag⟩ :
      State Bench γ)
    course reply = course (alone app rules logger script context) ∧
      ∃ prints', reply.state.host = ⟨⟨.script later, rules, prints'⟩, logger⟩ := by
  intro reply
  -- A session starts the flag itself.
  have hreply : reply = run app (⟨⟨⟨.script (script ++ later), rules, 0 + prints⟩, logger⟩, context,
      .stopped⟩ : State Bench γ) := by
    rw [Nat.zero_add]
    rfl
  obtain ⟨hcourse, prints', -, hhost⟩ :=
    run_append app script later 0 prints (.inr hrules) logger context .stopped hreads.le
  rw [← hreply] at hcourse hhost
  refine ⟨hcourse, prints' + prints, ?_⟩
  rw [hhost]
  change Bench.mk ⟨.script (script.drop (Transcript.reads (alone app rules logger script context
    ).events) ++ later), _, _⟩ _ = _
  rw [hreads, List.drop_length]
  rfl

/-- Sessions that read their own scripts to the end go the same way on one script, one after
another. Each leaves the scripts of those after it. -/
theorem runAll_flatten (hrules : PrintRule.AboutTexts rules) (later : List ScriptEntry)
    (scripts : List (List ScriptEntry))
    (hreads : ∀ script ∈ scripts, ∀ context,
      Transcript.reads (alone app rules logger script context).events = script.length)
    (prints : Nat) (context : γ) (flag : RunFlag) :
    let start : State Bench γ :=
      ⟨⟨⟨.script (scripts.flatten ++ later), rules, prints⟩, logger⟩, context, flag⟩
    let replies := runAll app scripts.length start
    replies.map course = (separately app rules logger scripts context).map course ∧
      replies.map (·.state.host.terminal.source) =
        scripts.tails.tail.map fun rest => .script (rest.flatten ++ later) := by
  induction scripts generalizing prints context flag with
  | nil => exact ⟨rfl, rfl⟩
  | cons script scripts ih =>
    intro start replies
    have ⟨hcourse, prints', hhost⟩ := run_of_alone hrules (hreads script List.mem_cons_self context)
      (scripts.flatten ++ later) prints flag
    rw [← List.append_assoc, ← List.flatten_cons] at hcourse hhost
    change course (run app start) = _ at hcourse
    change (run app start).state.host = _ at hhost
    have ⟨hrest, hsources⟩ := ih (fun script h => hreads script (List.mem_cons_of_mem _ h)) prints'
      (run app start).state.context (run app start).state.flag
    have hcontext : (run app start).state.context =
        (alone app rules logger script context).state.context := congrArg Course.context hcourse
    rw [← hhost] at hrest hsources
    constructor
    · show course (run app start) :: (runAll app scripts.length (run app start).state).map course = _
      rw [separately, List.map_cons, ← hcontext, ← hrest, hcourse]
    · show (run app start).state.host.terminal.source ::
        (runAll app scripts.length (run app start).state).map _ = _
      rw [hsources, hhost]
      cases scripts with
      | nil => rfl
      | cons next scripts => rfl

end Bench

end Repl
