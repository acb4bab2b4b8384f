import Mathlib.Tactic.Linarith
import Mathlib.Tactic.Ring
import Repl.Proofs.Session.Unfolding

/-!
How often a session reads. A line pays for its own read and for one read more by each thing that its
command asks for; a read that finds no line is paid for by the line that opened its session. So the
lines that there are bound the reads of a session, whatever sessions run inside it.
-/

namespace Repl

open Exchange Terminal

variable {τ ω κ γ α β : Type}

def Invocation.reads (uses : List Invocation) : Nat :=
  uses.countP Invocation.isRead

/-! ## What a question costs -/

namespace Terminal

variable [Terminal τ] {P : τ → Prop} {n : Nat} {prompt : Bytes} {parse : Bytes → Except Bytes α}

/-- The patience of the terminals of `P` is the number of lines left: a read takes one of them, and
fails if there is none. -/
structure Counted (P : τ → Prop) : Prop where
  print : ∀ text t, P t → P (print text t).2 ∧ patience (print text t).2 = patience t
  line : ∀ t, P t → P (readLine t).2 ∧ patience (readLine t).2 = patience t - 1
  exhausted : ∀ t, P t → patience t = 0 → ∃ message, (readLine t).1 = .error message

/-- The reads among some uses of a terminal, less `n + 1` for each line that they took. -/
def cost (n : Nat) (t : τ) (uses : List Invocation) (t' : τ) : Int :=
  Invocation.reads uses - (n + 1) * ((patience t : Int) - patience t')

theorem cost_append (t t' t'' : τ) (uses others : List Invocation) :
    cost n t (uses ++ others) t'' = cost n t uses t' + cost n t' others t'' := by
  have hreads : Invocation.reads (uses ++ others) =
      Invocation.reads uses + Invocation.reads others := List.countP_append
  rw [cost, cost, cost, hreads]
  push_cast
  ring

/-- One price for a success and another one for a failure. -/
def price (ok error : Int) : Except Bytes α → Int
  | .ok _ => ok
  | .error _ => error

/-- From the terminals of `P` the exchange leads to such terminals, at most at the price. -/
def Costs (P : τ → Prop) (n : Nat) (ok error : Int) (x : Exchange Call τ α) : Prop :=
  ∀ t, P t → P (x t).state ∧
    cost n t ((x t).events.map Call.invocation) (x t).state ≤ price ok error (x t).outcome

theorem Costs.pure (a : α) : Costs P n 0 0 (pure a) :=
  fun _ ht => ⟨ht, by simp [cost, price, Invocation.reads]⟩

theorem Costs.mono {x : Exchange Call τ α} {ok error error' : Int} (hx : Costs P n ok error x)
    (h : error ≤ error') : Costs P n ok error' x := by
  intro t ht
  obtain ⟨hstate, hcost⟩ := hx t ht
  refine ⟨hstate, ?_⟩
  cases houtcome : (x t).outcome with
  | ok a => rwa [houtcome] at hcost
  | error message =>
    rw [houtcome] at hcost
    exact hcost.trans h

theorem Costs.bind {x : Exchange Call τ α} {f : α → Exchange Call τ β} {ok ok' error : Int}
    (hx : Costs P n ok error x) (hf : ∀ a, Costs P n ok' error (f a)) (hok : ok ≤ 0) :
    Costs P n (ok + ok') error (x >>= f) := by
  intro t ht
  obtain ⟨hfirst, hcost⟩ := hx t ht
  cases h : (x t).outcome with
  | error message =>
    rw [h] at hcost
    rw [bind_apply_of_error h]
    exact ⟨hfirst, hcost⟩
  | ok a =>
    rw [h] at hcost
    obtain ⟨hsecond, hcost'⟩ := hf a _ hfirst
    rw [bind_apply_of_ok h]
    refine ⟨hsecond, ?_⟩
    rw [List.map_append, cost_append _ (x t).state]
    cases h' : (f a (x t).state).outcome with
    | error message =>
      simp only [h', price] at hcost hcost' ⊢
      omega
    | ok b =>
      simp only [h', price] at hcost hcost' ⊢
      omega

theorem printFor_costs (hP : Counted P) (purpose : Purpose) (text : Bytes) :
    Costs P n 0 0 (printFor purpose text) := by
  intro t ht
  obtain ⟨hprinted, hpatience⟩ := hP.print text t ht
  unfold printFor
  split
  · rename_i heq
    rw [heq] at hprinted hpatience
    exact ⟨hprinted, by simp [cost, price, hpatience, Invocation.reads, Invocation.isRead]⟩
  · rename_i heq
    rw [heq] at hprinted hpatience
    exact ⟨hprinted, by simp [cost, price, hpatience, Invocation.reads, Invocation.isRead]⟩

/-- A line pays for more than its own read; a read that fails may have found none. -/
theorem nextLine_costs (hP : Counted P) : Costs P n (-n) 1 nextLine := by
  intro t ht
  obtain ⟨hread, hpatience⟩ := hP.line t ht
  have hexhausted := hP.exhausted t ht
  unfold nextLine
  split
  · rename_i line t' heq
    rw [heq] at hread hpatience hexhausted
    -- A line was read, so there was one.
    have hpos : 0 < patience t := by
      refine Nat.pos_of_ne_zero fun hzero => ?_
      obtain ⟨message, himpossible⟩ := hexhausted hzero
      cases himpossible
    have hleft : (patience t : Int) - patience t' = 1 := by
      dsimp only at hpatience
      omega
    refine ⟨hread, ?_⟩
    simp [cost, hleft, price, Invocation.reads, Invocation.isRead]
  · rename_i message t' heq
    rw [heq] at hread hpatience
    have hleft : 0 ≤ (patience t : Int) - patience t' := by
      dsimp only at hpatience
      omega
    have hpaid : 0 ≤ ((n : Int) + 1) * ((patience t : Int) - patience t') := by positivity
    refine ⟨hread, ?_⟩
    simp [cost, hpaid, price, Invocation.reads, Invocation.isRead]

theorem askOnce_costs (hP : Counted P) : Costs P n (-n) 1 (askOnce prompt parse) := by
  have hprint (purpose : Purpose) (text : Bytes) : Costs P n 0 1 (printFor purpose text) :=
    (printFor_costs hP purpose text).mono (by decide)
  have hjudged (line : Bytes) : Costs P n 0 1
      (match parse (Text.trim line) with
      | .ok value => Pure.pure (some value)
      | .error reason => do
        printFor .complaint (complaint reason)
        Pure.pure none) := by
    cases parse (Text.trim line) with
    | ok value => exact (Costs.pure _).mono (by decide)
    | error reason =>
      have hnone : Costs P n 0 1 (Pure.pure (none : Option α)) := (Costs.pure _).mono (by decide)
      exact (hprint _ _).bind (fun _ => hnone) (Int.le_refl 0)
  have hline := (nextLine_costs hP).bind hjudged (by omega : -(n : Int) ≤ 0)
  have hround := (hprint .prompt prompt).bind (fun _ => hline) (Int.le_refl 0)
  rw [zero_add, add_zero] at hround
  exact hround

theorem Asks.cost_le (hP : Counted P) {t : τ} {answer : Reply Call τ α} (ht : P t)
    (h : Asks prompt parse t answer) :
    P answer.state ∧
      cost n t (answer.events.map Call.invocation) answer.state ≤ price (-n) 1 answer.outcome := by
  have hcosts : Costs P n (-n) 1 (askOnce prompt parse) := askOnce_costs hP
  induction h with
  | @failed t t' message calls hround =>
    have hround_costs := hcosts t ht
    rw [hround] at hround_costs
    exact hround_costs
  | @answered t t' value calls hround =>
    have hround_costs := hcosts t ht
    rw [hround] at hround_costs
    exact hround_costs
  | @again t t' calls answer hround rest ih =>
    obtain ⟨hrefused, hcost⟩ := hcosts t ht
    rw [hround] at hrefused hcost
    obtain ⟨hstate, hrest⟩ := ih hrefused
    refine ⟨hstate, ?_⟩
    simp only [price] at hcost
    rw [Reply.after_events, Reply.after_state, Reply.after_outcome, List.map_append,
      cost_append _ t']
    omega

end Terminal

/-! ## What a session costs -/

/-- The command reads lines, asks questions and runs sessions at most so many times. -/
inductive Action.AsksAtMost : Nat → Action γ → Prop where
  | finish {n : Nat} {result : ApplyResult} : AsksAtMost n (.finish result)
  | print {n : Nat} {text : Bytes} {next : Except Bytes Unit → Action γ}
    (rest : ∀ outcome, AsksAtMost n (next outcome)) : AsksAtMost n (.print text next)
  | readLine {n : Nat} {next : Except Bytes Bytes → Action γ}
    (rest : ∀ outcome, AsksAtMost n (next outcome)) : AsksAtMost (n + 1) (.readLine next)
  | ask {n : Nat} {prompt : Bytes} {parse : Bytes → Except Bytes Value}
    {next : Except Bytes Value → Action γ} (rest : ∀ outcome, AsksAtMost n (next outcome)) :
    AsksAtMost (n + 1) (.ask prompt parse next)
  | update {n : Nat} {f : γ → γ} {next : Action γ} (rest : AsksAtMost n next) :
    AsksAtMost n (.update f next)
  | consult {n : Nat} {next : γ → Action γ} (rest : ∀ context, AsksAtMost n (next context)) :
    AsksAtMost n (.consult next)
  | setFlag {n : Nat} {flag : RunFlag} {next : Action γ} (rest : AsksAtMost n next) :
    AsksAtMost n (.setFlag flag next)
  | consultFlag {n : Nat} {next : RunFlag → Action γ} (rest : ∀ flag, AsksAtMost n (next flag)) :
    AsksAtMost n (.consultFlag next)
  | nest {n : Nat} {next : Except Bytes Unit → Action γ}
    (rest : ∀ outcome, AsksAtMost n (next outcome)) : AsksAtMost (n + 1) (.nest next)

/-- Terminals that count their lines, whatever is logged. -/
structure Host.Counted [Host ω] (P : ω → Prop) : Prop extends Terminal.Counted P where
  log : ∀ e h, P h → P (Host.log e h).2 ∧ patience (Host.log e h).2 = patience h

namespace Session

variable [Host ω] {P : ω → Prop} {app : Application κ γ} {n : Nat}

/-- What the events of a session from one state to another cost. -/
abbrev costOf (n : Nat) (s : State ω γ) (events : Transcript) (s' : State ω γ) : Int :=
  cost n s.host events.invocations s'.host

theorem costOf_append (s' : State ω γ) {s s'' : State ω γ} {events others : Transcript} :
    costOf n s (events ++ others) s'' = costOf n s events s' + costOf n s' others s'' := by
  rw [costOf, Transcript.invocations_append, cost_append]

theorem costOf_after_le {s s' : State ω γ} {events : Transcript} {reply : Reply Event (State ω γ) α}
    {first rest : Int} (hfirst : costOf n s events s' ≤ first)
    (hrest : costOf n s' reply.events reply.state ≤ rest) :
    costOf n s (reply.after events).events (reply.after events).state ≤ first + rest := by
  rw [Reply.after_events, Reply.after_state, costOf_append s']
  exact add_le_add hfirst hrest

theorem costOf_of_isLog {t : Transcript} {s s' : State ω γ} (h : t.IsLog)
    (hpatience : patience s'.host = patience s.host) : costOf n s t s' = 0 := by
  rw [costOf, h.invocations_eq_nil, cost, hpatience, Int.sub_self, mul_zero]
  rfl

theorem costOf_nil (s : State ω γ) : costOf n s [] s = 0 :=
  costOf_of_isLog Transcript.isLog_nil rfl

theorem log_cost (hP : Host.Counted P) (level : Log.Level) (message : Bytes) {s : State ω γ}
    (hs : P s.host) :
    P (log level message s).state.host ∧
      costOf n s (log level message s).events (log level message s).state = 0 := by
  obtain ⟨hlogged, hpatience⟩ := hP.log ⟨level, category, message⟩ s.host hs
  exact ⟨hlogged, costOf_of_isLog (isLog_log level message s) hpatience⟩

/-- A session pays for the uses that it or its commands make of the terminal. -/
theorem onTerminal_cost {x : Exchange Call ω α} {ok error : Int} (hx : Costs P n ok error x)
    {event : Call → Event} (hevent : ∀ call, (event call).invocation? = some call.invocation)
    {s s' : State ω γ} {outcome : Except Bytes α} {events : List Event} (hs : P s.host)
    (h : onTerminal event x s = ⟨outcome, events, s'⟩) :
    P s'.host ∧ costOf n s events s' ≤ price ok error outcome := by
  rw [onTerminal_apply] at h
  cases h
  rw [costOf, Transcript.invocations_map hevent]
  exact hx s.host hs

theorem price_self (c : Int) (outcome : Except Bytes α) : price c c outcome = c := by
  cases outcome <;> rfl

theorem write_cost (hP : Host.Counted P) {event : Call → Event}
    (hevent : ∀ call, (event call).invocation? = some call.invocation) {text : Bytes}
    {s s' : State ω γ} {outcome : Except Bytes Unit} {events : List Event} (hs : P s.host)
    (h : onTerminal event (write text) s = ⟨outcome, events, s'⟩) :
    P s'.host ∧ costOf n s events s' ≤ 0 := by
  have hwritten := onTerminal_cost (printFor_costs (n := n) hP.toCounted .output text) hevent hs h
  rwa [price_self] at hwritten

/-- What a session makes of a result is a report at most, and reads nothing. -/
theorem conclude_cost (hP : Host.Counted P) (result : ApplyResult) {s : State ω γ} (hs : P s.host) :
    P (conclude result s).state.host ∧
      costOf n s (conclude result s).events (conclude result s).state ≤ 0 := by
  cases result with
  | applied => exact ⟨hs, (costOf_nil s).le⟩
  | skipped => exact ⟨hs, (costOf_nil s).le⟩
  | applicationError message data =>
    obtain ⟨hlogged, hlog⟩ := log_cost (n := n) hP .warning (errorReport message) hs
    obtain ⟨hreported, hreport⟩ : P (onTerminal .loop
        (writeLine (errorReport message ++ ascii ".")) (log .warning (errorReport message) s).state
          ).state.host ∧ _ :=
      write_cost (n := n) hP Event.invocation?_loop hlogged rfl
    rw [conclude_applicationError]
    dsimp only
    rw [costOf_append (log .warning (errorReport message) s).state, hlog, zero_add]
    exact ⟨hreported, hreport⟩
  | accessTerminalError message => exact ⟨hs, (costOf_nil s).le⟩

/-- A question, asked by a session or by its commands. -/
theorem asks_cost (hP : Host.Counted P) {event : Call → Event}
    (hevent : ∀ call, (event call).invocation? = some call.invocation) {prompt : Bytes}
    {parse : Bytes → Except Bytes α} {s : State ω γ} {outcome : Except Bytes α} {calls : List Call}
    {h : ω} (hs : P s.host) (hasks : Asks prompt parse s.host ⟨outcome, calls, h⟩) :
    P h ∧ costOf n s (calls.map event) { s with host := h } ≤ price (-n) 1 outcome := by
  rw [costOf, Transcript.invocations_map hevent]
  exact hasks.cost_le hP.toCounted hs

/-- What a part of a session may cost when no command asks for more than `n` things. -/
def WithinMeans (n : Nat) (s : State ω γ) :
    (part : Part γ) → Reply Event (State ω γ) part.Yield → Prop
  | .command action, reply =>
    ∀ asked, action.AsksAtMost asked → costOf n s reply.events reply.state ≤ asked
  | .round _, reply => costOf n s reply.events reply.state ≤ price 0 1 reply.outcome
  | .rounds _, reply | .session, reply => costOf n s reply.events reply.state ≤ 1

theorem price_le_one (n : Nat) (outcome : Except Bytes α) : price (-n) 1 outcome ≤ 1 := by
  cases outcome with
  | ok a =>
    show -(n : Int) ≤ 1
    omega
  | error message => exact Int.le_refl 1

theorem price_nonneg (outcome : Except Bytes α) : 0 ≤ price 0 1 outcome := by
  cases outcome with
  | ok a => exact Int.le_refl 0
  | error message => exact Int.zero_le_ofNat 1

theorem Unfolds.withinMeans (hP : Host.Counted P)
    (hactions : ∀ command, (app.action command).AsksAtMost n) {part : Part γ} {s : State ω γ}
    {reply : Reply Event (State ω γ) part.Yield} (h : Unfolds app part s reply) (hs : P s.host) :
    P reply.state.host ∧ WithinMeans n s part reply := by
  induction h with
  | finish => exact ⟨hs, fun asked _ => (costOf_nil _).trans_le (by omega)⟩
  | @print text next s s' outcome events reply hprint _ ih =>
    obtain ⟨hprinted, hcost⟩ := write_cost (n := n) hP Event.invocation?_command hs hprint
    obtain ⟨hstate, hrest⟩ := ih hprinted
    refine ⟨hstate, fun asked hasked => ?_⟩
    cases hasked with
    | print hnext => exact (costOf_after_le hcost (hrest asked (hnext outcome))).trans (by omega)
  | @readLine next s s' outcome events reply hread _ ih =>
    obtain ⟨hline, hcost⟩ := onTerminal_cost (nextLine_costs (n := n) hP.toCounted)
      Event.invocation?_command hs hread
    have hone := hcost.trans (price_le_one n outcome)
    obtain ⟨hstate, hrest⟩ := ih hline
    refine ⟨hstate, fun asked hasked => ?_⟩
    cases hasked with
    | @readLine asked _ hnext =>
      exact (costOf_after_le hone (hrest asked (hnext outcome))).trans (by omega)
  | @ask prompt parse next s outcome calls h reply hasks _ ih =>
    obtain ⟨hanswered, hcost⟩ := asks_cost (n := n) hP Event.invocation?_command hs hasks
    have hone := hcost.trans (price_le_one n outcome)
    obtain ⟨hstate, hrest⟩ := ih hanswered
    refine ⟨hstate, fun asked hasked => ?_⟩
    cases hasked with
    | @ask asked _ _ _ hnext =>
      exact (costOf_after_le hone (hrest asked (hnext outcome))).trans (by omega)
  | update _ ih =>
    obtain ⟨hstate, hrest⟩ := ih hs
    refine ⟨hstate, fun asked hasked => ?_⟩
    cases hasked with
    | update hnext => exact hrest asked hnext
  | consult _ ih =>
    obtain ⟨hstate, hrest⟩ := ih hs
    refine ⟨hstate, fun asked hasked => ?_⟩
    cases hasked with
    | consult hnext => exact hrest asked (hnext _)
  | setFlag _ ih =>
    obtain ⟨hstate, hrest⟩ := ih hs
    refine ⟨hstate, fun asked hasked => ?_⟩
    cases hasked with
    | setFlag hnext => exact hrest asked hnext
  | consultFlag _ ih =>
    obtain ⟨hstate, hrest⟩ := ih hs
    refine ⟨hstate, fun asked hasked => ?_⟩
    cases hasked with
    | consultFlag hnext => exact hrest asked (hnext _)
  | @nest next s s' outcome events reply _ _ ihinner ih =>
    obtain ⟨hran, hinner⟩ := ihinner hs
    obtain ⟨hstate, hrest⟩ := ih hran
    have hone : costOf n s (events.map .nested) s' ≤ 1 := by
      rw [costOf, Transcript.invocations_map_nested]
      exact hinner
    refine ⟨hstate, fun asked hasked => ?_⟩
    cases hasked with
    | @nest asked _ hnext =>
      exact (costOf_after_le hone (hrest asked (hnext outcome))).trans (by omega)
  | unread hasks => exact asks_cost hP Event.invocation?_loop hs hasks
  | @applied last s s' command calls h result events hasks _ ih =>
    obtain ⟨hread, hline⟩ := asks_cost (n := n) hP Event.invocation?_loop hs hasks
    obtain ⟨happlied, hcommand⟩ := ih hread
    obtain ⟨hstate, hconclude⟩ := conclude_cost (n := n) hP result happlied
    -- The line pays for all that its command asks for.
    have hpaid : costOf n s (calls.map .loop ++ events ++ [.applied result s'.flag]) s' ≤ 0 := by
      have hcommand_cost := hcommand n (hactions command)
      have hresult : costOf n s' [.applied result s'.flag] s' = 0 := costOf_nil s'
      rw [costOf_append s', costOf_append { s with host := h }, hresult]
      dsimp only [price] at hline hcommand_cost
      omega
    exact ⟨hstate, (costOf_after_le hpaid hconclude).trans (price_nonneg _)⟩
  | stopped => exact ⟨hs, (costOf_nil _).trans_le (by decide)⟩
  | failed _ _ ih => exact ih hs
  | again _ _ _ ihround ih =>
    obtain ⟨hround, hcost⟩ := ihround hs
    obtain ⟨hstate, hrest⟩ := ih hround
    exact ⟨hstate, costOf_after_le hcost hrest⟩
  | @session s cycle _ ih =>
    obtain ⟨hopened, hpatience⟩ := hP.log ⟨.debug, category, ascii "Session started."⟩ s.host hs
    obtain ⟨hcycle, hcost⟩ := ih hopened
    obtain ⟨opening, level, message, hopening, hbracket⟩ := bracket_const cycle s
    obtain ⟨hstate, hclosing⟩ := log_cost (n := n) hP level message hcycle
    have hopening_cost : costOf n s opening (opened s) = 0 := costOf_of_isLog hopening hpatience
    rw [hbracket]
    refine ⟨hstate, ?_⟩
    show costOf n s (opening ++ cycle.events ++ _) _ ≤ 1
    rw [costOf_append cycle.state, costOf_append (opened s), hopening_cost, hclosing, zero_add,
      add_zero]
    exact hcost

end Session

end Repl
