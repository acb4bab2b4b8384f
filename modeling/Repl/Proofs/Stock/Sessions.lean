import Repl.Proofs.Session.Script
import Repl.Proofs.Stock.Commands

/-!
Sessions of stock commands on the bench: how they end, and what they take from the script.
-/

namespace Repl

open Terminal

namespace Bench

/-- A read takes an entry off the script, and nothing else does. -/
theorem counted : Host.Counted HasScript where
  print _ _ hb := ⟨hb, rfl⟩
  line := by
    rintro b ⟨entries, h⟩
    have htail := source_readLine h
    refine ⟨⟨_, htail⟩, ?_⟩
    rw [patience_eq h, patience_eq htail, List.length_tail]
  exhausted := by
    rintro b ⟨entries, h⟩ hpatience
    rw [patience_eq h, List.length_eq_zero_iff] at hpatience
    subst hpatience
    exact ⟨_, readLine_nil h⟩
  log _ _ hb := ⟨hb, rfl⟩

end Bench

namespace Stock

open Session

variable {specs : List Spec} {r : Registry Command}

/-- A session of stock commands comes to an end, in one way only, and so does every line that leads
to other lines. Each entry of the script is worth two reads at most: the one that takes it, and one
for the question or the session of its command. One read more finds the script at its end. -/
theorem session_terminates (hr : (register specs).outcome = .ok r) (prompts : Prompts)
    (script : List ScriptEntry) (rules : List PrintRule) (prints : Nat)
    (logger : Option Log.Logger) (context : Bytes) (flag : RunFlag) :
    let app := application r prompts
    let start : State Bench Bytes := ⟨⟨⟨.script script, rules, prints⟩, logger⟩, context, flag⟩
    (∀ line answer, Settles r line answer ↔ answer = settle r line) ∧
      (∀ reply, Unfolds app .session start reply ↔ reply = run app start) ∧
      Invocation.reads (Transcript.invocations (run app start).events) ≤
        2 * script.length + 1 := by
  intro app start
  have hstart : Bench.HasScript start.host := ⟨script, rfl⟩
  have hrun : Unfolds app .session start (run app start) := unfolds_run Bench.supply hstart
  refine ⟨fun line answer => settles_iff hr, fun reply => ?_, ?_⟩
  · constructor
    · intro h
      exact h.unique hrun
    · rintro rfl
      exact hrun
  · obtain ⟨⟨left, hleft⟩, hcost⟩ :=
      hrun.withinMeans Bench.counted (Command.action_asksAtMost r) hstart
    have hscript : patience start.host = script.length := Bench.patience_eq rfl
    change cost 1 start.host _ (run app start).state.host ≤ 1 at hcost
    rw [cost, hscript, Bench.patience_eq hleft] at hcost
    omega

def nesting : List Spec :=
  [.named (ascii "nest") none ⟨[], [], []⟩ .nest]

/-- Of sessions inside sessions that take every line, each finds the script at its end. -/
theorem nesting_session_terminates :
    ∃ r, (register nesting).outcome = .ok r ∧
      let start : State Bench Bytes :=
        ⟨⟨⟨.script [.line (ascii "nest"), .line (ascii "nest")], [], 0⟩, none⟩, [], .stopped⟩
      let uses := Transcript.invocations (run (application r .standard) start).events
      Invocation.reads uses = 5 ∧ Invocation.reads uses ≤ 2 * 2 + 1 := by
  have hregister : (register nesting).outcome = .ok _ := rfl
  have hterminates := session_terminates hregister .standard
    [.line (ascii "nest"), .line (ascii "nest")] [] 0 none [] .stopped
  exact ⟨_, hregister, rfl, hterminates.2.2⟩

/-- Where no command runs a session, a failure of the terminal is the last that a session sees of
it, and the session fails with its message. A session that the terminal did not fail was stopped,
unless its last command claimed a failure by itself. -/
theorem session_fails_with_terminal (hr : (register specs).outcome = .ok r)
    (hspecs : Nestless specs) (prompts : Prompts) (script : List ScriptEntry)
    (rules : List PrintRule) (prints : Nat) (logger : Option Log.Logger) (context : Bytes)
    (flag : RunFlag) :
    let start : State Bench Bytes := ⟨⟨⟨.script script, rules, prints⟩, logger⟩, context, flag⟩
    let reply := run (application r prompts) start
    let uses := Transcript.invocations reply.events
    (∀ i ∈ uses.dropLast, i.succeeded = true) ∧
      (∀ i, uses.getLast? = some i → i.succeeded = false → reply.outcome = .error i.error) ∧
      ((∀ i ∈ uses, i.succeeded = true) →
        reply.outcome = .ok () ∧ reply.state.flag = .stopped ∨
          ∃ message, reply.outcome = .error message ∧
            (Transcript.results reply.events).getLast? = some (.accessTerminalError message) ∧
            Claims specs message) := by
  intro start reply uses
  have hstart : Bench.HasScript start.host := ⟨script, rfl⟩
  have hrun : Unfolds (application r prompts) .session start reply :=
    unfolds_run Bench.supply hstart
  obtain ⟨hended, hflag⟩ : EndsOnFailure (Claims specs) .session reply :=
    hrun.endsOnFailure fun _ _ => Command.action_givesUp hr hspecs
  have hflawless (h : Invocation.Flawless uses) : (∀ i ∈ uses.dropLast, i.succeeded = true) ∧
      ∀ i, uses.getLast? = some i → i.succeeded = false → reply.outcome = .error i.error := by
    refine ⟨fun i hi => h i (List.dropLast_subset _ hi), fun i hi hfailed => ?_⟩
    rw [h i (List.mem_of_getLast? hi)] at hfailed
    cases hfailed
  cases houtcome : reply.outcome with
  | ok _ =>
    rw [houtcome] at hended hflawless
    obtain ⟨hearlier, hlast⟩ := hflawless hended
    exact ⟨hearlier, hlast, fun _ => .inl ⟨rfl, hflag houtcome⟩⟩
  | error message =>
    rw [houtcome] at hended hflawless
    obtain hfailed | ⟨hall, hclaimed⟩ := hended
    · obtain ⟨last, hlast, hnot, hmessage⟩ := hfailed.getLast?_eq
      refine ⟨hfailed.succeeded_dropLast, ?_, fun hall => ?_⟩
      · intro i hi _
        cases hlast.symm.trans hi
        rw [hmessage]
      · rw [hall last (List.mem_of_getLast? hlast)] at hnot
        cases hnot
    · obtain ⟨hearlier, hlast⟩ := hflawless hall
      exact ⟨hearlier, hlast, fun _ => .inr ⟨message, rfl, hclaimed⟩⟩

/-- Commands of which each can fail in its own way. -/
def failing : List Spec :=
  [.builtin .quit, .named (ascii "say") none ⟨[], [], []⟩ .say,
    .named (ascii "abandon") (some (ascii "a")) ⟨[], [], []⟩
      (.respond (.accessTerminalError (ascii "abandoned")))]

/-- The print that fails is that of the command, and its message that of the session. -/
theorem failing_session_fails :
    ∃ r, (register failing).outcome = .ok r ∧ Nestless failing ∧
      let start : State Bench Bytes :=
        ⟨⟨⟨.script [.line (ascii "what"), .line (ascii "say so"), .line (ascii "q")],
          [⟨.text (ascii "so"), ascii "torn"⟩], 0⟩, none⟩, [], .stopped⟩
      let reply := run (application r .standard) start
      let uses := Transcript.invocations reply.events
      uses.getLast? = some (.printFailed (ascii "so") (ascii "torn")) ∧
        reply.outcome = .error (ascii "torn") := by
  have hregister : (register failing).outcome = .ok _ := rfl
  have hnestless : Nestless failing := by
    intro name shorthand description h
    simp [failing] at h
  have hfails := session_fails_with_terminal hregister hnestless .standard
    [.line (ascii "what"), .line (ascii "say so"), .line (ascii "q")]
    [⟨.text (ascii "so"), ascii "torn"⟩] 0 none [] .stopped
  exact ⟨_, hregister, hnestless, rfl, hfails.2.1 _ rfl rfl⟩

end Stock

end Repl
