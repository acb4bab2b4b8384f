import Repl.Proofs.Session.Unfolding

/-!
Sessions whose commands do not look at what the application keeps. They go the same way whatever
that is, and differ only in what they leave of it.
-/

namespace Repl

open Exchange Terminal

variable {ω κ γ α : Type}

/-- The command changes the context at most, and never looks at it. -/
inductive Action.NeverConsults : Action γ → Prop where
  | finish {result : ApplyResult} : NeverConsults (.finish result)
  | print {text : Bytes} {next : Except Bytes Unit → Action γ}
    (rest : ∀ outcome, NeverConsults (next outcome)) : NeverConsults (.print text next)
  | readLine {next : Except Bytes Bytes → Action γ}
    (rest : ∀ outcome, NeverConsults (next outcome)) :
    NeverConsults (.readLine next)
  | ask {prompt : Bytes} {parse : Bytes → Except Bytes Value} {next : Except Bytes Value → Action γ}
    (rest : ∀ outcome, NeverConsults (next outcome)) : NeverConsults (.ask prompt parse next)
  | update {f : γ → γ} {next : Action γ} (rest : NeverConsults next) :
    NeverConsults (.update f next)
  | setFlag {flag : RunFlag} {next : Action γ} (rest : NeverConsults next) :
    NeverConsults (.setFlag flag next)
  | consultFlag {next : RunFlag → Action γ} (rest : ∀ flag, NeverConsults (next flag)) :
    NeverConsults (.consultFlag next)
  | nest {next : Except Bytes Unit → Action γ} (rest : ∀ outcome, NeverConsults (next outcome)) :
    NeverConsults (.nest next)

namespace Session

variable {app : Application κ γ}

def Part.NeverConsults : Part γ → Prop
  | command action => action.NeverConsults
  | round _ | rounds _ | session => True

/-- The reply, but for what it leaves of the context. -/
def leaving (context : γ) (reply : Reply Event (State ω γ) α) : Reply Event (State ω γ) α :=
  ⟨reply.outcome, reply.events, { reply.state with context }⟩

theorem leaving_after (context : γ) (events : Transcript)
    (reply : Reply Event (State ω γ) α) :
    leaving context (reply.after events) = (leaving context reply).after events :=
  rfl

variable [Host ω]

theorem conclude_leaving (context : γ) (result : ApplyResult) (s : State ω γ) :
    conclude result { s with context } = leaving context (conclude result s) := by
  cases result with
  | applied | skipped | accessTerminalError message => rfl
  | applicationError message data =>
    rw [conclude_applicationError, conclude_applicationError]
    rfl

theorem bracket_leaving (context context' : γ) (cycle : Reply Event (State ω γ) Unit)
    (s : State ω γ) :
    bracket (fun _ => leaving context' cycle) { s with context } =
      leaving context' (bracket (fun _ => cycle) s) := by
  obtain ⟨outcome, events, s'⟩ := cycle
  cases outcome with
  | ok _ => rfl
  | error message => rfl

/-- From another context, a part of a session that never consults it goes the same way. -/
theorem Unfolds.of_context (hactions : ∀ command, (app.action command).NeverConsults)
    {part : Part γ} {s : State ω γ} {reply : Reply Event (State ω γ) part.Yield}
    (h : Unfolds app part s reply) (hpart : part.NeverConsults) (context : γ) :
    ∃ context', Unfolds app part { s with context } (leaving context' reply) := by
  induction h generalizing context with
  | finish => exact ⟨context, .finish⟩
  | print hprint _ ih =>
    rw [onTerminal_apply] at hprint
    cases hprint
    cases hpart with
    | print hnext =>
      obtain ⟨context', rest⟩ := ih (hnext _) context
      exact ⟨context', leaving_after context' _ _ ▸ .print rfl rest⟩
  | readLine hread _ ih =>
    rw [onTerminal_apply] at hread
    cases hread
    cases hpart with
    | readLine hnext =>
      obtain ⟨context', rest⟩ := ih (hnext _) context
      exact ⟨context', leaving_after context' _ _ ▸ .readLine rfl rest⟩
  | @ask _ _ _ s _ _ _ _ hasks _ ih =>
    cases hpart with
    | ask hnext =>
      obtain ⟨context', rest⟩ := ih (hnext _) context
      exact ⟨context', leaving_after context' _ _ ▸ .ask (s := { s with context }) hasks rest⟩
  | @update f _ _ _ _ ih =>
    cases hpart with
    | update hnext =>
      obtain ⟨context', rest⟩ := ih hnext (f context)
      exact ⟨context', .update rest⟩
  | consult => cases hpart
  | setFlag _ ih =>
    cases hpart with
    | setFlag hnext =>
      obtain ⟨context', rest⟩ := ih hnext context
      exact ⟨context', .setFlag rest⟩
  | consultFlag _ ih =>
    cases hpart with
    | consultFlag hnext =>
      obtain ⟨context', rest⟩ := ih (hnext _) context
      exact ⟨context', .consultFlag rest⟩
  | nest _ _ ihinner ih =>
    cases hpart with
    | nest hnext =>
      obtain ⟨between, hinner⟩ := ihinner trivial context
      obtain ⟨context', rest⟩ := ih (hnext _) between
      exact ⟨context', .nest hinner rest⟩
  | unread hasks => exact ⟨context, .unread hasks⟩
  | @applied _ s s' command _ _ result _ hasks _ ih =>
    obtain ⟨context', hcommand⟩ := ih (hactions command) context
    refine ⟨context', ?_⟩
    have happlied := Unfolds.applied (s := { s with context }) hasks hcommand
    dsimp only [leaving] at happlied
    rw [conclude_leaving] at happlied
    exact happlied
  | stopped hflag => exact ⟨context, .stopped hflag⟩
  | failed hflag _ ih =>
    obtain ⟨context', hround⟩ := ih trivial context
    exact ⟨context', .failed hflag hround⟩
  | @again _ _ s _ _ _ hflag _ _ ihround ih =>
    obtain ⟨between, hround⟩ := ihround trivial context
    obtain ⟨context', rest⟩ := ih trivial between
    exact ⟨context', leaving_after context' _ _ ▸ .again (s := { s with context }) hflag hround rest⟩
  | session _ ih =>
    obtain ⟨context', hrounds⟩ := ih trivial context
    refine ⟨context', ?_⟩
    rw [← bracket_leaving context]
    exact .session hrounds

/-- What a session does is the same from any context. -/
theorem run_of_context {P : ω → Prop} (hP : Host.Supply P)
    (hactions : ∀ command, (app.action command).NeverConsults) {s : State ω γ} (hs : P s.host)
    (context : γ) :
    ∃ context', run app { s with context } = leaving context' (run app s) := by
  have hrun : Unfolds app .session s (run app s) := unfolds_run hP hs
  have hother : Unfolds app .session { s with context } (run app { s with context }) :=
    unfolds_run hP hs
  obtain ⟨context', hsame⟩ := hrun.of_context hactions trivial context
  exact ⟨context', hother.unique hsame⟩

end Session

end Repl
