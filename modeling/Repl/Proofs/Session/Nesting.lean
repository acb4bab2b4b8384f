import Repl.Proofs.Session.Unfolding

/-!
Sessions inside sessions. A session is entered from the course of another one, and may run further
ones in its own. Once one of them ends well the run flag is stopped, and those around it have
nothing left to do: they end well too, and use the terminal no more.
-/

namespace Repl

open Exchange Terminal

variable {ω κ γ : Type}

/-- The command passes over the sessions that it runs: one that ends well is the end of it. -/
inductive Action.PassesOver : Action γ → Prop where
  | finish {result : ApplyResult} : PassesOver (.finish result)
  | print {text : Bytes} {next : Except Bytes Unit → Action γ}
    (rest : ∀ outcome, PassesOver (next outcome)) : PassesOver (.print text next)
  | readLine {next : Except Bytes Bytes → Action γ} (rest : ∀ outcome, PassesOver (next outcome)) :
    PassesOver (.readLine next)
  | ask {prompt : Bytes} {parse : Bytes → Except Bytes Value} {next : Except Bytes Value → Action γ}
    (rest : ∀ outcome, PassesOver (next outcome)) : PassesOver (.ask prompt parse next)
  | update {f : γ → γ} {next : Action γ} (rest : PassesOver next) : PassesOver (.update f next)
  | consult {next : γ → Action γ} (rest : ∀ context, PassesOver (next context)) :
    PassesOver (.consult next)
  | setFlag {flag : RunFlag} {next : Action γ} (rest : PassesOver next) :
    PassesOver (.setFlag flag next)
  | consultFlag {next : RunFlag → Action γ} (rest : ∀ flag, PassesOver (next flag)) :
    PassesOver (.consultFlag next)
  | nest {next : Except Bytes Unit → Action γ} {result : ApplyResult}
    (hfinish : next (.ok ()) = .finish result) (hresult : result.isError = false)
    (rest : ∀ message, PassesOver (next (.error message))) : PassesOver (.nest next)

namespace Session

def Part.PassesOver : Part γ → Prop
  | command action => action.PassesOver
  | round _ | rounds _ | session => True

variable [Host ω] {app : Application κ γ}

/-! ## The course of a session -/

/-- What a part of a session goes on with after some events, in the same session. -/
inductive Continues (app : Application κ γ) :
    Part γ → State ω γ → Transcript → Part γ → State ω γ → Prop where
  | print {text : Bytes} {next : Except Bytes Unit → Action γ} {s s' : State ω γ}
    {outcome : Except Bytes Unit} {events : Transcript}
    (hprint : onTerminal .command (write text) s = ⟨outcome, events, s'⟩) :
    Continues app (.command (.print text next)) s events (.command (next outcome)) s'
  | readLine {next : Except Bytes Bytes → Action γ} {s s' : State ω γ}
    {outcome : Except Bytes Bytes} {events : Transcript}
    (hread : onTerminal .command nextLine s = ⟨outcome, events, s'⟩) :
    Continues app (.command (.readLine next)) s events (.command (next outcome)) s'
  | ask {prompt : Bytes} {parse : Bytes → Except Bytes Value} {next : Except Bytes Value → Action γ}
    {s : State ω γ} {outcome : Except Bytes Value} {calls : List Call} {h : ω}
    (hasks : Asks prompt parse s.host ⟨outcome, calls, h⟩) :
    Continues app (.command (.ask prompt parse next)) s (calls.map .command)
      (.command (next outcome)) { s with host := h }
  | update {f : γ → γ} {next : Action γ} {s : State ω γ} :
    Continues app (.command (.update f next)) s [] (.command next)
      { s with context := f s.context }
  | consult {next : γ → Action γ} {s : State ω γ} :
    Continues app (.command (.consult next)) s [] (.command (next s.context)) s
  | setFlag {flag : RunFlag} {next : Action γ} {s : State ω γ} :
    Continues app (.command (.setFlag flag next)) s [] (.command next) { s with flag }
  | consultFlag {next : RunFlag → Action γ} {s : State ω γ} :
    Continues app (.command (.consultFlag next)) s [] (.command (next s.flag)) s
  | nest {next : Except Bytes Unit → Action γ} {s s' : State ω γ} {outcome : Except Bytes Unit}
    {events : Transcript} (hinner : Unfolds app .session s ⟨outcome, events, s'⟩) :
    Continues app (.command (.nest next)) s (events.map .nested) (.command (next outcome)) s'
  | command {last : LastOutcome} {s : State ω γ} {command : κ} {calls : List Call} {h : ω}
    (hasks : Asks (app.prompts.after last) app.parseLine s.host ⟨.ok command, calls, h⟩) :
    Continues app (.round last) s (calls.map .loop) (.command (app.action command))
      { s with host := h }
  | round {last : LastOutcome} {s : State ω γ} (hflag : s.flag = .running) :
    Continues app (.rounds last) s [] (.round last) s
  | again {last next : LastOutcome} {s s' : State ω γ} {events : Transcript}
    (hflag : s.flag = .running) (hround : Unfolds app (.round last) s ⟨.ok next, events, s'⟩) :
    Continues app (.rounds last) s events (.rounds next) s'
  | session {s : State ω γ} :
    Continues app .session s
      (log .debug (ascii "Session started.") { s with flag := .running }).events
      (.rounds .applied) (opened s)

/-- A part of a session comes to another part after some events, in the same session or in one
inside it. -/
inductive ComesTo (app : Application κ γ) :
    Part γ → State ω γ → Transcript → Part γ → State ω γ → Prop where
  | here {part : Part γ} {s : State ω γ} : ComesTo app part s [] part s
  | next {part between target : Part γ} {s s' t : State ω γ} {events before : Transcript}
    (h : Continues app part s events between s') (rest : ComesTo app between s' before target t) :
    ComesTo app part s (events ++ before) target t
  | inside {next : Except Bytes Unit → Action γ} {target : Part γ} {s t : State ω γ}
    {before : Transcript} (inner : ComesTo app .session s before target t) :
    ComesTo app (.command (.nest next)) s (before.map .nested) target t

/-! ## Ends -/

/-- The part ends well, with the run flag stopped, so that nothing is left to do for the session. -/
def Closes : (part : Part γ) → Reply Event (State ω γ) part.Yield → Prop
  | .command _, reply =>
    (∃ result, reply.outcome = .ok result ∧ result.isError = false) ∧ reply.state.flag = .stopped
  | .round _, reply => (∃ next, reply.outcome = .ok next) ∧ reply.state.flag = .stopped
  | .rounds _, reply | .session, reply => reply.outcome = .ok () ∧ reply.state.flag = .stopped

theorem Continues.passesOver (hactions : ∀ command, (app.action command).PassesOver)
    {part between : Part γ} {s s' : State ω γ} {events : Transcript}
    (h : Continues app part s events between s') (hpart : part.PassesOver) :
    between.PassesOver := by
  cases h with
  | print _ => cases hpart with | print hnext => exact hnext _
  | readLine _ => cases hpart with | readLine hnext => exact hnext _
  | ask _ => cases hpart with | ask hnext => exact hnext _
  | update => cases hpart with | update hnext => exact hnext
  | consult => cases hpart with | consult hnext => exact hnext _
  | setFlag => cases hpart with | setFlag hnext => exact hnext
  | consultFlag => cases hpart with | consultFlag hnext => exact hnext _
  | @nest _ _ _ outcome _ _ =>
    cases hpart with
    | nest hfinish _ hnext =>
      cases outcome with
      | error message => exact hnext message
      | ok _ =>
        show Action.PassesOver _
        rw [hfinish]
        exact .finish
  | command _ => exact hactions _
  | round _ | again _ _ | session => trivial

/-- A part closes if what it goes on with does, and uses the terminal no more. -/
theorem Continues.closes {part between : Part γ} {s s' : State ω γ} {events : Transcript}
    {rest : Reply Event (State ω γ) between.Yield} (h : Continues app part s events between s')
    (hrest : Unfolds app between s' rest) (hclosed : Closes between rest) :
    ∃ reply, Unfolds app part s reply ∧ Closes part reply ∧
      Transcript.invocations reply.events =
        Transcript.invocations events ++ Transcript.invocations rest.events := by
  cases h with
  | print hprint => exact ⟨_, .print hprint hrest, hclosed, Transcript.invocations_append _ _⟩
  | readLine hread => exact ⟨_, .readLine hread hrest, hclosed, Transcript.invocations_append _ _⟩
  | ask hasks => exact ⟨_, .ask hasks hrest, hclosed, Transcript.invocations_append _ _⟩
  | update => exact ⟨_, .update hrest, hclosed, rfl⟩
  | consult => exact ⟨_, .consult hrest, hclosed, rfl⟩
  | setFlag => exact ⟨_, .setFlag hrest, hclosed, rfl⟩
  | consultFlag => exact ⟨_, .consultFlag hrest, hclosed, rfl⟩
  | nest hinner => exact ⟨_, .nest hinner hrest, hclosed, Transcript.invocations_append _ _⟩
  | command hasks =>
    obtain ⟨outcome, events', t⟩ := rest
    obtain ⟨⟨result, rfl, hresult⟩, hflag⟩ := hclosed
    obtain ⟨next, hnext⟩ := conclude_of_not_isError hresult t
    refine ⟨_, .applied hasks hrest, ?_⟩
    rw [hnext]
    refine ⟨⟨⟨next, rfl⟩, hflag⟩, ?_⟩
    dsimp only [Reply.after]
    rw [List.append_nil, Transcript.invocations_append, Transcript.invocations_append]
    exact List.append_nil _
  | round hflag =>
    obtain ⟨outcome, events', t⟩ := rest
    obtain ⟨⟨next, rfl⟩, hstopped⟩ := hclosed
    refine ⟨_, .again hflag hrest (.stopped hstopped), ⟨rfl, hstopped⟩, ?_⟩
    rw [Reply.after_events, Transcript.invocations_append]
    exact List.append_nil _
  | again hflag hround =>
    exact ⟨_, .again hflag hround hrest, hclosed, Transcript.invocations_append _ _⟩
  | session =>
    refine ⟨_, .session hrest, ?_⟩
    rw [bracket_const_eq]
    refine ⟨⟨hclosed.1, (closing_flag _ _).trans hclosed.2⟩, ?_⟩
    dsimp only [Reply.after]
    rw [Transcript.invocations_append, Transcript.invocations_append,
      (isLog_closing _ _).invocations_eq_nil, List.append_nil]

/-- A part closes if what it comes to does, and uses the terminal no more. -/
theorem ComesTo.closes (hactions : ∀ command, (app.action command).PassesOver)
    {part target : Part γ} {s t : State ω γ} {before : Transcript}
    {last : Reply Event (State ω γ) target.Yield} (h : ComesTo app part s before target t)
    (hpart : part.PassesOver) (hlast : Unfolds app target t last) (hclosed : Closes target last) :
    ∃ reply, Unfolds app part s reply ∧ Closes part reply ∧
      Transcript.invocations reply.events =
        Transcript.invocations before ++ Transcript.invocations last.events := by
  induction h with
  | here => exact ⟨last, hlast, hclosed, rfl⟩
  | next h _ ih =>
    obtain ⟨rest, hrest, hclosed, hinvocations⟩ :=
      ih (h.passesOver hactions hpart) hlast hclosed
    obtain ⟨reply, hreply, hcloses, heq⟩ := h.closes hrest hclosed
    refine ⟨reply, hreply, hcloses, ?_⟩
    rw [heq, hinvocations, Transcript.invocations_append, List.append_assoc]
  | @inside next _ _ _ _ _ ih =>
    obtain ⟨⟨outcome, events, s'⟩, hinner, ⟨rfl, hstopped⟩, hinvocations⟩ := ih trivial hlast hclosed
    cases hpart with
    | @nest _ result hfinish hresult _ =>
      have hrest : Unfolds app (.command (next (.ok ()))) s' ⟨.ok result, [], s'⟩ := by
        rw [hfinish]
        exact .finish
      refine ⟨_, .nest hinner hrest, ⟨⟨result, rfl, hresult⟩, hstopped⟩, ?_⟩
      rw [Reply.after_events, Transcript.invocations_append, Transcript.invocations_map_nested,
        Transcript.invocations_map_nested, hinvocations]
      exact List.append_nil _

/-- The rounds of a session go on until the flag is stopped or the session fails. -/
def EndsStopped : (part : Part γ) → Reply Event (State ω γ) part.Yield → Prop
  | .command _, _ | .round _, _ => True
  | .rounds _, reply | .session, reply => reply.outcome = .ok () → reply.state.flag = .stopped

theorem Unfolds.endsStopped {part : Part γ} {s : State ω γ}
    {reply : Reply Event (State ω γ) part.Yield} (h : Unfolds app part s reply) :
    EndsStopped part reply := by
  induction h with
  | finish | print _ _ _ | readLine _ _ _ | ask _ _ _ | update _ _ | consult _ _ | setFlag _ _
  | consultFlag _ _ | nest _ _ _ _ | unread _ | applied _ _ _ => trivial
  | stopped hflag => exact fun _ => hflag
  | failed _ _ _ => exact fun h => by cases h
  | again _ _ _ _ ih => exact ih
  | session _ ih =>
    intro hok
    rw [bracket_const_eq] at hok ⊢
    exact (closing_flag _ _).trans (ih hok)

/-! ## What the course of a session preserves -/

variable {R : ω → Prop}

theorem Continues.preserves (hR : Host.Closed R) {part between : Part γ} {s s' : State ω γ}
    {events : Transcript} (h : Continues app part s events between s') (hs : R s.host) :
    R s'.host := by
  cases h with
  | @print text _ _ _ _ _ hprint =>
    have hprinted := onTerminal_preserves (γ := γ)
      (printFor_preserves hR.toClosed .output text) .command s hs
    rw [write] at hprint
    rwa [hprint] at hprinted
  | readLine hread =>
    have hline := onTerminal_preserves (γ := γ) (nextLine_preserves hR.toClosed) .command s hs
    rwa [hread] at hline
  | ask hasks | command hasks => exact asks_preserves hR.toClosed hasks hs
  | update | consult | setFlag | consultFlag | round _ => exact hs
  | nest h | again _ h => exact h.preserves hR hs
  | session => exact opened_preserves hR hs

theorem ComesTo.preserves (hR : Host.Closed R) {part target : Part γ} {s t : State ω γ}
    {before : Transcript} (h : ComesTo app part s before target t) (hs : R s.host) : R t.host := by
  induction h with
  | here => exact hs
  | next h _ ih => exact ih (h.preserves hR hs)
  | inside _ ih => exact ih hs

end Session

end Repl
