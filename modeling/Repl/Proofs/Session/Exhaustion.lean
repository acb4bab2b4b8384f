import Repl.Proofs.Session.Positions

/-!
Reads that find no line. While there are lines, each read takes one. The read after that fails, and
so does every session that goes on with it: as long as commands end with a failed read, a session
that ends well has read no more often than there were lines.
-/

namespace Repl

open Exchange Terminal

variable {τ ω κ γ α β : Type}

/-! ## Questions -/

namespace Terminal

variable [Terminal τ] {P : τ → Prop} {prompt : Bytes} {parse : Bytes → Except Bytes α}

/-- A terminal that counts its lines keeps to its patience. -/
theorem Counted.supply (hP : Counted P) : Supply P where
  closed n :=
    { print := by
        rintro text t ⟨ht, hlt⟩
        obtain ⟨hprinted, hpatience⟩ := hP.print text t ht
        exact ⟨hprinted, hpatience ▸ hlt⟩
      readLine := by
        rintro t ⟨ht, hlt⟩
        obtain ⟨hread, hpatience⟩ := hP.line t ht
        exact ⟨hread, by omega⟩ }
  spend := by
    rintro n t line ⟨ht, hlt⟩ hline
    obtain ⟨hread, hpatience⟩ := hP.line t ht
    have hpos : patience t ≠ 0 := by
      intro hzero
      obtain ⟨message, hnone⟩ := hP.exhausted t ht hzero
      cases hline.symm.trans hnone
    exact ⟨hread, by omega⟩

/-- From the terminals of `P` the exchange leads to such terminals. Each of its reads takes a line,
or else it fails, and no line is left. -/
def Accounts (P : τ → Prop) (x : Exchange Call τ α) : Prop :=
  ∀ t, P t → P (x t).state ∧
    (Call.reads (x t).events + patience (x t).state = patience t ∨
      patience (x t).state = 0 ∧ ∃ message, (x t).outcome = .error message)

theorem Accounts.pure (a : α) : Accounts P (pure a) :=
  fun t ht => ⟨ht, .inl (Nat.zero_add (patience t))⟩

theorem Accounts.bind {x : Exchange Call τ α} {f : α → Exchange Call τ β} (hx : Accounts P x)
    (hf : ∀ a, Accounts P (f a)) : Accounts P (x >>= f) := by
  intro t ht
  obtain ⟨hfirst, hpaid⟩ := hx t ht
  cases h : (x t).outcome with
  | error message =>
    rw [bind_apply_of_error h]
    rw [h] at hpaid
    refine ⟨hfirst, ?_⟩
    cases hpaid with
    | inl hpaid => exact .inl hpaid
    | inr hnone => exact .inr ⟨hnone.1, message, rfl⟩
  | ok a =>
    rw [h] at hpaid
    obtain ⟨hsecond, hpaid'⟩ := hf a _ hfirst
    rw [bind_apply_of_ok h]
    refine ⟨hsecond, ?_⟩
    dsimp only
    rw [Call.reads_append]
    obtain hpaid | ⟨-, message, hfailed⟩ := hpaid
    · cases hpaid' with
      | inl hpaid' =>
        left
        omega
      | inr hnone => exact .inr hnone
    · cases hfailed

theorem printFor_accounts (hP : Counted P) (purpose : Purpose) (text : Bytes) :
    Accounts P (printFor purpose text) := by
  intro t ht
  obtain ⟨hprinted, hpatience⟩ := hP.print text t ht
  rw [printFor_apply]
  refine ⟨hprinted, .inl ?_⟩
  dsimp only
  rw [Call.reads_cons_of_not_isRead (Invocation.isRead_ofPrint _ _), hpatience]
  exact Nat.zero_add (patience t)

theorem nextLine_accounts (hP : Counted P) : Accounts P (nextLine : Exchange Call τ Bytes) := by
  intro t ht
  obtain ⟨hread, hpatience⟩ := hP.line t ht
  rw [nextLine_apply]
  refine ⟨hread, ?_⟩
  dsimp only
  rw [Call.reads_cons_of_isRead (Invocation.isRead_ofRead _), hpatience]
  by_cases hzero : patience t = 0
  · exact .inr ⟨by omega, hP.exhausted t ht hzero⟩
  · left
    show 0 + 1 + (patience t - 1) = patience t
    omega

theorem askOnce_accounts (hP : Counted P) :
    Accounts P (askOnce prompt parse : Exchange Call τ (Option α)) := by
  refine .bind (printFor_accounts hP _ _) fun _ => .bind (nextLine_accounts hP) fun line => ?_
  cases parse (Text.trim line) with
  | ok value => exact .pure _
  | error reason => exact .bind (printFor_accounts hP _ _) fun _ => .pure none

theorem Asks.accounts (hP : Counted P) {t : τ} {answer : Reply Call τ α} (ht : P t)
    (h : Asks prompt parse t answer) :
    P answer.state ∧
      (Call.reads answer.events + patience answer.state = patience t ∨
        patience answer.state = 0 ∧ ∃ message, answer.outcome = .error message) := by
  have honce : Accounts P (askOnce prompt parse : Exchange Call τ (Option α)) := askOnce_accounts hP
  induction h with
  | @failed t _ message _ hround =>
    have hafter := honce t ht
    rw [hround] at hafter
    obtain ⟨hstate, hpaid | ⟨hzero, -⟩⟩ := hafter
    · exact ⟨hstate, .inl hpaid⟩
    · exact ⟨hstate, .inr ⟨hzero, message, rfl⟩⟩
  | @answered t _ _ _ hround =>
    have hafter := honce t ht
    rw [hround] at hafter
    obtain ⟨hstate, hpaid | ⟨-, message, hfailed⟩⟩ := hafter
    · exact ⟨hstate, .inl hpaid⟩
    · cases hfailed
  | @again t _ _ answer hround _ ih =>
    have hafter := honce t ht
    rw [hround] at hafter
    obtain ⟨hrefused, hpaid | ⟨-, message, hfailed⟩⟩ := hafter
    · obtain ⟨hstate, hrest⟩ := ih hrefused
      refine ⟨hstate, ?_⟩
      rw [Reply.after_events, Reply.after_state, Reply.after_outcome, Call.reads_append]
      cases hrest with
      | inl hrest =>
        left
        dsimp only at hpaid
        omega
      | inr hnone => exact .inr hnone
    · cases hfailed

/-- Where there is no line, a question has no answer. -/
theorem Asks.error_of_exhausted (hP : Supply P) {t : τ} {answer : Reply Call τ α} (ht : P t)
    (hzero : patience t = 0) (h : Asks prompt parse t answer) :
    ∃ message, answer.outcome = .error message := by
  have hone : Within P 1 t := ⟨ht, by omega⟩
  obtain rfl := h.unique (asks_readValue hP hone)
  cases houtcome : (readValue prompt parse t).outcome with
  | error message => exact ⟨message, rfl⟩
  | ok value =>
    have hnone : Within P 0 (readValue prompt parse t).state :=
      readValueWithin_spends hP hone houtcome
    exact absurd hnone.2 (Nat.not_lt_zero _)

end Terminal

/-! ## Sessions -/

/-- The command ends with the first read that fails, or with the first session inside that does. It
reads nothing after it has set the flag or run a session. -/
inductive Action.EndsOnFailedRead : Action γ → Prop where
  | finish {result : ApplyResult} : EndsOnFailedRead (.finish result)
  | print {text : Bytes} {next : Except Bytes Unit → Action γ}
    (rest : ∀ outcome, EndsOnFailedRead (next outcome)) : EndsOnFailedRead (.print text next)
  | readLine {next : Except Bytes Bytes → Action γ}
    (hfail : ∀ message, ∃ result, next (.error message) = .finish result)
    (rest : ∀ line, EndsOnFailedRead (next (.ok line))) : EndsOnFailedRead (.readLine next)
  | ask {prompt : Bytes} {parse : Bytes → Except Bytes Value} {next : Except Bytes Value → Action γ}
    (hfail : ∀ message, ∃ result, next (.error message) = .finish result)
    (rest : ∀ value, EndsOnFailedRead (next (.ok value))) :
    EndsOnFailedRead (.ask prompt parse next)
  | update {f : γ → γ} {next : Action γ} (rest : EndsOnFailedRead next) :
    EndsOnFailedRead (.update f next)
  | consult {next : γ → Action γ} (rest : ∀ context, EndsOnFailedRead (next context)) :
    EndsOnFailedRead (.consult next)
  | setFlag {flag : RunFlag} {next : Action γ} (hquiet : next.AsksAtMost 0) :
    EndsOnFailedRead (.setFlag flag next)
  | consultFlag {next : RunFlag → Action γ} (rest : ∀ flag, EndsOnFailedRead (next flag)) :
    EndsOnFailedRead (.consultFlag next)
  | nest {next : Except Bytes Unit → Action γ}
    (hfail : ∀ message, ∃ result, next (.error message) = .finish result)
    (hquiet : (next (.ok ())).AsksAtMost 0) : EndsOnFailedRead (.nest next)

theorem Host.Counted.supply [Host ω] {P : ω → Prop} (hP : Host.Counted P) : Host.Supply P where
  toSupply := hP.toCounted.supply
  log := by
    rintro n e h ⟨hh, hlt⟩
    obtain ⟨hlogged, hpatience⟩ := hP.log e h hh
    exact ⟨hlogged, hpatience ▸ hlt⟩

theorem Host.Counted.hostClosed [Host ω] {P : ω → Prop} (hP : Host.Counted P) : Host.Closed P where
  print text h hh := (hP.print text h hh).1
  readLine h hh := (hP.line h hh).1
  log e h hh := (hP.log e h hh).1

namespace Session

variable [Host ω] {P : ω → Prop} {app : Application κ γ}

/-- Each read among the events, from one state to another, takes a line. -/
def Covered (s : State ω γ) (events : Transcript) (s' : State ω γ) : Prop :=
  Transcript.reads events + patience s'.host = patience s.host

/-- The session is about to read, and no line is left. -/
def Overdrawn (s : State ω γ) : Prop :=
  s.flag = .running ∧ patience s.host = 0

theorem Covered.append {s s' s'' : State ω γ} {events others : Transcript}
    (h : Covered s events s') (h' : Covered s' others s'') : Covered s (events ++ others) s'' := by
  unfold Covered at h h' ⊢
  rw [Transcript.reads_append]
  omega

/-- Where no line is left, none is taken. -/
theorem Overdrawn.covered {s s' : State ω γ} {events : Transcript} (h : Overdrawn s)
    (hcovered : Covered s events s') (hflag : s'.flag = s.flag) : Overdrawn s' := by
  obtain ⟨hrunning, hnone⟩ := h
  unfold Covered at hcovered
  exact ⟨hflag.trans hrunning, by omega⟩

theorem Covered.nested {s s' : State ω γ} {events : Transcript} (h : Covered s events s') :
    Covered s (events.map .nested) s' := by
  rwa [Covered, Transcript.reads_nested]

theorem covered_of_isLog {t : Transcript} {s s' : State ω γ} (h : t.IsLog)
    (hpatience : patience s'.host = patience s.host) : Covered s t s' := by
  unfold Covered
  rw [h.reads_eq_zero, hpatience]
  exact Nat.zero_add _

theorem covered_nil (s : State ω γ) : Covered s [] s :=
  covered_of_isLog Transcript.isLog_nil rfl

theorem log_covered (hP : Host.Counted P) (level : Log.Level) (message : Bytes) {s : State ω γ}
    (hs : P s.host) : Covered s (log level message s).events (log level message s).state :=
  covered_of_isLog (isLog_log level message s) (hP.log ⟨level, category, message⟩ s.host hs).2

theorem write_covered (hP : Host.Counted P) {event : Call → Event} (hevent : Event.Uses event)
    (text : Bytes) {s : State ω γ} (hs : P s.host) :
    Covered s (onTerminal event (write text) s).events (onTerminal event (write text) s).state := by
  rw [onTerminal_apply, Covered, Transcript.reads_map hevent, write, printFor_apply]
  dsimp only
  rw [Call.reads_cons_of_not_isRead (Invocation.isRead_ofPrint _ _), (hP.print text s.host hs).2]
  exact Nat.zero_add _

/-- What a session makes of a result reads nothing, and leaves the flag as it is. -/
theorem conclude_covered (hP : Host.Counted P) (result : ApplyResult) {s : State ω γ}
    (hs : P s.host) :
    Covered s (conclude result s).events (conclude result s).state ∧
      (conclude result s).state.flag = s.flag := by
  cases result with
  | applied | skipped | accessTerminalError message => exact ⟨covered_nil s, rfl⟩
  | applicationError message data =>
    rw [conclude_applicationError]
    have hlogged := log_preserves hP.hostClosed .warning (errorReport message) s hs
    have hreport := write_covered hP Event.uses_loop
      (Text.withNewline (errorReport message ++ ascii ".")) hlogged
    exact ⟨(log_covered hP _ _ hs).append hreport, rfl⟩

theorem closing_covered (hP : Host.Counted P) (outcome : Except Bytes Unit) {s : State ω γ}
    (hs : P s.host) :
    Covered s (closing outcome s).events (closing outcome s).state := by
  cases outcome with
  | ok _ => exact log_covered hP _ _ hs
  | error message => exact log_covered hP _ _ hs

theorem nextLine_covered (hP : Host.Counted P) {event : Call → Event} (hevent : Event.Uses event)
    {s : State ω γ} (hs : P s.host) :
    let line := onTerminal event nextLine s
    P line.state.host ∧ (Covered s line.events line.state ∨
      patience line.state.host = 0 ∧ ∃ message, line.outcome = .error message) := by
  dsimp only
  rw [onTerminal_apply, Covered, Transcript.reads_map hevent]
  exact nextLine_accounts hP.toCounted s.host hs

/-- A question, asked by a session or by its commands. -/
theorem asks_covered (hP : Host.Counted P) {event : Call → Event} (hevent : Event.Uses event)
    {prompt : Bytes} {parse : Bytes → Except Bytes α} {s : State ω γ} {outcome : Except Bytes α}
    {calls : List Call} {h : ω} (hs : P s.host)
    (hasks : Asks prompt parse s.host ⟨outcome, calls, h⟩) :
    Covered s (calls.map event) { s with host := h } ∨
      patience h = 0 ∧ ∃ message, outcome = .error message := by
  rw [Covered, Transcript.reads_map hevent]
  exact (hasks.accounts hP.toCounted hs).2

/-- A command that reads nothing takes no line. -/
theorem Unfolds.covered_of_quiet (hP : Host.Counted P) {action : Action γ} {s : State ω γ}
    {reply : Reply Event (State ω γ) ApplyResult} (h : Unfolds app (.command action) s reply)
    (hs : P s.host) (hquiet : action.AsksAtMost 0) : Covered s reply.events reply.state := by
  induction action generalizing s reply with
  | finish result =>
    cases h with
    | finish => exact covered_nil s
  | print text next ih =>
    cases hquiet with
    | print hnext =>
      cases h with
      | @print _ _ _ s' outcome events reply hprint rest =>
        have hprinted := write_covered hP Event.uses_command text hs
        have hstate := onTerminal_preserves (γ := γ)
          (printFor_preserves hP.hostClosed.toClosed .output text) .command s hs
        rw [write] at hprint hprinted
        rw [hprint] at hprinted hstate
        exact hprinted.append (ih outcome rest hstate (hnext outcome))
  | readLine next ih => cases hquiet
  | ask prompt parse next ih => cases hquiet
  | update f next ih =>
    cases hquiet with
    | update hnext =>
      cases h with
      | update rest =>
        have hrest := ih rest hs hnext
        exact hrest
  | consult next ih =>
    cases hquiet with
    | consult hnext =>
      cases h with
      | consult rest => exact ih _ rest hs (hnext _)
  | setFlag flag next ih =>
    cases hquiet with
    | setFlag hnext =>
      cases h with
      | setFlag rest =>
        have hrest := ih rest hs hnext
        exact hrest
  | consultFlag next ih =>
    cases hquiet with
    | consultFlag hnext =>
      cases h with
      | consultFlag rest => exact ih _ rest hs (hnext _)
  | nest next ih => cases hquiet

/-- The reply is a failure for want of a line. -/
def Exhausted (reply : Reply Event (State ω γ) α) : Prop :=
  Overdrawn reply.state ∧ ∃ message, reply.outcome = .error message

/-- What a part of a session comes to, where commands end with a failed read: each of its reads
takes a line, or the session cannot go on. -/
def KeepsAccount (s : State ω γ) : (part : Part γ) → Reply Event (State ω γ) part.Yield → Prop
  | .command action, reply =>
    action.EndsOnFailedRead → s.flag = .running →
      Covered s reply.events reply.state ∨ Overdrawn reply.state
  | .round _, reply =>
    s.flag = .running →
      (Covered s reply.events reply.state ∨ Overdrawn reply.state) ∧
        (patience s.host = 0 → Exhausted reply)
  | .rounds _, reply =>
    (Covered s reply.events reply.state ∨ Exhausted reply) ∧ (Overdrawn s → Exhausted reply)
  | .session, reply => Covered s reply.events reply.state ∨ Exhausted reply

/-- What a command comes to, by what a step of it and the rest do. -/
theorem account_after {s s' : State ω γ} {events : Transcript} {reply : Reply Event (State ω γ) α}
    (h : Covered s events s')
    (hrest : Covered s' reply.events reply.state ∨ Overdrawn reply.state) :
    Covered s (reply.after events).events (reply.after events).state ∨
      Overdrawn (reply.after events).state := by
  cases hrest with
  | inl hcovered => exact .inl (h.append hcovered)
  | inr hover => exact .inr hover

/-- After a use of the terminal a command has ended, or it goes on. -/
theorem account_after_use {next : Except Bytes α → Action γ} {s s' : State ω γ}
    {outcome : Except Bytes α} {events : Transcript} {reply : Reply Event (State ω γ) ApplyResult}
    (huse : Covered s events s' ∨ patience s'.host = 0 ∧ ∃ message, outcome = .error message)
    (hflag : s'.flag = .running)
    (hfail : ∀ message, ∃ result, next (.error message) = .finish result)
    (rest : Unfolds app (.command (next outcome)) s' reply)
    (hrest : (∃ value, outcome = .ok value) →
      Covered s' reply.events reply.state ∨ Overdrawn reply.state) :
    Covered s (reply.after events).events (reply.after events).state ∨
      Overdrawn (reply.after events).state := by
  cases outcome with
  | error message =>
    obtain ⟨result, hfinish⟩ := hfail message
    rw [hfinish] at rest
    cases rest with
    | finish =>
      cases huse with
      | inl hcovered => exact .inl (hcovered.append (covered_nil s'))
      | inr hnone => exact .inr ⟨hflag, hnone.1⟩
  | ok value =>
    obtain hcovered | ⟨-, message, hfailed⟩ := huse
    · exact account_after hcovered (hrest ⟨value, rfl⟩)
    · cases hfailed

theorem Unfolds.keepsAccount (hP : Host.Counted P)
    (hactions : ∀ command, (app.action command).EndsOnFailedRead) {part : Part γ} {s : State ω γ}
    {reply : Reply Event (State ω γ) part.Yield} (h : Unfolds app part s reply) (hs : P s.host) :
    KeepsAccount s part reply := by
  induction h with
  | finish => exact fun _ _ => .inl (covered_nil _)
  | @print text next s s' outcome events reply hprint rest ih =>
    intro hends hflag
    have hprinted := write_covered hP Event.uses_command text hs
    have hstate := (hP.print text s.host hs).1
    rw [write, onTerminal_apply, printFor_apply] at hprint hprinted
    cases hprint
    cases hends with
    | print hnext => exact account_after hprinted (ih hstate (hnext _) hflag)
  | @readLine next s s' outcome events reply hread rest ih =>
    intro hends hflag
    obtain ⟨hstate, huse⟩ := nextLine_covered hP Event.uses_command hs
    rw [onTerminal_apply] at hread huse
    cases hread
    cases hends with
    | readLine hfail hnext =>
      apply account_after_use huse hflag hfail rest
      rintro ⟨line, hline⟩
      exact ih hstate (hline ▸ hnext line) hflag
  | @ask prompt parse next s outcome calls h reply hasks rest ih =>
    intro hends hflag
    have huse := asks_covered hP Event.uses_command hs hasks
    have hstate := (hasks.accounts hP.toCounted hs).1
    cases hends with
    | ask hfail hnext =>
      apply account_after_use huse hflag hfail rest
      rintro ⟨value, rfl⟩
      exact ih hstate (hnext value) hflag
  | update rest ih =>
    intro hends hflag
    cases hends with
    | update hnext => exact ih hs hnext hflag
  | consult rest ih =>
    intro hends hflag
    cases hends with
    | consult hnext => exact ih hs (hnext _) hflag
  | setFlag rest ih =>
    intro hends _
    cases hends with
    | setFlag hquiet => exact .inl (rest.covered_of_quiet hP hs hquiet)
  | consultFlag rest ih =>
    intro hends hflag
    cases hends with
    | consultFlag hnext => exact ih hs (hnext _) hflag
  | @nest next s s' outcome events reply hinner rest ihinner ih =>
    intro hends _
    have hstate := hinner.preserves hP.hostClosed hs
    cases hends with
    | nest hfail hquiet =>
      cases outcome with
      | error message =>
        obtain ⟨result, hfinish⟩ := hfail message
        rw [hfinish] at rest
        cases rest with
        | finish =>
          cases ihinner hs with
          | inl hcovered => exact .inl (hcovered.nested.append (covered_nil s'))
          | inr hexhausted => exact .inr hexhausted.1
      | ok _ =>
        obtain hcovered | ⟨-, message, hfailed⟩ := ihinner hs
        · exact .inl (hcovered.nested.append (rest.covered_of_quiet hP hstate hquiet))
        · cases hfailed
  | @unread _ s message calls h hasks =>
    intro hflag
    have huse := asks_covered hP Event.uses_loop hs hasks
    refine ⟨huse.imp_right fun hnone => ⟨hflag, hnone.1⟩, fun hzero => ?_⟩
    refine ⟨⟨hflag, ?_⟩, message, rfl⟩
    cases huse with
    | inl hcovered =>
      unfold Covered at hcovered
      dsimp only at hcovered ⊢
      omega
    | inr hnone => exact hnone.1
  | @applied last s s' command calls h result events hasks hcommand ih =>
    intro hflag
    have hstate := (hasks.accounts hP.toCounted hs).1
    have happlied := hcommand.preserves hP.hostClosed hstate
    obtain ⟨hconcluded, hkept⟩ := conclude_covered hP result happlied
    have hresult : Covered s' [.applied result s'.flag] s' := covered_nil s'
    constructor
    · obtain hread | ⟨-, message, hfailed⟩ := asks_covered hP Event.uses_loop hs hasks
      · cases ih hstate (hactions command) hflag with
        | inl hcovered => exact .inl (((hread.append hcovered).append hresult).append hconcluded)
        | inr hover => exact .inr (hover.covered hconcluded hkept)
      · cases hfailed
    · intro hzero
      obtain ⟨message, hfailed⟩ := hasks.error_of_exhausted hP.supply.toSupply hs hzero
      cases hfailed
  | stopped hflag =>
    refine ⟨.inl (covered_nil _), fun hover => ?_⟩
    cases hflag.symm.trans hover.1
  | @failed _ _ _ message _ hflag hround ih =>
    obtain ⟨hpaid, hexhausted⟩ := ih hs hflag
    constructor
    · exact hpaid.imp_right fun hover => ⟨hover, message, rfl⟩
    · intro hover
      exact ⟨(hexhausted hover.2).1, message, rfl⟩
  | again hflag hround rest ihround ih =>
    obtain ⟨hpaid, hexhausted⟩ := ihround hs hflag
    obtain ⟨hrest, hgone⟩ := ih (hround.preserves hP.hostClosed hs)
    constructor
    · cases hpaid with
      | inl hcovered => exact hrest.imp_left hcovered.append
      | inr hover => exact .inr (hgone hover)
    · intro hover
      exact hgone (hexhausted hover.2).1
  | @session s cycle hrounds ih =>
    have hopened := opened_preserves hP.hostClosed hs
    have hcycle := hrounds.preserves hP.hostClosed hopened
    have hclosing := closing_covered hP cycle.outcome hcycle
    have hopening : Covered s _ (opened s) := log_covered hP .debug (ascii "Session started.") hs
    rw [bracket_const_eq]
    obtain hcovered | ⟨hover, hfailed⟩ := (ih hopened).1
    · exact .inl (hopening.append (hcovered.append hclosing))
    · exact .inr ⟨hover.covered hclosing (closing_flag _ _), hfailed⟩

/-- A session that ends well has taken a line by each of its reads. -/
theorem run_covered (hP : Host.Counted P)
    (hactions : ∀ command, (app.action command).EndsOnFailedRead) {s : State ω γ} (hs : P s.host)
    (hok : (run app s).outcome = .ok ()) :
    Transcript.reads (run app s).events + patience (run app s).state.host = patience s.host := by
  have hrun : Unfolds app .session s (run app s) := unfolds_run hP.supply hs
  obtain hcovered | ⟨-, message, hfailed⟩ := hrun.keepsAccount hP hactions hs
  · exact hcovered
  · cases hok.symm.trans hfailed

end Session

end Repl
