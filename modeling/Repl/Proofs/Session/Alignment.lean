import Repl.Proofs.Session.Calls

/-!
Two sessions of one application side by side, on hosts that differ. If every use of the hosts keeps
them aligned, so does a whole session: the other one comes to the same outcome and leaves the same
context and flag, unless the first has done something after which they part.
-/

namespace Repl

open Exchange Terminal

variable {ω κ γ α β K : Type}

/-- What a host gives, as a reply in a session. -/
def Reply.within (event : Call → Event) (s : Session.State ω γ) (reply : Reply Call ω α) :
    Reply Event (Session.State ω γ) α :=
  ⟨reply.outcome, reply.events.map event, { s with host := reply.state }⟩

theorem Reply.eq_mk {ε σ : Type} {reply : Reply ε σ α} {outcome : Except Bytes α}
    (h : reply.outcome = outcome) : reply = ⟨outcome, reply.events, reply.state⟩ :=
  h ▸ rfl

namespace Terminal

variable {τ : Type} [Terminal τ]

/-- Reads a line, and takes off the white space around it. -/
def nextTrimmed : Exchange Call τ Bytes := do
  let line ← nextLine
  pure (Text.trim line)

theorem nextTrimmed_bind {β : Type} (f : Bytes → Exchange Call τ β) :
    nextTrimmed >>= f = nextLine >>= fun line => f (Text.trim line) := by
  simp only [nextTrimmed, bind_assoc, pure_bind]

/-- A round of a question sees of its line what is left without the white space around it. -/
theorem askOnce_eq_nextTrimmed (prompt : Bytes) (parse : Bytes → Except Bytes α) :
    (askOnce prompt parse : Exchange Call τ (Option α)) =
      (printFor .prompt prompt >>= fun _ => nextTrimmed >>= fun text =>
        match parse text with
        | .ok value => pure (some value)
        | .error reason => printFor .complaint (complaint reason) >>= fun _ => pure none) := by
  symm
  exact congrArg (printFor .prompt prompt >>= ·) (funext fun _ => nextTrimmed_bind _)

end Terminal

/-- How two sessions are aligned, stage by stage. `Hosts` relates their hosts at a stage, and
`Events` the events that lead both from one stage to another. `Parted` holds of what the first
session may do, from a stage on, after which nothing is said of the other any more. -/
structure Alignment (ω K : Type) where
  Hosts : K → ω → ω → Prop
  Events : K → Transcript → Transcript → K → Prop
  Parted : K → Transcript → Prop

namespace Alignment

variable {A : Alignment ω K} {event : Call → Event} {k k' : K} {h h' : ω}

/-- The host gives the same in both sessions, which leads to the stage `k'`. -/
structure Alike (A : Alignment ω K) (event : Call → Event) (k : K) (reply other : Reply Call ω α)
    (k' : K) : Prop where
  outcome : other.outcome = reply.outcome
  events : A.Events k (reply.events.map event) (other.events.map event) k'
  hosts : A.Hosts k' reply.state other.state

/-- The first host fails, and the sessions part. -/
structure Breaks (A : Alignment ω K) (event : Call → Event) (k : K) (reply : Reply Call ω α) :
    Prop where
  outcome : ∃ message, reply.outcome = .error message
  events : A.Parted k (reply.events.map event)

/-- The host gives the same in both sessions, unless it fails and the sessions part. -/
def Goes (A : Alignment ω K) (event : Call → Event) (k : K) (reply other : Reply Call ω α) : Prop :=
  (∃ k', A.Alike event k reply other k') ∨ A.Breaks event k reply

/-- The first session is refused a line, and the other one does nothing. -/
structure Skips (A : Alignment ω K) (event : Call → Event) (k : K)
    (reply : Reply Call ω (Option α)) (h' : ω) (k' : K) : Prop where
  outcome : reply.outcome = .ok none
  events : A.Events k (reply.events.map event) [] k'
  hosts : A.Hosts k' reply.state h'

/-- Events can be put together from their parts. What follows events that part the sessions is the
start of another part of the session. -/
structure Composes (A : Alignment ω K) : Prop where
  nil : ∀ k, A.Events k [] [] k
  append : ∀ {k k' k'' t u t' u'}, A.Events k t u k' → A.Events k' t' u' k'' →
    A.Events k (t ++ t') (u ++ u') k''
  nested : ∀ {k k' t u}, A.Events k t u k' → A.Events k (t.map .nested) (u.map .nested) k'
  applied : ∀ k result flag, A.Events k [.applied result flag] [.applied result flag] k
  parted_append : ∀ {k t t'}, A.Parted k t → Transcript.Fresh t' → A.Parted k (t ++ t')
  append_parted : ∀ {k k' t u t'}, A.Events k t u k' → A.Parted k' t' → A.Parted k (t ++ t')
  parted_nested : ∀ {k t}, A.Parted k t → A.Parted k (t.map .nested)

theorem Composes.goes_pure (hA : A.Composes) (a : α) (hh : A.Hosts k h h') :
    A.Goes event k ((pure a : Exchange Call ω α) h) ((pure a : Exchange Call ω α) h') :=
  .inl ⟨k, rfl, hA.nil k, hh⟩

theorem Alike.bind (hA : A.Composes) {x : Exchange Call ω α} {f : α → Exchange Call ω β}
    (hx : A.Alike event k (x h) (x h') k')
    (hf : ∀ a, A.Goes event k' (f a (x h).state) (f a (x h').state)) :
    A.Goes event k ((x >>= f) h) ((x >>= f) h') := by
  cases ho : (x h).outcome with
  | error message =>
    rw [bind_apply_of_error ho, bind_apply_of_error (hx.outcome.trans ho)]
    exact .inl ⟨k', rfl, hx.events, hx.hosts⟩
  | ok a =>
    rw [bind_apply_of_ok ho, bind_apply_of_ok (hx.outcome.trans ho)]
    rcases hf a with ⟨k'', hrest⟩ | hrest
    · refine .inl ⟨k'', hrest.outcome, ?_, hrest.hosts⟩
      simp only [List.map_append]
      exact hA.append hx.events hrest.events
    · refine .inr ⟨hrest.outcome, ?_⟩
      simp only [List.map_append]
      exact hA.append_parted hx.events hrest.events

theorem Breaks.bind {x : Exchange Call ω α} {f : α → Exchange Call ω β}
    (hx : A.Breaks event k (x h)) : A.Breaks event k ((x >>= f) h) := by
  obtain ⟨message, ho⟩ := hx.outcome
  rw [bind_apply_of_error ho]
  exact ⟨⟨message, rfl⟩, hx.events⟩

section

variable [Host ω]

/-- Prints keep the stage. -/
def Prints (A : Alignment ω K) : Prop :=
  ∀ {k h h' event} purpose text, Event.Uses event → A.Hosts k h h' →
    A.Alike event k (printFor purpose text h) (printFor purpose text h') k ∨
      A.Breaks event k (printFor purpose text h)

/-- A round of a question goes alike if its line does, without the white space around it. -/
theorem Composes.goes_askOnce_of_trimmed (hA : A.Composes) (hprint : A.Prints)
    (hevent : Event.Uses event)
    (hline : ∀ {h h'}, A.Hosts k h h' → A.Goes event k (nextTrimmed h) (nextTrimmed h'))
    (prompt : Bytes) (parse : Bytes → Except Bytes α) (hh : A.Hosts k h h') :
    A.Goes event k (askOnce prompt parse h) (askOnce prompt parse h') := by
  rw [askOnce_eq_nextTrimmed]
  rcases hprint .prompt prompt hevent hh with hprompt | hprompt
  · refine hprompt.bind hA fun _ => ?_
    rcases hline hprompt.hosts with ⟨k', hline⟩ | hline
    · refine hline.bind hA fun text => ?_
      cases parse text with
      | ok value => exact hA.goes_pure _ hline.hosts
      | error reason =>
        rcases hprint .complaint (complaint reason) hevent hline.hosts with hrefused | hrefused
        · exact hrefused.bind hA fun _ => hA.goes_pure _ hrefused.hosts
        · exact .inr hrefused.bind
    · exact .inr hline.bind
  · exact .inr hprompt.bind

/-- A round of a question goes alike if its line does. -/
theorem Composes.goes_askOnce (hA : A.Composes) (hprint : A.Prints) (hevent : Event.Uses event)
    (hline : ∀ {h h'}, A.Hosts k h h' → A.Goes event k (nextLine h) (nextLine h'))
    (prompt : Bytes) (parse : Bytes → Except Bytes α) (hh : A.Hosts k h h') :
    A.Goes event k (askOnce prompt parse h) (askOnce prompt parse h') := by
  refine hA.goes_askOnce_of_trimmed hprint hevent (fun hh => ?_) prompt parse hh
  rcases hline hh with ⟨k', hline⟩ | hline
  · exact hline.bind hA fun line => hA.goes_pure _ hline.hosts
  · exact .inr hline.bind

/-- What an entry adds to the events. -/
def notes (entry : Log.Entry) (h : ω) : Transcript :=
  if (Host.log entry h).1 then [.logged entry] else []

/-- Prints, questions and log entries keep the hosts aligned, or part the sessions. A line may be
skipped if it is refused. -/
structure LawfulAsking (A : Alignment ω K) : Prop extends Composes A where
  print : A.Prints
  round : ∀ {α k h h' event} (prompt : Bytes) (parse : Bytes → Except Bytes α),
    Event.Uses event → A.Hosts k h h' →
      (∃ k', A.Alike event k (askOnce prompt parse h) (askOnce prompt parse h') k') ∨
        (∃ k', A.Skips event k (askOnce prompt parse h) h' k') ∨
          A.Parted k ((askOnce prompt parse h).events.map event)
  log : ∀ {k h h'} entry, A.Hosts k h h' →
    A.Events k (notes entry h) (notes entry h') k ∧
      A.Hosts k (Host.log entry h).2 (Host.log entry h').2

/-- So do reads outside of questions. -/
def Reads (A : Alignment ω K) : Prop :=
  ∀ ⦃k h h' event⦄, Event.Uses event → A.Hosts k h h' →
    (∃ k', A.Alike event k (nextLine h) (nextLine h') k') ∨
      A.Parted k ((nextLine h).events.map event)

/-- Every use of the hosts keeps them aligned, or parts the sessions. -/
structure Lawful (A : Alignment ω K) : Prop extends LawfulAsking A where
  line : A.Reads

end

/-! ## Sessions side by side -/

/-- The sessions are in states that differ in the hosts only. -/
structure States (A : Alignment ω K) (k : K) (s s' : Session.State ω γ) : Prop where
  hosts : A.Hosts k s.host s'.host
  context : s'.context = s.context
  flag : s'.flag = s.flag

/-- One of the other replies is aligned with the first one, unless the sessions part. -/
def Follows (A : Alignment ω K) (k : K) (reply : Reply Event (Session.State ω γ) α)
    (others : Reply Event (Session.State ω γ) α → Prop) : Prop :=
  (∃ other k', others other ∧ other.outcome = reply.outcome ∧
      A.Events k reply.events other.events k' ∧ A.States k' reply.state other.state) ∨
    A.Parted k reply.events

variable {s s' : Session.State ω γ}

theorem States.withHost (hs : A.States k s s') (hh : A.Hosts k' h h') :
    A.States k' { s with host := h } { s' with host := h' } :=
  ⟨hh, hs.context, hs.flag⟩

theorem Follows.mono {reply : Reply Event (Session.State ω γ) α}
    {others others' : Reply Event (Session.State ω γ) α → Prop} (h : A.Follows k reply others)
    (hothers : ∀ other, others other → others' other) : A.Follows k reply others' := by
  rcases h with ⟨other, k', hother, haligned⟩ | hparted
  · exact .inl ⟨other, k', hothers other hother, haligned⟩
  · exact .inr hparted

theorem Composes.follows_nil (hA : A.Composes) (hs : A.States k s s') (outcome : Except Bytes α) :
    A.Follows k ⟨outcome, [], s⟩ (· = ⟨outcome, [], s'⟩) :=
  .inl ⟨_, k, rfl, rfl, hA.nil k, hs⟩

/-- One part of a session after another. -/
theorem Follows.bind (hA : A.Composes) {first : Reply Event (Session.State ω γ) β}
    {firsts : Reply Event (Session.State ω γ) β → Prop} {rest : Reply Event (Session.State ω γ) α}
    {others : Reply Event (Session.State ω γ) α → Prop} (hfirst : A.Follows k first firsts)
    (hfresh : Transcript.Fresh rest.events)
    (hrest : ∀ {first' k'}, firsts first' → first'.outcome = first.outcome →
      A.States k' first.state first'.state →
        A.Follows k' rest fun rest' => others (rest'.after first'.events)) :
    A.Follows k (rest.after first.events) others := by
  rcases hfirst with ⟨first', k', hfirst', houtcome, hevents, hstates⟩ | hparted
  · rcases hrest hfirst' houtcome hstates with ⟨rest', k'', hrest', haligned⟩ | hparted
    · obtain ⟨houtcome', hevents', hstates'⟩ := haligned
      exact .inl ⟨_, k'', hrest', houtcome', hA.append hevents hevents', hstates'⟩
    · exact .inr (hA.append_parted hevents hparted)
  · exact .inr (hA.parted_append hparted hfresh)

theorem Follows.nested (hA : A.Composes) {outcome : Except Bytes α} {events : Transcript}
    {others : Reply Event (Session.State ω γ) α → Prop}
    (h : A.Follows k ⟨outcome, events, s⟩ others) :
    A.Follows k ⟨outcome, events.map .nested, s⟩ fun reply =>
      ∃ events', others ⟨outcome, events', reply.state⟩ ∧
        reply = ⟨outcome, events'.map .nested, reply.state⟩ := by
  rcases h with ⟨⟨outcome', events', s'⟩, k', hother, houtcome, hevents, hstates⟩ | hparted
  · obtain rfl : outcome' = outcome := houtcome
    exact .inl ⟨⟨outcome', events'.map .nested, s'⟩, k', ⟨events', hother, rfl⟩, rfl,
      hA.nested hevents, hstates⟩
  · exact .inr (hA.parted_nested hparted)

theorem Alike.follows {reply other : Reply Call ω α} (h : A.Alike event k reply other k')
    (hs : A.States k s s') : A.Follows k (reply.within event s) (· = other.within event s') :=
  .inl ⟨_, k', rfl, h.outcome, h.events, hs.withHost h.hosts⟩

variable [Host ω] {app : Application κ γ}

theorem LawfulAsking.follows_log (hA : A.LawfulAsking) (hs : A.States k s s') (level : Log.Level)
    (message : Bytes) :
    A.Follows k (Session.log level message s) (· = Session.log level message s') := by
  have ⟨hevents, hhosts⟩ := hA.log ⟨level, Session.category, message⟩ hs.hosts
  exact .inl ⟨_, k, rfl, rfl, hevents, hs.withHost hhosts⟩

theorem LawfulAsking.follows_write (hA : A.LawfulAsking) (hevent : Event.Uses event) (hs : A.States k s s')
    (text : Bytes) :
    A.Follows k (Session.onTerminal event (write text) s)
      (· = Session.onTerminal event (write text) s') := by
  rcases hA.print .output text hevent hs.hosts with hwritten | hbroken
  · exact hwritten.follows hs
  · exact .inr hbroken.events

theorem Reads.follows_line (hread : A.Reads) (hevent : Event.Uses event) (hs : A.States k s s') :
    A.Follows k (Session.onTerminal event nextLine s)
      (· = Session.onTerminal event nextLine s') := by
  rcases hread hevent hs.hosts with ⟨k', halike⟩ | hparted
  · exact halike.follows hs
  · exact .inr hparted

/-- A round goes in the other session as in the first, or not at all. -/
theorem LawfulAsking.follows_round (hA : A.LawfulAsking) (hevent : Event.Uses event) (prompt : Bytes)
    (parse : Bytes → Except Bytes α) {t : ω} (hs : A.States k { s with host := t } s') :
    A.Follows k ((askOnce prompt parse t).within event s) fun reply =>
      reply = (askOnce prompt parse s'.host).within event s' ∨ reply = ⟨.ok none, [], s'⟩ := by
  rcases hA.round prompt parse hevent hs.hosts with ⟨k', halike⟩ | ⟨k', hskips⟩ | hparted
  · exact (halike.follows hs).mono fun _ => .inl
  · exact .inl ⟨_, k', .inr rfl, hskips.outcome.symm, hskips.events, hs.withHost hskips.hosts⟩
  · exact .inr hparted

/-- A question goes in the other session as in the first, but for the rounds that it skips. -/
theorem LawfulAsking.follows_asks (hA : A.LawfulAsking) (hevent : Event.Uses event) {prompt : Bytes}
    {parse : Bytes → Except Bytes α} {t : ω} {answer : Reply Call ω α}
    (h : Asks prompt parse t answer) (hs : A.States k { s with host := t } s') :
    A.Follows k (answer.within event s) fun reply =>
      ∃ answer', Asks prompt parse s'.host answer' ∧ reply = answer'.within event s' := by
  induction h generalizing k s' with
  | @failed t t' message calls hround =>
    have hfirst := hA.follows_round hevent prompt parse hs
    rw [hround] at hfirst
    rcases hfirst with ⟨other, k', rfl | rfl, houtcome, haligned⟩ | hparted
    · exact .inl ⟨_, k', ⟨_, .failed (Reply.eq_mk houtcome), rfl⟩, rfl, haligned⟩
    · cases houtcome
    · exact .inr hparted
  | @answered t t' value calls hround =>
    have hfirst := hA.follows_round hevent prompt parse hs
    rw [hround] at hfirst
    rcases hfirst with ⟨other, k', rfl | rfl, houtcome, haligned⟩ | hparted
    · exact .inl ⟨_, k', ⟨_, .answered (Reply.eq_mk houtcome), rfl⟩, rfl, haligned⟩
    · cases houtcome
    · exact .inr hparted
  | @again t t' calls answer hround rest ih =>
    have hfirst := hA.follows_round hevent prompt parse hs
    rw [hround] at hfirst
    have hsplit : (answer.after calls).within event s =
        (answer.within event s).after (calls.map event) := by
      simp only [Reply.within, Reply.after, List.map_append]
    rw [hsplit]
    refine Follows.bind hA.toComposes hfirst (rest.fresh hevent) ?_
    intro first' k' hfirst' houtcome hstates
    refine (ih hstates).mono ?_
    rintro _ ⟨answer', hanswer', rfl⟩
    rcases hfirst' with rfl | rfl
    · refine ⟨_, .again (Reply.eq_mk houtcome) hanswer', ?_⟩
      simp only [Reply.within, Reply.after, List.map_append]
    · exact ⟨answer', hanswer', rfl⟩

theorem LawfulAsking.follows_conclude (hA : A.LawfulAsking) (hs : A.States k s s') (result : ApplyResult) :
    A.Follows k (Session.conclude result s) (· = Session.conclude result s') := by
  cases result with
  | applied => exact hA.follows_nil hs (.ok LastOutcome.applied)
  | skipped => exact hA.follows_nil hs (.ok LastOutcome.skipped)
  | accessTerminalError message => exact hA.follows_nil hs (.error message)
  | applicationError message data =>
    rw [Session.conclude_applicationError, Session.conclude_applicationError]
    have hlogged := hA.follows_log hs .warning (Session.errorReport message)
    show A.Follows k (Reply.after _ ⟨_, _, _⟩) _
    refine hlogged.bind hA.toComposes (Session.write_fresh Event.uses_loop _ _) ?_
    rintro _ k' rfl - hs₁
    have hreported := hA.follows_write Event.uses_loop hs₁
      (Text.withNewline (Session.errorReport message ++ ascii "."))
    rcases hreported with ⟨_, k'', rfl, houtcome, haligned⟩ | hparted
    · exact .inl ⟨⟨_, _, _⟩, k'', rfl, congrArg (Except.map _) houtcome, haligned⟩
    · exact .inr hparted

/-- A command's result is recorded, and then answered. -/
theorem LawfulAsking.follows_result (hA : A.LawfulAsking) (hs : A.States k s s') (result : ApplyResult) :
    A.Follows k ((Session.conclude result s).after [.applied result s.flag])
      (· = (Session.conclude result s').after [.applied result s'.flag]) := by
  have hrecorded : A.Follows k (⟨.ok (), [.applied result s.flag], s⟩ : Reply _ _ Unit)
      (· = ⟨.ok (), [.applied result s'.flag], s'⟩) :=
    .inl ⟨_, k, rfl, rfl, hs.flag ▸ hA.applied k result _, hs⟩
  refine hrecorded.bind hA.toComposes (Session.conclude_fresh result s) ?_
  rintro _ k' rfl - hs₁
  exact (hA.follows_conclude hs₁ result).mono fun _ h => h ▸ rfl

theorem LawfulAsking.follows_closing (hA : A.LawfulAsking) (hs : A.States k s s')
    (outcome : Except Bytes Unit) :
    A.Follows k (Session.closing outcome s) (· = Session.closing outcome s') := by
  cases outcome with
  | ok _ => exact hA.follows_log hs _ _
  | error message => exact hA.follows_log hs _ _

/-- A session follows if its rounds do. -/
theorem LawfulAsking.follows_bracket (hA : A.LawfulAsking) (hs : A.States k s s')
    {cycle : Reply Event (Session.State ω γ) Unit}
    {cycles : Session.State ω γ → Reply Event (Session.State ω γ) Unit → Prop}
    (hfresh : Transcript.Fresh cycle.events)
    (hcycle : ∀ {k s'}, A.States k (Session.opened s) s' → A.Follows k cycle (cycles s')) :
    A.Follows k (Session.bracket (fun _ => cycle) s) fun reply =>
      ∃ cycle', cycles (Session.opened s') cycle' ∧
        reply = Session.bracket (fun _ => cycle') s' := by
  have hstarted : A.States k { s with flag := .running } { s' with flag := .running } :=
    ⟨hs.hosts, hs.context, rfl⟩
  have hclosed := Session.closing_fresh cycle.outcome cycle.state
  rw [Session.bracket_const_eq]
  refine (hA.follows_log hstarted .debug (ascii "Session started.")).bind hA.toComposes
    (hfresh.append hclosed) ?_
  rintro _ k₁ rfl - hopened
  refine (hcycle hopened).bind hA.toComposes hclosed ?_
  intro cycle' k₂ hcycle' houtcome hended
  rcases hA.follows_closing hended cycle.outcome with ⟨_, k₃, rfl, -, haligned⟩ | hparted
  · have hbracket := Session.bracket_const_eq cycle' s'
    rw [houtcome] at hbracket
    exact .inl ⟨_, k₃, ⟨cycle', hcycle', hbracket.symm⟩, rfl, haligned⟩
  · exact .inr hparted

end Alignment

/-- The command reads lines outside of questions only if `p` holds. -/
inductive Action.ReadsLinesIf (p : Prop) : Action γ → Prop where
  | finish {result : ApplyResult} : ReadsLinesIf p (.finish result)
  | print {text : Bytes} {next : Except Bytes Unit → Action γ}
    (rest : ∀ outcome, ReadsLinesIf p (next outcome)) : ReadsLinesIf p (.print text next)
  | readLine {next : Except Bytes Bytes → Action γ} (hp : p)
    (rest : ∀ outcome, ReadsLinesIf p (next outcome)) : ReadsLinesIf p (.readLine next)
  | ask {prompt : Bytes} {parse : Bytes → Except Bytes Value} {next : Except Bytes Value → Action γ}
    (rest : ∀ outcome, ReadsLinesIf p (next outcome)) : ReadsLinesIf p (.ask prompt parse next)
  | update {f : γ → γ} {next : Action γ} (rest : ReadsLinesIf p next) :
    ReadsLinesIf p (.update f next)
  | consult {next : γ → Action γ} (rest : ∀ context, ReadsLinesIf p (next context)) :
    ReadsLinesIf p (.consult next)
  | setFlag {flag : RunFlag} {next : Action γ} (rest : ReadsLinesIf p next) :
    ReadsLinesIf p (.setFlag flag next)
  | consultFlag {next : RunFlag → Action γ} (rest : ∀ flag, ReadsLinesIf p (next flag)) :
    ReadsLinesIf p (.consultFlag next)
  | nest {next : Except Bytes Unit → Action γ} (rest : ∀ outcome, ReadsLinesIf p (next outcome)) :
    ReadsLinesIf p (.nest next)

theorem Action.readsLinesIf_of {p : Prop} (hp : p) (action : Action γ) : action.ReadsLinesIf p := by
  induction action with
  | finish result => exact .finish
  | print text next ih => exact .print ih
  | readLine next ih => exact .readLine hp ih
  | ask prompt parse next ih => exact .ask ih
  | update f next ih => exact .update ih
  | consult next ih => exact .consult ih
  | setFlag flag next ih => exact .setFlag ih
  | consultFlag next ih => exact .consultFlag ih
  | nest next ih => exact .nest ih

def Session.Part.ReadsLinesIf (p : Prop) : Part γ → Prop
  | command action => action.ReadsLinesIf p
  | round _ | rounds _ | session => True

/-- A part of a session is followed by the same part of the other session. -/
theorem Session.Unfolds.follows [Host ω] {app : Application κ γ} {A : Alignment ω K}
    (hA : A.LawfulAsking) (hactions : ∀ command, (app.action command).ReadsLinesIf A.Reads)
    {part : Part γ} {s s' : State ω γ} {k : K} {reply : Reply Event (State ω γ) part.Yield}
    (h : Unfolds app part s reply) (hpart : part.ReadsLinesIf A.Reads) (hs : A.States k s s') :
    A.Follows k reply (Unfolds app part s') := by
  -- The stage at which a part ends is where the next one goes on. What comes after a part begins no
  -- part with a complaint, so that sessions which have parted stay parted.
  induction h generalizing k s' with
  | finish => exact (hA.follows_nil hs _).mono fun _ h => h ▸ .finish
  | @print text next s s₁ outcome events reply hprint rest ih =>
    have hfirst := hA.follows_write Event.uses_command hs text
    rw [hprint] at hfirst
    cases hpart with
    | print hnext =>
      refine hfirst.bind hA.toComposes rest.fresh fun hfirst' houtcome hs₁ => ?_
      exact (ih (hnext _) hs₁).mono fun rest' hrest' =>
        .print (hfirst' ▸ Reply.eq_mk houtcome) hrest'
  | @readLine next s s₁ outcome events reply hread rest ih =>
    cases hpart with
    | readLine hreads hnext =>
      have hfirst := hreads.follows_line Event.uses_command hs
      rw [hread] at hfirst
      refine hfirst.bind hA.toComposes rest.fresh fun hfirst' houtcome hs₁ => ?_
      exact (ih (hnext _) hs₁).mono fun rest' hrest' =>
        .readLine (hfirst' ▸ Reply.eq_mk houtcome) hrest'
  | @ask prompt parse next s outcome calls h reply hasks rest ih =>
    have hfirst := hA.follows_asks Event.uses_command hasks hs
    cases hpart with
    | ask hnext =>
      refine Alignment.Follows.bind hA.toComposes hfirst rest.fresh ?_
      rintro _ k' ⟨answer', hanswer', rfl⟩ houtcome hs₁
      obtain rfl : answer'.outcome = outcome := houtcome
      exact (ih (hnext _) hs₁).mono fun rest' hrest' => .ask hanswer' hrest'
  | @update f next s reply rest ih =>
    have hs₁ : A.States k { s with context := f s.context }
        { s' with context := f s'.context } := ⟨hs.hosts, congrArg f hs.context, hs.flag⟩
    cases hpart with
    | update hnext => exact (ih hnext hs₁).mono fun _ => .update
  | @consult next s reply rest ih =>
    cases hpart with
    | consult hnext =>
      exact (ih (hnext _) hs).mono fun _ hrest' => .consult (hs.context.symm ▸ hrest')
  | @setFlag flag next s reply rest ih =>
    have hs₁ : A.States k { s with flag } { s' with flag } := ⟨hs.hosts, hs.context, rfl⟩
    cases hpart with
    | setFlag hnext => exact (ih hnext hs₁).mono fun _ => .setFlag
  | @consultFlag next s reply rest ih =>
    cases hpart with
    | consultFlag hnext =>
      exact (ih (hnext _) hs).mono fun _ hrest' => .consultFlag (hs.flag.symm ▸ hrest')
  | @nest next s s₁ outcome events reply hinner rest ihinner ih =>
    cases hpart with
    | nest hnext =>
      have hfirst := (ihinner trivial hs).nested hA.toComposes
      refine Alignment.Follows.bind hA.toComposes hfirst rest.fresh ?_
      rintro first' k' ⟨events', hinner', hfirst'⟩ houtcome hs₁
      rw [hfirst']
      exact (ih (hnext _) hs₁).mono fun rest' hrest' => .nest hinner' hrest'
  | @unread last s message calls h hasks =>
    rcases hA.follows_asks Event.uses_loop hasks hs with
      ⟨_, k', ⟨⟨outcome', calls', h'⟩, hanswer', rfl⟩, houtcome, haligned⟩ | hparted
    · obtain rfl : outcome' = .error message := houtcome
      exact .inl ⟨_, k', .unread hanswer', rfl, haligned⟩
    · exact .inr hparted
  | @applied last s s₁ command calls h result events hasks hcommand ih =>
    have hsplit : (conclude result s₁).after
          (calls.map .loop ++ events ++ [.applied result s₁.flag]) =
        (((conclude result s₁).after [.applied result s₁.flag]).after events).after
          (calls.map .loop) := by
      simp only [Reply.after, List.append_assoc]
    have hconclude : Transcript.Fresh ([.applied result s₁.flag] ++ (conclude result s₁).events) :=
      (Transcript.fresh_of_calls_eq_nil rfl).append (conclude_fresh result s₁)
    rw [hsplit]
    refine Alignment.Follows.bind hA.toComposes (hA.follows_asks Event.uses_loop hasks hs)
      (hcommand.fresh.append hconclude) ?_
    rintro _ k₁ ⟨⟨outcome', calls', h'⟩, hanswer', rfl⟩ houtcome hread
    obtain rfl : outcome' = .ok command := houtcome
    refine (ih (hactions command) hread).bind hA.toComposes hconclude ?_
    intro done k₂ hdone houtcome hdone_states
    rw [Reply.eq_mk houtcome] at hdone
    refine (hA.follows_result hdone_states result).mono ?_
    rintro _ rfl
    simpa only [Reply.after, Reply.within, List.append_assoc] using
      Unfolds.applied hanswer' hdone
  | stopped hflag =>
    exact (hA.follows_nil hs _).mono fun _ h => h ▸ .stopped (hs.flag.trans hflag)
  | @failed last s s₁ message events hflag hround ih =>
    rcases ih trivial hs with ⟨other, k', hother, houtcome, haligned⟩ | hparted
    · rw [Reply.eq_mk houtcome] at hother
      exact .inl ⟨_, k', .failed (hs.flag.trans hflag) hother, rfl, haligned⟩
    · exact .inr hparted
  | @again last next s s₁ events reply hflag hround rest ihround ih =>
    refine (ihround trivial hs).bind hA.toComposes rest.fresh fun hround' houtcome hs₁ => ?_
    rw [Reply.eq_mk houtcome] at hround'
    exact (ih trivial hs₁).mono fun _ => .again (hs.flag.trans hflag) hround'
  | @session s cycle hrounds ih =>
    refine (hA.follows_bracket hs hrounds.fresh (ih trivial)).mono ?_
    rintro _ ⟨cycle', hcycle', rfl⟩
    exact .session hcycle'

namespace Session

variable [Host ω] {P : ω → Prop} {A : Alignment ω K} {app : Application κ γ} {s s' : State ω γ}
  {k : K}

/-- On terminals that run out, a session is followed by the other one, if its commands read lines in
questions only. -/
theorem run_follows_of_actions (hP : Host.Supply P) (hA : A.LawfulAsking)
    (hactions : ∀ command, (app.action command).ReadsLinesIf A.Reads) (hhost : P s.host)
    (hhost' : P s'.host) (hs : A.States k s s') : A.Follows k (run app s) (· = run app s') :=
  ((unfolds_run hP hhost).follows hA hactions trivial hs).mono fun _ h =>
    h.unique (unfolds_run hP hhost')

/-- On terminals that run out, a session is followed by the other one. -/
theorem run_follows (hP : Host.Supply P) (hA : A.Lawful) (app : Application κ γ)
    (hhost : P s.host) (hhost' : P s'.host) (hs : A.States k s s') :
    A.Follows k (run app s) (· = run app s') :=
  run_follows_of_actions hP hA.toLawfulAsking (fun _ => Action.readsLinesIf_of hA.line _) hhost
    hhost' hs

end Session

end Repl
