import Repl.Proofs.Calculator.Process
import Repl.Proofs.Command.Resolution
import Repl.Proofs.Text.Trim

/-!
How the calculator ends. Whatever else its input holds, the first line that quits decides: with one
the exit code is 0 and the lines after it are never looked at, and without one the input runs out.
-/

namespace Repl.Calculator

/-! ## The commands -/

/-- The run flag after a command. -/
def Command.flagAfter : Command → RunFlag
  | builtin .quit => .stopped
  | arithmetic .. | print | builtin .help => .running

theorem Command.flagAfter_eq_stopped_iff {c : Command} :
    c.flagAfter = .stopped ↔ c = .builtin .quit := by
  constructor
  · intro h
    cases c with
    | arithmetic _ _ | print => cases h
    | builtin b =>
      cases b with
      | help => cases h
      | quit => rfl
  · rintro rfl
    rfl

theorem report_talks (flag : RunFlag) : report.Talks flag flag :=
  .consult fun _ => .printLine (.finish rfl)

theorem Command.action_talks (entries : List HelpEntry) (c : Command) :
    (c.action entries).Talks .running c.flagAfter := by
  cases c with
  | arithmetic operation operand =>
    show (operation.action operand).Talks _ _
    unfold Operation.action
    split
    · exact .finish rfl
    · exact .update (report_talks .running)
  | print => exact report_talks .running
  | builtin b =>
    cases b with
    | help => exact .printLine (.finish rfl)
    | quit => exact .setFlag (.printLine (.finish rfl))

/-! ## The parsers -/

variable {r : Registry Command}

abbrev registration : Registration Command :=
  Registry.register (parsers.map some)

theorem exists_registry : ∃ r, registration.outcome = .ok r := by
  -- The examples of the operations are numbers, so this rounds some.
  have hregistered : registration.outcome.toOption.isSome = true := by decide +kernel
  cases houtcome : registration.outcome with
  | ok r => exact ⟨r, rfl⟩
  | error e =>
    rw [houtcome] at hregistered
    cases hregistered

theorem Operation.parse_ne_builtin (operation : Operation) (arguments : Bytes) (b : Builtin) :
    operation.parse arguments ≠ .ok (some (.builtin b)) := by
  unfold Operation.parse
  cases ValueType.float64.parse arguments with
  | error message => exact nofun
  | ok value =>
    cases value with
    | float64 _ | integer _ | bool _ | byte _ | float32 _ | text _ => exact nofun

/-- Only the parser of `quit` makes the command that quits, and it takes no arguments. -/
theorem eq_quit_of_parse {p : Parser Command} {arguments : Bytes} (hp : some p ∈ parsers.map some)
    (hparse : p.parse arguments = .ok (some (.builtin .quit))) :
    p = Builtin.quit.parser .builtin ∧ arguments = [] := by
  simp only [parsers, List.map_cons, List.map_nil, List.mem_cons, Option.some.injEq,
    List.not_mem_nil, or_false] at hp
  rcases hp with rfl | rfl | rfl | rfl | rfl | rfl
  · exact absurd hparse (Operation.add.parse_ne_builtin arguments .quit)
  · exact absurd hparse (Operation.subtract.parse_ne_builtin arguments .quit)
  · exact absurd hparse (Operation.divide.parse_ne_builtin arguments .quit)
  · cases (Parser.withoutArguments_eq_ok_iff.1 hparse).2
  · cases (Parser.withoutArguments_eq_ok_iff.1 hparse).2
  · exact ⟨rfl, (Parser.withoutArguments_eq_ok_iff.1 hparse).1⟩

/-- The texts that quit are the keys of the command, if no space can follow them. -/
theorem parse_eq_quit_iff {text : Bytes} (hr : registration.outcome = .ok r)
    (htext : ∀ front, text ≠ front ++ [Ascii.space]) :
    (r.parse text).mapError LineError.message = .ok (.builtin .quit) ↔
      text = ascii "q" ∨ text = ascii "quit" := by
  constructor
  · intro hparse
    have hanswers := Registry.answers_parse hr text
    rw [hparse] at hanswers
    cases hanswers with
    | command hline hsplit hp hkey hquit =>
      obtain ⟨rfl, rfl⟩ := eq_quit_of_parse hp hquit
      cases hsplit.2 with
      -- The parser accepts what is empty after a space, but no such text gets to it.
      | inl hspace => exact absurd hspace (htext _)
      | inr halone =>
        cases hkey with
        | inl hname => exact .inr (halone.1.trans hname.symm)
        | inr hshorthand => exact .inl (halone.1.trans (Option.some.inj hshorthand).symm)
  · have hp : some (Builtin.quit.parser Command.builtin) ∈ parsers.map some :=
      List.mem_map_of_mem (by simp [parsers])
    rintro (rfl | rfl)
    · exact Registry.parse_of_answers hr
        (.command (by decide) ⟨by decide, .inr ⟨rfl, rfl⟩⟩ hp (.inr rfl) rfl)
    · exact Registry.parse_of_answers hr
        (.command (by decide) ⟨by decide, .inr ⟨rfl, rfl⟩⟩ hp (.inl rfl) rfl)

/-- The line is the shorthand or the name of the command that quits, but for white space around it.
-/
def Quits (line : Bytes) : Prop :=
  Text.trim line = ascii "q" ∨ Text.trim line = ascii "quit"

instance : DecidablePred Quits :=
  fun _ => inferInstanceAs (Decidable (_ ∨ _))

theorem quits_iff (hr : registration.outcome = .ok r) (prompts : Prompts) (line : Bytes) :
    Session.Quits (application r prompts) Command.flagAfter line ↔ Quits line := by
  rw [Quits, ← parse_eq_quit_iff hr (Text.trim_ne_concat_space line)]
  constructor
  · rintro ⟨command, hparse, hflag⟩
    rwa [Command.flagAfter_eq_stopped_iff.1 hflag] at hparse
  · intro hparse
    exact ⟨.builtin .quit, hparse, rfl⟩

/-! ## The launch -/

namespace Launch

variable (l : Launch)

/-- The settings that the launch finds. -/
def settings : Configuration :=
  .ofFile l.settingsPath l.files

/-- Standard input is left to the session: the settings are read from no standard stream, and the log
is not written to standard input. (A process that can write to its own input waits forever for the
end of it.) -/
structure SparesInput : Prop where
  settings : l.files.stream? l.settingsPath = none
  logFile : l.settings.logStream? l.files ≠ some .input

variable {l}

theorem SparesInput.sessionInput_eq (h : l.SparesInput) : l.sessionInput = l.input := by
  rw [sessionInput, h.settings]
  exact if_neg nofun

theorem SparesInput.withInput (h : l.SparesInput) (input : Bytes) :
    SparesInput { l with input } :=
  ⟨h.settings, h.logFile⟩

end Launch

/-! ## The session -/

variable {l : Launch} {s : Services}

theorem complain_roomy (line : Bytes) (h : s.Roomy) : (complain line s).Roomy :=
  h

theorem startServices_roomy (h : l.stdout.Unlimited) : (startServices l).Roomy := by
  have hnew : (Services.new (Channels.ofFiles l.files l.stdout)).Roomy := h
  have hstarted := Services.start_roomy l.now l.settingsPath hnew
  unfold startServices
  dsimp only
  apply Services.prepareSession_roomy
  split
  · exact hstarted
  · exact complain_roomy _ hstarted

/-- The services that the session gets are ready before the input is looked at. -/
theorem exists_services (hr : registration.outcome = .ok r) (h : l.stdout.Unlimited) :
    ∃ s : Services, s.Roomy ∧
      ∀ input, run { l with input } = runSession r { l with input } s := by
  have hroomy := startServices_roomy h
  unfold run
  unfold registration at hr
  -- Nothing that follows depends on how the registration went, beyond its outcome.
  generalize Registry.register (parsers.map some) = registration at hr
  refine ⟨(startServices l).logAll l.now registration.entries,
    Services.logAll_roomy l.now _ hroomy, fun input => ?_⟩
  dsimp only
  rw [hr]
  rfl

/-- The one session of the calculator. -/
def session (r : Registry Command) (l : Launch) (s : Services) :
    Reply Event (Session.State Process Float) Unit :=
  Session.run (application r s.prompts) (.start ⟨s, .ofBytes l.sessionInput, l.now⟩ 0)

theorem session_endsOn (hr : registration.outcome = .ok r) (hs : s.Roomy) :
    Session.EndsOn Quits (ascii "end of input stream") (Text.lines l.sessionInput)
      (Transcript.reads (session r l s).events) (session r l s).outcome := by
  have hquits : Session.Quits (application r s.prompts) Command.flagAfter = Quits := by
    funext line
    exact propext (quits_iff hr s.prompts line)
  have hgiven : Process.Given (Text.lines l.sessionInput) ⟨s, .ofBytes l.sessionInput, l.now⟩ :=
    ⟨InputStream.gives_ofBytes l.sessionInput, hs⟩
  rw [← hquits]
  exact Session.run_endsOn Process.supply Process.feeds
    (fun command => command.action_talks r.helpEntries) trivial hgiven

theorem runSession_of_ok (h : (session r l s).outcome = .ok ()) :
    runSession r l s = ⟨0, ((session r l s).state.host.services.stop l.now).channels⟩ := by
  unfold session at h ⊢
  unfold runSession
  simp only [h]

theorem runSession_of_error {message : Bytes} (h : (session r l s).outcome = .error message) :
    runSession r l s =
      ⟨1, (complain (ascii "Terminal error: " ++ message)
        ((session r l s).state.host.services.stop l.now)).channels⟩ := by
  unfold session at h ⊢
  unfold runSession
  simp only [h]

theorem runSession_of_quits (hr : registration.outcome = .ok r) (hs : s.Roomy)
    (h : ∃ line ∈ Text.lines l.sessionInput, Quits line) :
    (runSession r l s).exitCode = 0 := by
  obtain ⟨-, houtcome⟩ | ⟨hnone, -⟩ := (session_endsOn hr hs).outcome_eq
  · rw [runSession_of_ok houtcome]
  · obtain ⟨line, hline, hquits⟩ := h
    exact absurd hquits (hnone line hline)

theorem runSession_of_forall_not_quits (hr : registration.outcome = .ok r) (hs : s.Roomy)
    (h : ∀ line ∈ Text.lines l.sessionInput, ¬Quits line) :
    (runSession r l s).exitCode = 1 ∧ ∃ earlier, (runSession r l s).channels.stderr =
      earlier ++ Text.withNewline (ascii "Terminal error: end of input stream") := by
  obtain ⟨⟨line, hline, hquits⟩, -⟩ | ⟨-, houtcome⟩ := (session_endsOn hr hs).outcome_eq
  · exact absurd hquits (h line hline)
  · rw [runSession_of_error houtcome]
    exact ⟨rfl, _, rfl⟩

/-- A session cannot tell the lines after one that quits. -/
theorem runSession_eq_of_shared {l' : Launch} {before after after' : List Bytes} {line : Bytes}
    (hr : registration.outcome = .ok r) (hs : s.Roomy) (hnow : l'.now = l.now)
    (hquits : Quits line) (hlines : Text.lines l.sessionInput = before ++ line :: after)
    (hlines' : Text.lines l'.sessionInput = before ++ line :: after') :
    runSession r l' s = runSession r l s := by
  have hgives := InputStream.gives_ofBytes l.sessionInput
  have hgives' := InputStream.gives_ofBytes l'.sessionInput
  rw [hlines, List.append_cons] at hgives
  rw [hlines', List.append_cons] at hgives'
  have hagree : Process.Agree (before.length + 1) ⟨s, .ofBytes l.sessionInput, l.now⟩
      ⟨s, .ofBytes l'.sessionInput, l'.now⟩ :=
    ⟨rfl, hnow, before ++ [line], after, after', by simp, hgives, hgives'⟩
  have hstates : (sharing Process.Agree).States (before.length + 1)
      (Session.State.start ⟨s, .ofBytes l.sessionInput, l.now⟩ (0 : Float))
      (.start ⟨s, .ofBytes l'.sessionInput, l'.now⟩ 0) := ⟨hagree, rfl, rfl⟩
  have hends := session_endsOn (l := l) hr hs
  rw [hlines] at hends
  obtain ⟨houtcome, -, left, -, hafter⟩ := Session.run_of_agree Process.supply Process.agree
    (application r s.prompts) trivial trivial hstates (hends.reads_le hquits)
  -- The sessions have written the same, so they end on the same services.
  have hservices : (session r l' s).state.host.services =
      (session r l s).state.host.services := hafter.hosts.services
  have hsame : (session r l' s).outcome = (session r l s).outcome := houtcome
  cases hresult : (session r l s).outcome with
  | ok _ => rw [runSession_of_ok hresult, runSession_of_ok (hsame.trans hresult), hservices, hnow]
  | error message =>
    rw [runSession_of_error hresult, runSession_of_error (hsame.trans hresult), hservices, hnow]

/-- The calculator, on an output that takes everything and with an input that is left to its session,
exits with 0 if some line of the input quits. Otherwise it exits with 1 and says last that the input
ended. The lines after one that quits change nothing. -/
theorem exits_by_quitting (l : Launch) (hstdout : l.stdout.Unlimited) (hspares : l.SparesInput) :
    ((run l).exitCode = if ∃ line ∈ Text.lines l.input, Quits line then 0 else 1) ∧
      ((∀ line ∈ Text.lines l.input, ¬Quits line) →
        ∃ earlier, (run l).channels.stderr =
          earlier ++ Text.withNewline (ascii "Terminal error: end of input stream")) ∧
      ∀ before line after after' input', Text.lines l.input = before ++ line :: after →
        Quits line → Text.lines input' = before ++ line :: after' →
          run { l with input := input' } = run l := by
  obtain ⟨r, hr⟩ := exists_registry
  obtain ⟨s, hs, hrun⟩ := exists_services hr hstdout
  have hself : run l = runSession r l s := hrun l.input
  have hinput := hspares.sessionInput_eq
  rw [hself]
  refine ⟨?_, fun hnone => ?_, ?_⟩
  · by_cases hquits : ∃ line ∈ Text.lines l.input, Quits line
    · rw [if_pos hquits]
      exact runSession_of_quits hr hs (hinput ▸ hquits)
    · rw [if_neg hquits]
      have hnone : ∀ line ∈ Text.lines l.input, ¬Quits line :=
        fun line hline hline_quits => hquits ⟨line, hline, hline_quits⟩
      exact (runSession_of_forall_not_quits hr hs (hinput ▸ hnone)).1
  · exact (runSession_of_forall_not_quits hr hs (hinput ▸ hnone)).2
  · intro before line after after' input' hlines hquits hlines'
    have hlines' : Text.lines (Launch.sessionInput { l with input := input' }) =
        before ++ line :: after' := by
      rw [(hspares.withInput input').sessionInput_eq]
      exact hlines'
    rw [← hinput] at hlines
    rw [hrun input']
    exact runSession_eq_of_shared hr hs rfl hquits hlines hlines'

/-- A launch without settings. -/
def bareLaunch (input : Bytes) : Launch :=
  ⟨[], input, .empty, .unlimited, ⟨0⟩⟩

theorem padded_quit_exits :
    (run (bareLaunch (ascii "print\n quit \nadd 1\n"))).exitCode = 0 ∧
      run (bareLaunch (ascii "print\n quit ")) =
        run (bareLaunch (ascii "print\n quit \nadd 1\n")) ∧
      ∃ earlier, (run (bareLaunch (ascii "quit now\n"))).channels.stderr =
        earlier ++ Text.withNewline (ascii "Terminal error: end of input stream") := by
  have hspares (input : Bytes) : (bareLaunch input).SparesInput := ⟨rfl, nofun⟩
  have hquits : Quits (ascii " quit ") := by decide
  have hlines : Text.lines (ascii "print\n quit \nadd 1\n") =
      [ascii "print"] ++ ascii " quit " :: [ascii "add 1"] := by decide
  have hlines' : Text.lines (ascii "print\n quit ") =
      [ascii "print"] ++ ascii " quit " :: [] := by decide
  have hnone : ∀ line ∈ Text.lines (ascii "quit now\n"), ¬Quits line := by decide
  have hending := exits_by_quitting (bareLaunch (ascii "print\n quit \nadd 1\n"))
    Sink.unlimited_unlimited (hspares _)
  refine ⟨hending.1.trans (if_pos ⟨ascii " quit ", by decide, hquits⟩), ?_, ?_⟩
  · exact hending.2.2 _ _ _ _ _ hlines hquits hlines'
  · exact (exits_by_quitting (bareLaunch (ascii "quit now\n")) Sink.unlimited_unlimited
      (hspares _)).2.1 hnone

end Repl.Calculator
