import Repl.Proofs.Session.Unfolding

/-!
What a session says. On a terminal that prints everything, the lines alone tell all of it, if the
commands only talk: for every line a prompt and what the line is answered, up to the one that stops
the session, or else a last prompt.
-/

namespace Repl

open Exchange Terminal

variable {ω κ γ α : Type} {message : Bytes} {lines : List Bytes} {sofar : Bytes}

/-! ## Commands -/

/-- What comes of a command: what it says, and what it leaves. -/
structure Effect (γ : Type) where
  said : Bytes
  context : γ
  flag : RunFlag
  result : ApplyResult

/-- Begun with a context and at a run flag, the command has the effect. It does not read, and it
fails with the terminal only if a print does. -/
inductive Action.Does : γ → RunFlag → Action γ → Effect γ → Prop where
  | finish {context : γ} {flag : RunFlag} {result : ApplyResult}
    (h : result.accessTerminal = none) : Does context flag (.finish result) ⟨[], context, flag, result⟩
  | print {context : γ} {flag : RunFlag} {text : Bytes} {next : Except Bytes Unit → Action γ}
    {effect : Effect γ} (rest : Does context flag (next (.ok ())) effect) :
    Does context flag (.print text next) { effect with said := text ++ effect.said }
  | update {context : γ} {flag : RunFlag} {f : γ → γ} {next : Action γ} {effect : Effect γ}
    (rest : Does (f context) flag next effect) : Does context flag (.update f next) effect
  | consult {context : γ} {flag : RunFlag} {next : γ → Action γ} {effect : Effect γ}
    (rest : Does context flag (next context) effect) : Does context flag (.consult next) effect
  | setFlag {context : γ} {flag flag' : RunFlag} {next : Action γ} {effect : Effect γ}
    (rest : Does context flag' next effect) : Does context flag (.setFlag flag' next) effect

theorem Action.Does.accessTerminal_eq_none {context : γ} {flag : RunFlag} {action : Action γ}
    {effect : Effect γ} (h : action.Does context flag effect) :
    effect.result.accessTerminal = none := by
  induction h with
  | finish h => exact h
  | print _ ih | update _ ih | consult _ ih | setFlag _ ih => exact ih

namespace ApplyResult

/-- How a session takes the result, if it goes on. -/
def lastOutcome : ApplyResult → LastOutcome
  | applied => .applied
  | skipped => .skipped
  | applicationError .. | accessTerminalError _ => .erred

/-- What a session says of the result. -/
def remark : ApplyResult → Bytes
  | applicationError message _ => Text.withNewline (Session.errorReport message ++ ascii ".")
  | applied | skipped | accessTerminalError _ => []

end ApplyResult

/-! ## Conversations -/

section

variable (prompts : Prompts) (parse : Bytes → Except Bytes κ) (effect : κ → γ → Effect γ)

/-- What a session says when it is given the lines, one after another. -/
def conversation (last : LastOutcome) (context : γ) : List Bytes → Bytes
  | [] => prompts.after last
  | line :: others =>
    prompts.after last ++
      match parse (Text.trim line) with
      | .error reason => complaint reason ++ conversation last context others
      | .ok command =>
        let done := effect command context
        done.said ++ done.result.remark ++
          if done.flag = .running then
            conversation done.result.lastOutcome done.context others
          else []

/-- What a session says after a command, which has left the flag. -/
def continuation (last : LastOutcome) (context : γ) (flag : RunFlag) (lines : List Bytes) : Bytes :=
  if flag = .running then conversation prompts parse effect last context lines else []

/-- What a session says once it has asked for a command. -/
def response (context : γ) (others : List Bytes) : Except Bytes κ → Bytes
  | .error _ => []
  | .ok command =>
    let done := effect command context
    done.said ++ done.result.remark ++
      continuation prompts parse effect done.result.lastOutcome done.context done.flag others

variable {prompts parse effect} {last : LastOutcome} {context : γ} {line : Bytes}

theorem conversation_of_refused {reason : Bytes} (h : parse (Text.trim line) = .error reason)
    (others : List Bytes) :
    conversation prompts parse effect last context (line :: others) =
      prompts.after last ++ complaint reason ++
        conversation prompts parse effect last context others := by
  rw [conversation, h, List.append_assoc]

theorem conversation_of_accepted {command : κ} (h : parse (Text.trim line) = .ok command)
    (others : List Bytes) :
    conversation prompts parse effect last context (line :: others) =
      prompts.after last ++ response prompts parse effect context others (.ok command) := by
  rw [conversation, h]
  rfl

end

/-! ## The terminal -/

/-- The hosts that `G` relates to lines and a text give the lines, one after another, and fail with
the message from then on. They have printed the text, and print everything. -/
structure Host.Converses [Host ω] (G : List Bytes → Bytes → ω → Prop) (message : Bytes) : Prop where
  print : ∀ {lines sofar h} text, G lines sofar h →
    (Terminal.print text h).1 = .ok () ∧ G lines (sofar ++ text) (Terminal.print text h).2
  line : ∀ {line others sofar h}, G (line :: others) sofar h →
    (Terminal.readLine h).1 = .ok line ∧ G others sofar (Terminal.readLine h).2
  ended : ∀ {sofar h}, G [] sofar h →
    (Terminal.readLine h).1 = .error message ∧ G [] sofar (Terminal.readLine h).2
  log : ∀ {lines sofar h} entry, G lines sofar h → G lines sofar (Host.log entry h).2

variable [Host ω] {G : List Bytes → Bytes → ω → Prop} {h : ω}

namespace Host.Converses

theorem printFor_eq (hG : Host.Converses G message) (purpose : Purpose) (text : Bytes)
    (hh : G lines sofar h) :
    ∃ calls h', printFor purpose text h = ⟨.ok (), calls, h'⟩ ∧ G lines (sofar ++ text) h' := by
  have ⟨hprinted, hafter⟩ := hG.print text hh
  rw [printFor_apply, hprinted]
  exact ⟨_, _, rfl, hafter⟩

theorem nextLine_nil (hG : Host.Converses G message) (hh : G [] sofar h) :
    ∃ calls h', nextLine h = ⟨.error message, calls, h'⟩ ∧ G [] sofar h' := by
  have ⟨hended, hafter⟩ := hG.ended hh
  exact ⟨_, _, nextLine_of_outcome hended, hafter⟩

theorem nextLine_cons {line : Bytes} {others : List Bytes} (hG : Host.Converses G message)
    (hh : G (line :: others) sofar h) :
    ∃ calls h', nextLine h = ⟨.ok line, calls, h'⟩ ∧ G others sofar h' := by
  have ⟨hline, hafter⟩ := hG.line hh
  exact ⟨_, _, nextLine_of_outcome hline, hafter⟩

/-- What a round of a question comes to, by the lines before it: its outcome, and the host that it
leaves. -/
inductive Round (G : List Bytes → Bytes → ω → Prop) (message prompt : Bytes)
    (parse : Bytes → Except Bytes α) (sofar : Bytes) :
    List Bytes → Except Bytes (Option α) → ω → Prop where
  | ended {h : ω} (hafter : G [] (sofar ++ prompt) h) :
    Round G message prompt parse sofar [] (.error message) h
  | accepted {line : Bytes} {others : List Bytes} {value : α} {h : ω}
    (hparse : parse (Text.trim line) = .ok value) (hafter : G others (sofar ++ prompt) h) :
    Round G message prompt parse sofar (line :: others) (.ok (some value)) h
  | refused {line reason : Bytes} {others : List Bytes} {h : ω}
    (hparse : parse (Text.trim line) = .error reason)
    (hafter : G others (sofar ++ prompt ++ complaint reason) h) :
    Round G message prompt parse sofar (line :: others) (.ok none) h

theorem round_askOnce (hG : Host.Converses G message) (prompt : Bytes)
    (parse : Bytes → Except Bytes α) (hh : G lines sofar h) :
    Round G message prompt parse sofar lines (askOnce prompt parse h).outcome
      (askOnce prompt parse h).state := by
  obtain ⟨_, prompted, hprompt, hprompted⟩ := hG.printFor_eq .prompt prompt hh
  cases lines with
  | nil =>
    obtain ⟨_, ended, hread, hended⟩ := hG.nextLine_nil hprompted
    rw [askOnce, bind_apply_of_ok (by rw [hprompt]), hprompt, bind_apply_of_error (by rw [hread]),
      hread]
    exact .ended hended
  | cons line others =>
    obtain ⟨_, given, hread, hgiven⟩ := hG.nextLine_cons hprompted
    cases hparse : parse (Text.trim line) with
    | ok value =>
      rw [askOnce_of_accepted hprompt hread hparse]
      exact .accepted hparse hgiven
    | error reason =>
      obtain ⟨_, refused, hcomplaint, hrefused⟩ :=
        hG.printFor_eq .complaint (complaint reason) hgiven
      rw [askOnce_of_refused hprompt hread hparse hcomplaint]
      exact .refused hparse hrefused

end Host.Converses

section

variable {prompts : Prompts} {parse : Bytes → Except Bytes κ} {last : LastOutcome}

/-- A question says the beginning of a conversation, and leaves the response to be said. -/
theorem Terminal.Asks.converses (hG : Host.Converses G message) {answer : Reply Call ω κ}
    (hasks : Asks (prompts.after last) parse h answer) (effect : κ → γ → Effect γ)
    (hh : G lines sofar h) (context : γ) :
    ∃ text left, G left (sofar ++ text) answer.state ∧
      conversation prompts parse effect last context lines =
        text ++ response prompts parse effect context left answer.outcome := by
  -- On the rounds of the question: every refused line adds a prompt and a complaint.
  induction hasks generalizing lines sofar with
  | failed hround =>
    have hcases := hG.round_askOnce (prompts.after last) parse hh
    rw [hround] at hcases
    cases hcases with
    | ended hafter => exact ⟨prompts.after last, [], hafter, (List.append_nil _).symm⟩
  | answered hround =>
    have hcases := hG.round_askOnce (prompts.after last) parse hh
    rw [hround] at hcases
    cases hcases with
    | @accepted line others _ _ hparse hafter =>
      exact ⟨prompts.after last, others, hafter, conversation_of_accepted hparse others⟩
  | @again _ _ calls answer hround _ ih =>
    have hcases := hG.round_askOnce (prompts.after last) parse hh
    rw [hround] at hcases
    cases hcases with
    | @refused line reason others _ hparse hafter =>
      -- The question is asked again, after the same outcome.
      obtain ⟨text, left, hleft, hrest⟩ := ih hafter
      refine ⟨prompts.after last ++ complaint reason ++ text, left, ?_, ?_⟩
      · rw [Reply.after_state]
        simpa only [List.append_assoc] using hleft
      · rw [conversation_of_refused hparse, hrest, List.append_assoc, List.append_assoc,
          List.append_assoc]
        rfl

end

namespace Session

variable {app : Application κ γ} {s : State ω γ}

/-! ## Commands in a session -/

theorem write_converses (hG : Host.Converses G message) (event : Call → Event) (text : Bytes)
    (hs : G lines sofar s.host) :
    ∃ events h, onTerminal event (write text) s = ⟨.ok (), events, { s with host := h }⟩ ∧
      G lines (sofar ++ text) h := by
  obtain ⟨calls, h, hprint, hafter⟩ := hG.printFor_eq .output text hs
  rw [onTerminal_apply, write, hprint]
  exact ⟨_, h, rfl, hafter⟩

/-- A command says and leaves what its effect tells. -/
theorem Unfolds.does (hG : Host.Converses G message) {action : Action γ} {context : γ}
    {flag : RunFlag} {done : Effect γ} {reply : Reply Event (State ω γ) ApplyResult}
    (hunfolds : Unfolds app (.command action) s reply) (h : action.Does context flag done)
    (hs : G lines sofar s.host) (hcontext : s.context = context) (hflag : s.flag = flag) :
    reply.outcome = .ok done.result ∧ G lines (sofar ++ done.said) reply.state.host ∧
      reply.state.context = done.context ∧ reply.state.flag = done.flag := by
  induction h generalizing s sofar reply with
  | finish =>
    cases hunfolds
    rw [List.append_nil]
    exact ⟨rfl, hs, hcontext, hflag⟩
  | @print _ _ text _ _ _ ih =>
    cases hunfolds with
    | print hprint rest =>
      obtain ⟨events, h, hwritten, hafter⟩ := write_converses hG .command text hs
      cases hprint.symm.trans hwritten
      have hrest := ih rest hafter hcontext hflag
      rwa [List.append_assoc] at hrest
  | update _ ih => cases hunfolds with | update rest => exact ih rest hs (congrArg _ hcontext) hflag
  | consult _ ih =>
    cases hunfolds with
    | consult rest =>
      rw [hcontext] at rest
      exact ih rest hs hcontext hflag
  | setFlag _ ih => cases hunfolds with | setFlag rest => exact ih rest hs hcontext rfl

theorem conclude_converses (hG : Host.Converses G message) {result : ApplyResult}
    (hresult : result.accessTerminal = none) (hs : G lines sofar s.host) :
    (conclude result s).outcome = .ok result.lastOutcome ∧
      G lines (sofar ++ result.remark) (conclude result s).state.host ∧
        (conclude result s).state.context = s.context ∧ (conclude result s).state.flag = s.flag := by
  cases result with
  | applied | skipped =>
    refine ⟨rfl, ?_, rfl, rfl⟩
    rw [ApplyResult.remark, List.append_nil]
    exact hs
  | accessTerminalError message => cases hresult
  | applicationError message data =>
    have hlogged : G lines sofar (log .warning (errorReport message) s).state.host := hG.log _ hs
    obtain ⟨events, h, hwritten, hafter⟩ := write_converses hG .loop
      (Text.withNewline (errorReport message ++ ascii ".")) hlogged
    rw [conclude_applicationError, writeLine, hwritten]
    exact ⟨rfl, hafter, rfl, rfl⟩

theorem closing_converses (hG : Host.Converses G message) (outcome : Except Bytes Unit)
    (hs : G lines sofar s.host) : G lines sofar (closing outcome s).state.host := by
  cases outcome with
  | ok _ | error _ => exact hG.log _ hs

/-! ## Sessions -/

/-- The commands of the application have the effects. -/
def Effects (app : Application κ γ) (effect : κ → γ → Effect γ) : Prop :=
  ∀ command context, (app.action command).Does context .running (effect command context)

/-- What a part of a session says, by the lines before it. -/
def SaysConversation (G : List Bytes → Bytes → ω → Prop) (app : Application κ γ)
    (effect : κ → γ → Effect γ) :
    (part : Part γ) → State ω γ → Reply Event (State ω γ) part.Yield → Prop
  | .command _, _, _ => True
  | .round last, s, reply => ∀ lines sofar, G lines sofar s.host → s.flag = .running →
    ∃ text left, G left (sofar ++ text) reply.state.host ∧
      conversation app.prompts app.parseLine effect last s.context lines =
        text ++ match reply.outcome with
          | .error _ => []
          | .ok next => continuation app.prompts app.parseLine effect next reply.state.context
              reply.state.flag left
  | .rounds last, s, reply => ∀ lines sofar, G lines sofar s.host →
    ∃ left, G left (sofar ++ continuation app.prompts app.parseLine effect last s.context s.flag lines)
      reply.state.host
  | .session, s, reply => ∀ lines sofar, G lines sofar s.host →
    ∃ left, G left (sofar ++ conversation app.prompts app.parseLine effect .applied s.context lines)
      reply.state.host

theorem Unfolds.converses {effect : κ → γ → Effect γ} (hG : Host.Converses G message)
    (heffects : Effects app effect) {part : Part γ} {reply : Reply Event (State ω γ) part.Yield}
    (h : Unfolds app part s reply) : SaysConversation G app effect part s reply := by
  induction h with
  -- What a command says is told by its effect, whatever part of a session it is in.
  | finish | print _ _ _ | readLine _ _ _ | ask _ _ _ | update _ _ | consult _ _ | setFlag _ _
    | consultFlag _ _ | nest _ _ _ _ => trivial
  | @unread last s _ _ _ hasks =>
    intro lines sofar hs _
    exact hasks.converses hG effect hs s.context
  | @applied last s s' command calls h result events hasks hcommand _ =>
    intro lines sofar hs hflag
    obtain ⟨text, left, hleft, hsaid⟩ := hasks.converses hG effect hs s.context
    have hdoes := heffects command s.context
    obtain ⟨houtcome, hdone, hcontext, hflag'⟩ := hcommand.does hG hdoes hleft rfl hflag
    cases houtcome
    obtain ⟨hnext, hconcluded, hcontext', hflag''⟩ :=
      conclude_converses hG hdoes.accessTerminal_eq_none hdone
    -- The result is remarked on after all that the command says.
    rw [Reply.after_state, Reply.after_outcome, hnext, hcontext', hflag'', hcontext, hflag']
    refine ⟨_, left, by simpa only [List.append_assoc] using hconcluded, ?_⟩
    rw [hsaid, response]
    simp only [List.append_assoc]
  | @stopped last s hflag =>
    intro lines sofar hs
    refine ⟨lines, ?_⟩
    rw [continuation, hflag, if_neg nofun, List.append_nil]
    exact hs
  | @failed last s s' message events hflag hround ih =>
    intro lines sofar hs
    obtain ⟨text, left, hleft, hsaid⟩ := ih lines sofar hs hflag
    refine ⟨left, ?_⟩
    rw [continuation, if_pos hflag, hsaid]
    dsimp only
    rw [List.append_nil]
    exact hleft
  | @again last next s s' events reply hflag hround rest ihround ih =>
    intro lines sofar hs
    obtain ⟨text, left, hleft, hsaid⟩ := ihround lines sofar hs hflag
    obtain ⟨left', hafter⟩ := ih left (sofar ++ text) hleft
    refine ⟨left', ?_⟩
    rw [continuation, if_pos hflag, hsaid, ← List.append_assoc]
    exact hafter
  | @session s cycle _ ih =>
    intro lines sofar hs
    obtain ⟨left, hcycle⟩ := ih lines sofar (hG.log _ hs)
    refine ⟨left, ?_⟩
    -- The entries before and after the rounds are not said.
    rw [bracket_const_eq]
    exact closing_converses hG _ hcycle

/-- A session has the conversation that its lines make. -/
theorem run_converses {P : ω → Prop} {effect : κ → γ → Effect γ} (hP : Host.Supply P)
    (hG : Host.Converses G message) (heffects : Effects app effect) (hhost : P s.host)
    (hs : G lines sofar s.host) :
    ∃ left, G left (sofar ++ conversation app.prompts app.parseLine effect .applied s.context lines)
      (run app s).state.host := by
  have hrun : Unfolds app .session s (run app s) := unfolds_run hP hhost
  exact hrun.converses hG heffects lines sofar hs

end Session

end Repl
