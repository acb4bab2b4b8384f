import Repl.Proofs.Calculator.Quitting
import Repl.Proofs.Calculator.Startup
import Repl.Proofs.Session.Conversation

/-!
The calculator's dialogue: all that it shows, told by the lines of its input. Every line up to the
one that quits gets a round of a prompt and an answer. The register that answers show is what the
accepted operations so far have made of zero, and the prompt tells whether the last command was a
division by zero.
-/

namespace Repl.Calculator

/-! ## Requests -/

/-- The command that takes the arguments for its operand. -/
def withOperand (operation : Operation) (arguments : Bytes) : Except Bytes Command :=
  match Value.floatBits? .binary64 (Value.strip arguments) with
  | some bits => .ok (.arithmetic operation (.ofBits bits.toUInt64))
  | none => .error (ascii "invalid value '" ++ arguments ++ ascii "'")

/-- The command that takes no arguments. -/
def withoutOperand (name : Bytes) (command : Command) (arguments : Bytes) : Except Bytes Command :=
  if arguments = [] then .ok command
  else .error (ascii "invalid arguments to '" ++ name ++ ascii "': '" ++ arguments ++ ascii "'")

/-- The command that a text asks for, or why it is refused. -/
def request (text : Bytes) : Except Bytes Command :=
  match CommandLine.ofLine? text with
  | none => .error (ascii "empty command string")
  | some ⟨key, arguments⟩ =>
    if key = ascii "add" ∨ key = ascii "a" then withOperand .add arguments
    else if key = ascii "subtract" ∨ key = ascii "s" then withOperand .subtract arguments
    else if key = ascii "divide" ∨ key = ascii "d" then withOperand .divide arguments
    else if key = ascii "print" ∨ key = ascii "p" then
      withoutOperand (ascii "print") .print arguments
    else if key = ascii "help" ∨ key = ascii "h" then
      withoutOperand (ascii "help") (.builtin .help) arguments
    else if key = ascii "quit" ∨ key = ascii "q" then
      withoutOperand (ascii "quit") (.builtin .quit) arguments
    else .error (ascii "no command parser for '" ++ key ++ ascii "'")

theorem Operation.parse_eq (operation : Operation) (arguments : Bytes) :
    operation.parse arguments = (withOperand operation arguments).map some := by
  have hvalue : ValueType.float64.value? arguments =
      (Value.floatBits? .binary64 (Value.strip arguments)).map fun n => .float64 n.toUInt64 := rfl
  rw [Operation.parse, ValueType.parse, hvalue, withOperand]
  cases Value.floatBits? .binary64 (Value.strip arguments) with
  | none | some bits => rfl

theorem withoutArguments_eq (name : Bytes) (command : Command) (arguments : Bytes) :
    Parser.withoutArguments name command arguments =
      (withoutOperand name command arguments).map some := by
  unfold Parser.withoutArguments withoutOperand
  split <;> rfl

variable {r : Registry Command} {text key arguments : Bytes}

theorem answers_of_mem {p : Parser Command} {answer : Except Bytes Command}
    (htext : CommandLine.ofLine? text = some ⟨key, arguments⟩) (hp : p ∈ parsers)
    (hkey : p.HasKey key) (hparse : p.parse arguments = answer.map some) :
    Registry.Answers (parsers.map some) text answer := by
  obtain ⟨hne, hsplit⟩ := CommandLine.ofLine?_eq_some_iff.1 htext
  have hmem : some p ∈ parsers.map some := List.mem_map_of_mem hp
  cases answer with
  | error message => exact .refused hne hsplit hmem hkey hparse
  | ok command => exact .command hne hsplit hmem hkey hparse

theorem answers_operation (operation : Operation)
    (htext : CommandLine.ofLine? text = some ⟨key, arguments⟩)
    (hkey : key = operation.name ∨ key = operation.shorthand) :
    Registry.Answers (parsers.map some) text (withOperand operation arguments) := by
  have hmem : operation.parser ∈ parsers := by cases operation <;> simp [parsers]
  exact answers_of_mem htext hmem (hkey.imp Eq.symm fun h => congrArg some h.symm)
    (operation.parse_eq arguments)

theorem answers_print (htext : CommandLine.ofLine? text = some ⟨key, arguments⟩)
    (hkey : key = ascii "print" ∨ key = ascii "p") :
    Registry.Answers (parsers.map some) text (withoutOperand (ascii "print") .print arguments) := by
  have hmem : printParser ∈ parsers := by simp [parsers]
  exact answers_of_mem htext hmem (hkey.imp Eq.symm fun h => congrArg some h.symm)
    (withoutArguments_eq _ .print arguments)

theorem answers_builtin (b : Builtin) (htext : CommandLine.ofLine? text = some ⟨key, arguments⟩)
    (hkey : key = b.name ∨ key = b.shorthand) :
    Registry.Answers (parsers.map some) text (withoutOperand b.name (.builtin b) arguments) := by
  have hmem : b.parser .builtin ∈ parsers := by cases b <;> simp [parsers]
  exact answers_of_mem htext hmem (hkey.imp Eq.symm fun h => congrArg some h.symm)
    (withoutArguments_eq _ (.builtin b) arguments)

/-- The registry of the calculator makes of a text what it asks for. -/
theorem parse_eq_request (hr : registration.outcome = .ok r) (text : Bytes) :
    (r.parse text).mapError LineError.message = request text := by
  apply Registry.parse_of_answers hr
  unfold request
  cases htext : CommandLine.ofLine? text with
  | none =>
    obtain rfl : text = [] := by simpa [CommandLine.ofLine?] using htext
    exact .empty
  | some split =>
    obtain ⟨key, arguments⟩ := split
    dsimp only
    -- The keys are told apart in the order in which `request` does.
    by_cases hadd : key = ascii "add" ∨ key = ascii "a"
    · rw [if_pos hadd]
      exact answers_operation .add htext hadd
    rw [if_neg hadd]
    by_cases hsubtract : key = ascii "subtract" ∨ key = ascii "s"
    · rw [if_pos hsubtract]
      exact answers_operation .subtract htext hsubtract
    rw [if_neg hsubtract]
    by_cases hdivide : key = ascii "divide" ∨ key = ascii "d"
    · rw [if_pos hdivide]
      exact answers_operation .divide htext hdivide
    rw [if_neg hdivide]
    by_cases hprint : key = ascii "print" ∨ key = ascii "p"
    · rw [if_pos hprint]
      exact answers_print htext hprint
    rw [if_neg hprint]
    by_cases hhelp : key = ascii "help" ∨ key = ascii "h"
    · rw [if_pos hhelp]
      exact answers_builtin .help htext hhelp
    rw [if_neg hhelp]
    by_cases hquit : key = ascii "quit" ∨ key = ascii "q"
    · rw [if_pos hquit]
      exact answers_builtin .quit htext hquit
    rw [if_neg hquit]
    -- No parser is left.
    obtain ⟨hne, hsplit⟩ := CommandLine.ofLine?_eq_some_iff.1 htext
    refine .unknown hne hsplit fun p hp hkey => ?_
    simp only [parsers, List.map_cons, List.map_nil, List.mem_cons, Option.some.injEq,
      List.not_mem_nil, or_false] at hp
    rcases hp with rfl | rfl | rfl | rfl | rfl | rfl
    · exact hadd (hkey.imp Eq.symm fun h => (Option.some.inj h).symm)
    · exact hsubtract (hkey.imp Eq.symm fun h => (Option.some.inj h).symm)
    · exact hdivide (hkey.imp Eq.symm fun h => (Option.some.inj h).symm)
    · exact hprint (hkey.imp Eq.symm fun h => (Option.some.inj h).symm)
    · exact hhelp (hkey.imp Eq.symm fun h => (Option.some.inj h).symm)
    · exact hquit (hkey.imp Eq.symm fun h => (Option.some.inj h).symm)

theorem request_eq_quit_iff (line : Bytes) :
    request (Text.trim line) = .ok (.builtin .quit) ↔ Quits line := by
  obtain ⟨r, hr⟩ := exists_registry
  rw [← parse_eq_request hr]
  exact parse_eq_quit_iff hr (Text.trim_ne_concat_space line)

/-! ## Answers -/

abbrev DividesByZero (operation : Operation) (operand : Float) : Prop :=
  operation = .divide ∧ operand == 0

/-- The commands in the order in which the help lists them. -/
def listed : List HelpEntry :=
  [.ofParser Operation.add.parser, .ofParser Operation.divide.parser,
    .ofParser (Builtin.help.parser Command.builtin), .ofParser printParser,
    .ofParser (Builtin.quit.parser Command.builtin), .ofParser Operation.subtract.parser]

/-- The answer to a request, by the register before it. -/
def answer (register : Float) : Except Bytes Command → Bytes
  | .error reason => Text.withNewline (ascii "Invalid input: " ++ reason ++ ascii ".")
  | .ok (.arithmetic operation operand) =>
    if DividesByZero operation operand then
      Text.withNewline (ascii "Command error: cannot divide by zero.")
    else Text.withNewline (showRegister (operation.evaluate operand register))
  | .ok .print => Text.withNewline (showRegister register)
  | .ok (.builtin .help) => Text.withNewline (HelpTable.render listed)
  | .ok (.builtin .quit) => Text.withNewline (ascii "Exiting.")

/-- The operation that a line performs on the register, if any, with its operand. -/
def change? (line : Bytes) : Option (Operation × Float) :=
  match request (Text.trim line) with
  | .ok (.arithmetic operation operand) =>
    if DividesByZero operation operand then none else some (operation, operand)
  | .ok .print | .ok (.builtin _) | .error _ => none

/-- The register after the lines. -/
def registerAfter (lines : List Bytes) : Float :=
  (lines.filterMap change?).foldl
    (fun register (operation, operand) => operation.evaluate operand register) 0

/-- How the command of a line ends, unless the line is refused. -/
def outcome? (line : Bytes) : Option LastOutcome :=
  match request (Text.trim line) with
  | .ok (.arithmetic operation operand) =>
    some (if DividesByZero operation operand then .erred else .applied)
  | .ok .print | .ok (.builtin _) => some .applied
  | .error _ => none

/-- How the last command of the lines has ended. -/
def outcomeAfter (lines : List Bytes) : LastOutcome :=
  ((lines.filterMap outcome?).getLast?).getD .applied

/-- The prompt after the lines. -/
def promptAfter (prompts : Prompts) (lines : List Bytes) : Bytes :=
  match outcomeAfter lines with
  | .applied => prompts.applied
  | .skipped => prompts.skipped
  | .erred => prompts.erred

theorem promptAfter_eq (prompts : Prompts) (lines : List Bytes) :
    promptAfter prompts lines = prompts.after (outcomeAfter lines) := by
  rw [promptAfter]
  cases outcomeAfter lines <;> rfl

/-- All that is shown after the earlier lines: a prompt and an answer for each line up to the one
that quits, or else a last prompt. -/
def dialogue (prompts : Prompts) (earlier : List Bytes) : List Bytes → Bytes
  | [] => promptAfter prompts earlier
  | line :: later =>
    promptAfter prompts earlier ++
      answer (registerAfter earlier) (request (Text.trim line)) ++
        if Quits line then [] else dialogue prompts (earlier ++ [line]) later

/-! ## Commands -/

/-- What comes of an operation, by the register before it. -/
def Operation.effect (operation : Operation) (operand register : Float) : Effect Float :=
  if DividesByZero operation operand then
    ⟨[], register, .running, .failed (ascii "cannot divide by zero")⟩
  else
    let result := operation.evaluate operand register
    ⟨Text.withNewline (showRegister result), result, .running, .applied⟩

def Command.effect (command : Command) (register : Float) : Effect Float :=
  match command with
  | .arithmetic operation operand => operation.effect operand register
  | .print | .builtin .help => ⟨answer register (.ok command), register, .running, .applied⟩
  | .builtin .quit => ⟨answer register (.ok command), register, .stopped, .applied⟩

theorem does_printLine (register : Float) (flag : RunFlag) (text : Bytes) :
    (Action.printLine text (.finish .applied)).Does register flag
      ⟨Text.withNewline text, register, flag, .applied⟩ := by
  have hdone : Action.Does register flag (.finish .applied) ⟨[], register, flag, .applied⟩ :=
    .finish rfl
  have hprinted : Action.Does register flag (.printLine text (.finish .applied)) _ := .print hdone
  rwa [List.append_nil] at hprinted

theorem Operation.does (operation : Operation) (operand register : Float) :
    (operation.action operand).Does register .running (operation.effect operand register) := by
  unfold Operation.action Operation.effect
  by_cases hzero : DividesByZero operation operand
  · rw [if_pos hzero, if_pos hzero]
    exact .finish rfl
  · rw [if_neg hzero, if_neg hzero]
    exact .update (.consult (does_printLine _ .running _))

theorem Command.does (command : Command) (register : Float) :
    (command.action listed).Does register .running (command.effect register) := by
  cases command with
  | arithmetic operation operand => exact operation.does operand register
  | print => exact .consult (does_printLine register .running _)
  | builtin b =>
    cases b with
    | help => exact does_printLine register .running _
    | quit => exact .setFlag (does_printLine register .stopped _)

/-- What a command says, with what the session says of its result, is the answer to it. -/
theorem Command.said_append_remark (command : Command) (register : Float) :
    (command.effect register).said ++ (command.effect register).result.remark =
      answer register (.ok command) := by
  cases command with
  | arithmetic operation operand =>
    show (operation.effect operand register).said ++
        (operation.effect operand register).result.remark =
      if DividesByZero operation operand then _ else _
    unfold Operation.effect
    by_cases hzero : DividesByZero operation operand
    · rw [if_pos hzero, if_pos hzero]
      rfl
    · rw [if_neg hzero, if_neg hzero]
      exact List.append_nil _
  | print => exact List.append_nil _
  | builtin b => cases b <;> exact List.append_nil _

theorem Command.effect_flag (command : Command) (register : Float) :
    (command.effect register).flag = .running ↔ command ≠ .builtin .quit := by
  cases command with
  | arithmetic operation operand =>
    refine iff_of_true ?_ nofun
    show (operation.effect operand register).flag = .running
    unfold Operation.effect
    split <;> rfl
  | print => exact iff_of_true rfl nofun
  | builtin b =>
    cases b with
    | help => exact iff_of_true rfl nofun
    | quit => exact iff_of_false nofun fun h => h rfl

/-! ## One line more -/

variable {line : Bytes} {earlier : List Bytes}

theorem registerAfter_concat (earlier : List Bytes) (line : Bytes) :
    registerAfter (earlier ++ [line]) =
      match request (Text.trim line) with
      | .ok command => (command.effect (registerAfter earlier)).context
      | .error _ => registerAfter earlier := by
  have hfold : registerAfter (earlier ++ [line]) =
      (change? line).elim (registerAfter earlier) fun (operation, operand) =>
        operation.evaluate operand (registerAfter earlier) := by
    rw [registerAfter, filterMap_concat, List.foldl_append]
    cases change? line <;> rfl
  rw [hfold, change?]
  rcases request (Text.trim line) with reason | ⟨operation, operand⟩ | _ | (_ | _)
  · rfl
  · show Option.elim (if DividesByZero operation operand then _ else _) _ _ =
      (operation.effect operand _).context
    unfold Operation.effect
    by_cases hzero : DividesByZero operation operand
    · rw [if_pos hzero, if_pos hzero]
      rfl
    · rw [if_neg hzero, if_neg hzero]
      rfl
  · rfl
  · rfl
  · rfl

theorem outcomeAfter_concat (earlier : List Bytes) (line : Bytes) (register : Float) :
    outcomeAfter (earlier ++ [line]) =
      match request (Text.trim line) with
      | .ok command => (command.effect register).result.lastOutcome
      | .error _ => outcomeAfter earlier := by
  have hlast : outcomeAfter (earlier ++ [line]) = (outcome? line).getD (outcomeAfter earlier) := by
    rw [outcomeAfter, filterMap_concat, List.getLast?_append]
    cases outcome? line <;> rfl
  rw [hlast, outcome?]
  rcases request (Text.trim line) with reason | ⟨operation, operand⟩ | _ | (_ | _)
  · rfl
  · show (if DividesByZero operation operand then _ else _) =
      (operation.effect operand register).result.lastOutcome
    unfold Operation.effect
    by_cases hzero : DividesByZero operation operand
    · rw [if_pos hzero, if_pos hzero]
      rfl
    · rw [if_neg hzero, if_neg hzero]
      rfl
  · rfl
  · rfl
  · rfl

/-- The session goes on after a command unless its line quits. -/
theorem continuation_eq {command : Command} (hrequest : request (Text.trim line) = .ok command)
    (prompts : Prompts) (last : LastOutcome) (register : Float) (later : List Bytes) :
    continuation prompts request Command.effect last register
        (command.effect (registerAfter earlier)).flag later =
      if Quits line then []
      else conversation prompts request Command.effect last register later := by
  have hquits := request_eq_quit_iff line
  rw [hrequest] at hquits
  unfold continuation
  by_cases hquit : Quits line
  · rw [if_pos hquit, if_neg]
    intro hrunning
    exact (Command.effect_flag ..).1 hrunning (Except.ok.inj (hquits.2 hquit))
  · rw [if_neg hquit, if_pos]
    refine (Command.effect_flag ..).2 fun hcommand => hquit (hquits.1 ?_)
    rw [hcommand]

/-- The conversation that the lines make is the dialogue. -/
theorem conversation_eq_dialogue (prompts : Prompts) (earlier lines : List Bytes) :
    conversation prompts request Command.effect (outcomeAfter earlier) (registerAfter earlier)
        lines =
      dialogue prompts earlier lines := by
  -- A conversation carries the register and the last outcome along; the dialogue has the earlier
  -- lines instead, which grow by one.
  induction lines generalizing earlier with
  | nil => exact (promptAfter_eq prompts earlier).symm
  | cons line later ih =>
    have hrest := ih (earlier ++ [line])
    rw [registerAfter_concat, outcomeAfter_concat earlier line (registerAfter earlier)] at hrest
    rw [dialogue, promptAfter_eq]
    cases hrequest : request (Text.trim line) with
    | error reason =>
      -- The register and the outcome stay, so the next prompt is the same.
      have hquit : ¬Quits line := by
        rw [← request_eq_quit_iff, hrequest]
        exact nofun
      rw [hrequest] at hrest
      rw [conversation_of_refused hrequest, if_neg hquit, ← hrest]
      rfl
    | ok command =>
      rw [hrequest] at hrest
      rw [conversation_of_accepted hrequest, response, ← Command.said_append_remark, ← hrest]
      dsimp only
      rw [continuation_eq hrequest]
      simp only [List.append_assoc]

/-! ## The program -/

/-- The process has the lines before it and has shown the text. Its log shows nothing. -/
structure Process.Conversing (lines : List Bytes) (shown : Bytes) (p : Process) : Prop where
  input : p.input.Gives lines
  hushed : p.services.Hushed ⟨shown, none, false⟩

theorem Process.converses : Host.Converses Conversing (ascii "end of input stream") where
  print text hp := by
    rw [print_eq, hp.hushed.stdout]
    exact ⟨rfl, hp.input, ⟨hp.hushed.logFile, rfl⟩, hp.hushed.console⟩
  line hp :=
    have ⟨hline, hothers⟩ := hp.input.readLine_cons
    ⟨hline, hothers, hp.hushed⟩
  ended hp :=
    have ⟨hended, hafter⟩ := hp.input.readLine_nil
    ⟨hended, hafter, hp.hushed⟩
  log entry hp := ⟨hp.input, hp.hushed.log _ entry⟩

theorem helpEntries_eq_listed (hr : registration.outcome = .ok r) : r.helpEntries = listed := by
  have hlisted : registration.outcome.toOption.map Registry.helpEntries = some listed := by
    decide +kernel
  rw [hr] at hlisted
  exact Option.some.inj hlisted

theorem effects (hr : registration.outcome = .ok r) (prompts : Prompts) :
    Session.Effects (application r prompts) Command.effect := by
  intro command register
  show (command.action r.helpEntries).Does _ _ _
  rw [helpEntries_eq_listed hr]
  exact command.does register

variable {l : Launch} {s : Services}

theorem session_shows (hr : registration.outcome = .ok r) (hs : s.Hushed .unlimited) :
    (session r l s).state.host.services.Hushed
      ⟨dialogue s.prompts [] (Text.lines l.sessionInput), none, false⟩ := by
  have hparse : (application r s.prompts).parseLine = request := funext (parse_eq_request hr)
  have hgiven : Process.Conversing (Text.lines l.sessionInput) []
      ⟨s, .ofBytes l.sessionInput, l.now⟩ := ⟨InputStream.gives_ofBytes l.sessionInput, hs⟩
  obtain ⟨left, -, hshown⟩ := Session.run_converses (s := .start _ (0 : Float)) Process.supply
    Process.converses (effects hr s.prompts) trivial hgiven
  rw [hparse] at hshown
  rw [← conversation_eq_dialogue]
  exact hshown

end Repl.Calculator
