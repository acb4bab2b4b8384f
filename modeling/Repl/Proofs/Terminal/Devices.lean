import Repl.Proofs.Session.Script
import Repl.Proofs.Terminal.Stream
import Repl.Proofs.Terminal.Uses

/-!
Two devices side by side: streams over an input, and a script of the lines of that input. They answer
every use alike, to the end of the input and beyond it, where each fails with a message of its own.
-/

namespace Repl

open Exchange Terminal Use

theorem Streams.supply : Supply fun _ : Streams => True where
  closed n :=
    { print := fun _ _ ht => ht
      readLine := fun t ht =>
        ⟨trivial, Nat.lt_of_le_of_lt t.input.length_rest_readLine.1 ht.2⟩ }
  spend := by
    intro n t line ht hline
    have hshorter := t.input.length_rest_readLine.2 line hline
    exact ⟨trivial, Nat.lt_of_lt_of_le hshorter (Nat.lt_succ_iff.1 ht.2)⟩

/-- The terminal reads from a script. -/
def Scripted.HasScript (u : Scripted) : Prop :=
  ∃ entries, u.source = .script entries

/-- A script lasts as long as on a bench without a logger. -/
theorem Scripted.supply : Supply Scripted.HasScript where
  closed n :=
    { print := fun text u hu => (Bench.supply.closed n).print text ⟨u, none⟩ hu
      readLine := fun u hu => (Bench.supply.closed n).readLine ⟨u, none⟩ hu }
  spend {_ u _} hu hline := Bench.supply.spend (t := ⟨u, none⟩) hu hline

namespace Scripted

variable {u : Scripted}

theorem printFor_of_no_rules (h : u.rules = []) (purpose : Purpose) (text : Bytes) :
    printFor purpose text u =
      ⟨.ok (), [⟨purpose, .printed text⟩], { u with prints := u.prints + 1 }⟩ := by
  obtain ⟨source, rules, prints⟩ := u
  obtain rfl : rules = [] := h
  rfl

theorem nextLine_of_script_cons {line : Bytes} {rest : List ScriptEntry}
    (h : u.source = .script (.line line :: rest)) :
    nextLine u = ⟨.ok line, [⟨.line, .lineRead line⟩], { u with source := .script rest }⟩ := by
  obtain ⟨source, rules, prints⟩ := u
  obtain rfl : source = .script (.line line :: rest) := h
  rfl

theorem nextLine_of_script_nil (h : u.source = .script []) :
    nextLine u =
      ⟨.error (ascii "no more lines"), [⟨.line, .readFailed (ascii "no more lines")⟩], u⟩ := by
  obtain ⟨source, rules, prints⟩ := u
  obtain rfl : source = .script [] := h
  rfl

end Scripted

/-- The text that a print was given, whether or not it succeeded. -/
def Invocation.printText : Invocation → Bytes
  | printed text | printFailed text _ => text
  | lineRead _ | readFailed _ => []

namespace Devices

variable {α β : Type} {lines left : List Bytes} {t : Streams} {u : Scripted}

/-- The devices have the same lines before them, and take every print. -/
structure Level (lines : List Bytes) (t : Streams) (u : Scripted) : Prop where
  input : t.input.Gives lines
  output : t.output.Unlimited
  script : u.source = .script (lines.map .line)
  rules : u.rules = []

theorem level_lines (s : Bytes) :
    Level (Text.lines s) (.ofInput s) (.ofScript ((Text.lines s).map .line) []) where
  input := InputStream.gives_ofBytes s
  output := Sink.unlimited_unlimited
  script := rfl
  rules := rfl

/-- Both devices were to read past the end. -/
structure PastEnd (a : Reply Call Streams α) (b : Reply Call Scripted α) : Prop where
  streamed : a.outcome = .error (ascii "end of input stream")
  scripted : b.outcome = .error (ascii "no more lines")
  spent : b.state.source = .script []

/-- The devices have replied alike, from streams that were in the state `t`, and have the same lines
left. -/
structure Alike (left : List Bytes) (t : Streams) (a : Reply Call Streams α)
    (b : Reply Call Scripted α) : Prop where
  outcome : (∃ value, a.outcome = .ok value ∧ b.outcome = .ok value) ∨ PastEnd a b
  level : Level left a.state b.state
  written : a.state.output.written =
    t.output.written ++ b.events.flatMap fun c => c.invocation.printText

/-! ## Single uses -/

theorem Level.alike_pure (h : Level lines t u) (value : α) :
    Alike lines t ((pure value : Exchange Call Streams α) t)
      ((pure value : Exchange Call Scripted α) u) where
  outcome := .inl ⟨value, rfl, rfl⟩
  level := h
  written := (List.append_nil _).symm

theorem Level.alike_print (h : Level lines t u) (purpose : Purpose) (text : Bytes) :
    (printFor purpose text t).outcome = .ok () ∧
      Alike lines t (printFor purpose text t) (printFor purpose text u) := by
  have hprint := Sink.Unlimited.print h.output text
  rw [Scripted.printFor_of_no_rules h.rules, printFor_apply]
  refine ⟨hprint.1, .inl ⟨(), hprint.1, rfl⟩, ⟨h.input, hprint.2, h.script, h.rules⟩, ?_⟩
  show (t.output.print text).2.written = t.output.written ++ (text ++ [])
  rw [List.append_nil]
  exact Sink.Unlimited.written_write h.output text

theorem Level.alike_line {line : Bytes} (h : Level (line :: lines) t u) :
    (nextLine t).outcome = .ok line ∧ Alike lines t (nextLine t) (nextLine u) := by
  have hread := h.input.readLine_cons
  rw [Scripted.nextLine_of_script_cons h.script, nextLine_apply]
  exact ⟨hread.1, .inl ⟨line, hread.1, rfl⟩, ⟨hread.2, h.output, rfl, h.rules⟩,
    (List.append_nil _).symm⟩

/-- Past the end both devices fail, and they are there again afterwards. -/
theorem Level.alike_end (h : Level [] t u) :
    PastEnd (nextLine t) (nextLine u) ∧ Alike [] t (nextLine t) (nextLine u) := by
  have hread := h.input.readLine_nil
  have hpast : PastEnd (nextLine t) (nextLine u) := by
    rw [Scripted.nextLine_of_script_nil h.script, nextLine_apply]
    exact ⟨hread.1, rfl, h.script⟩
  refine ⟨hpast, .inr hpast, ?_, ?_⟩
  all_goals rw [Scripted.nextLine_of_script_nil h.script, nextLine_apply]
  · exact ⟨hread.2, h.output, h.script, h.rules⟩
  · exact (List.append_nil _).symm

/-! ## Requests -/

variable {x : Exchange Call Streams α} {y : Exchange Call Scripted α}
  {f : α → Exchange Call Streams β} {g : α → Exchange Call Scripted β}

/-- The devices stay alike in a second reply. -/
theorem Alike.after {a : Reply Call Streams α} {b : Reply Call Scripted α}
    {a' : Reply Call Streams β} {b' : Reply Call Scripted β} (h : Alike lines t a b)
    (h' : Alike left a.state a' b') : Alike left t (a'.after a.events) (b'.after b.events) where
  outcome := h'.outcome.imp_right fun hpast => ⟨hpast.streamed, hpast.scripted, hpast.spent⟩
  level := h'.level
  written := by
    rw [Reply.after_state, Reply.after_events, h'.written, h.written, List.flatMap_append,
      List.append_assoc]

/-- The devices stay alike in a second exchange if it is made alike wherever the first leads. -/
theorem Alike.bind (h : Alike lines t (x t) (y u))
    (hnext : ∀ value, (x t).outcome = .ok value → Level lines (x t).state (y u).state →
      ∃ left, Alike left (x t).state (f value (x t).state) (g value (y u).state)) :
    ∃ left, Alike left t ((x >>= f) t) ((y >>= g) u) := by
  obtain ⟨value, hx, hy⟩ | hpast := h.outcome
  · obtain ⟨left, hleft⟩ := hnext value hx h.level
    rw [bind_apply_of_ok hx, bind_apply_of_ok hy]
    exact ⟨left, h.after hleft⟩
  · rw [bind_apply_of_error hpast.streamed, bind_apply_of_error hpast.scripted]
    exact ⟨lines, .inr ⟨rfl, rfl, hpast.spent⟩, h.level, h.written⟩

/-- A question takes the same lines on both devices, and the same answer. -/
theorem Level.alike_readValue (h : Level lines t u) (prompt : Bytes)
    (parse : Bytes → Except Bytes α) :
    ∃ left, Alike left t (readValue prompt parse t) (readValue prompt parse u) := by
  -- Each round takes a line, so the rounds follow the lines before the devices.
  induction lines generalizing t u with
  | nil =>
    rw [readValue_eq Streams.supply trivial, readValue_eq Scripted.supply ⟨_, h.script⟩]
    refine (h.alike_print .prompt prompt).2.bind fun _ _ hprompted => ?_
    have ⟨hpast, hended⟩ := hprompted.alike_end
    refine hended.bind fun line hline _ => ?_
    cases hpast.streamed.symm.trans hline
  | cons line lines ih =>
    rw [readValue_eq Streams.supply trivial, readValue_eq Scripted.supply ⟨_, h.script⟩]
    refine (h.alike_print .prompt prompt).2.bind fun _ _ hprompted => ?_
    have ⟨hline, hread⟩ := hprompted.alike_line
    refine hread.bind fun other hother hrest => ?_
    obtain rfl : line = other := Except.ok.inj (hline.symm.trans hother)
    cases parse (Text.trim line) with
    | ok value => exact ⟨lines, hrest.alike_pure value⟩
    | error reason =>
      exact (hrest.alike_print .complaint (complaint reason)).2.bind fun _ _ hrefused => ih hrefused

theorem Level.alike_nextLine (h : Level lines t u) :
    ∃ left, Alike left t (nextLine t) (nextLine u) := by
  cases lines with
  | nil => exact ⟨[], h.alike_end.2⟩
  | cons line lines => exact ⟨lines, h.alike_line.2⟩

theorem Level.alike_serve (h : Level lines t u) (request : Request) :
    ∃ left, Alike left t (serve request t) (serve request u) := by
  cases request with
  | print text =>
    exact (h.alike_print .output text).2.bind fun _ _ hprinted => ⟨lines, hprinted.alike_pure none⟩
  | printLine text =>
    exact (h.alike_print .output (Text.withNewline text)).2.bind fun _ _ hprinted =>
      ⟨lines, hprinted.alike_pure none⟩
  | readLine =>
    obtain ⟨left, hread⟩ := h.alike_nextLine
    exact hread.bind fun line _ hrest => ⟨left, hrest.alike_pure (some line)⟩
  | readValue prompt type orDefault =>
    obtain ⟨left, hasked⟩ := h.alike_readValue prompt (type.parser orDefault)
    exact hasked.bind fun value _ hrest => ⟨left, hrest.alike_pure (some value.render)⟩

theorem Level.alike_perform (h : Level lines t u) (use : Use) :
    ∃ left, Alike left t (use.perform t) (use.perform u) := by
  cases use with
  | request r => exact h.alike_serve r
  | question prompt parse => exact h.alike_readValue prompt parse

/-- A print succeeds. -/
theorem Level.perform_print (h : Level lines t u) {use : Use} (hreads : use.reads = false) :
    ∃ answer, (use.perform t).outcome = .ok answer := by
  have hwrite : ∀ text, ((write text >>= fun _ => pure none :
      Exchange Call Streams Terminal.Answer) t).outcome = .ok none := by
    intro text
    rw [write, bind_apply_of_ok (h.alike_print .output text).1]
    rfl
  cases use with
  | question => cases hreads
  | request r =>
    cases r with
    | print text => exact ⟨none, hwrite text⟩
    | printLine text => exact ⟨none, hwrite (Text.withNewline text)⟩
    | readLine | readValue => cases hreads

/-- The answers of the devices to a use. They are the same, unless the use is to read past the
end. -/
def SameAnswer (use : Use) (a : Reply Call Streams use.Answer) (b : Reply Call Scripted use.Answer) :
    Prop :=
  (∃ answer, a.outcome = .ok answer ∧ b.outcome = .ok answer) ∨ use.reads = true ∧ PastEnd a b

theorem Level.sameAnswer_perform (h : Level lines t u) (use : Use) :
    SameAnswer use (use.perform t) (use.perform u) := by
  obtain ⟨left, halike⟩ := h.alike_perform use
  obtain hsame | hpast := halike.outcome
  · exact .inl hsame
  · cases hreads : use.reads with
    | true => exact .inr ⟨hreads, hpast⟩
    | false =>
      obtain ⟨answer, hprinted⟩ := h.perform_print hreads
      cases hpast.streamed.symm.trans hprinted

/-! ## Uses in a row -/

theorem Level.alike_performAll (h : Level lines t u) (uses : List Use) :
    ∃ left, Alike left t (performAll uses t) (performAll uses u) := by
  induction uses generalizing lines t u with
  | nil => exact ⟨lines, h.alike_pure ()⟩
  | cons use rest ih =>
    obtain ⟨left, halike⟩ := h.alike_perform use
    obtain ⟨last, hrest⟩ := ih halike.level
    exact ⟨last, halike.after hrest⟩

/-- Streams over an input and a script of its lines give the same answer to a use, whatever was done
with both before, except that each has its own message for a read past the end. What the streams have
written is what the script was given to print. -/
theorem streams_agree_with_script (s : Bytes) (before : List Use) (use : Use) :
    let streamed := performAll before (Streams.ofInput s)
    let scripted := performAll before (Scripted.ofScript ((Text.lines s).map .line) [])
    SameAnswer use (use.perform streamed.state) (use.perform scripted.state) ∧
      streamed.state.output.written = scripted.events.flatMap fun c => c.invocation.printText := by
  intro streamed scripted
  obtain ⟨left, halike⟩ := (level_lines s).alike_performAll before
  exact ⟨halike.level.sameAnswer_perform use, halike.written⟩

/-- A last line without a newline is read as any other, and a carriage return stays in its line. -/
example :
    (serveAll [.readLine, .readLine, .readLine] (Streams.ofInput (ascii "4\r\nx"))).map (·.outcome) =
      [.ok (some (ascii "4\r")), .ok (some (ascii "x")), .error (ascii "end of input stream")] := by
  decide

end Devices

end Repl
