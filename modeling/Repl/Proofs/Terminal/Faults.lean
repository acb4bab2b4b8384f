import Repl.Proofs.Terminal.Incidents

/-!
Faults of streams. The streams under a terminal may break, end and be cleared again in any order: no
line of the input is lost, split or given twice on account of that, and what is written is what the
prints that succeeded were given.
-/

namespace Repl

/-! ## What a use of one stream can do -/

namespace InputStream

/-- Everything that a read can do. -/
inductive Reads : InputStream → Except Bytes Bytes × InputStream → Prop where
  | refused {i : InputStream} (h : i.good = false) :
    Reads i (.error i.failureMessage, { i with failed := true })
  | ended : Reads (ofBytes []) (.error (ascii "end of input stream"), ⟨[], true, true, false⟩)
  | last {line : Bytes} (hline : Ascii.newline ∉ line) (hne : line ≠ []) :
    Reads (ofBytes line) (.ok line, ⟨[], true, false, false⟩)
  | line {line : Bytes} (hline : Ascii.newline ∉ line) (rest : Bytes) :
    Reads (ofBytes (line ++ Ascii.newline :: rest)) (.ok line, ofBytes rest)

theorem eq_ofBytes_of_good {i : InputStream} (h : i.good = true) : i = ofBytes i.rest := by
  obtain ⟨rest, ended, failed, damaged⟩ := i
  simp only [good, Bool.and_eq_true, Bool.not_eq_true'] at h
  obtain ⟨⟨rfl, rfl⟩, rfl⟩ := h
  rfl

theorem reads_readLine (i : InputStream) : Reads i i.readLine := by
  cases hgood : i.good with
  | false =>
    rw [readLine, hgood, Bool.not_false, if_pos rfl]
    exact .refused hgood
  | true =>
    rw [eq_ofBytes_of_good hgood]
    obtain ⟨lines, hlines⟩ : ∃ lines, Text.HasLines i.rest lines := ⟨_, Text.hasLines_lines _⟩
    generalize i.rest = text at hlines
    cases hlines with
    | empty => exact .ended
    | unterminated hline hne =>
      rw [readLine_ofBytes_of_not_mem hline hne]
      exact .last hline hne
    | @terminated line rest _ hline _ =>
      rw [readLine_ofBytes_append hline]
      exact .line hline rest

/-- A stream in good order gives the first line that is left, if there is any. -/
theorem readLine_ofBytes (text : Bytes) :
    (ofBytes text).readLine.1 =
      if text = [] then .error (ascii "end of input stream")
      else .ok (text.takeWhile (· ≠ Ascii.newline)) := by
  by_cases hempty : text = []
  · rw [if_pos hempty, hempty]
    rfl
  · rw [if_neg hempty, readLine_of_good rfl hempty]
    cases (ofBytes text).rest.dropWhile (· ≠ Ascii.newline) with
    | nil | cons b rest => rfl

end InputStream

namespace Sink

variable {sink : Sink}

theorem print_of_broken (h : sink.broken = true) (text : Bytes) :
    sink.print text = (.error (ascii "failed to write to output stream"), sink) := by
  have hwrite : sink.write text = sink := by rw [write, if_pos h]
  rw [print, hwrite, h]
  rfl

theorem print_of_unbroken (hroom : sink.room = none) (h : sink.broken = false) (text : Bytes) :
    sink.print text = (.ok (), { sink with written := sink.written ++ text }) := by
  have hwrite : sink.write text = { sink with written := sink.written ++ text } := by
    rw [write, h, if_neg Bool.false_ne_true, hroom]
  rw [print, hwrite, h]
  rfl

end Sink

/-- The lines were taken off the front of the text, each with its newline, and the rest is left. Only
the last line of the text may lack a newline. -/
inductive Text.TakenOff (s : Bytes) : List Bytes → Bytes → Prop where
  | terminated {lines : List Bytes} {rest : Bytes} (h : s = lines.flatMap withNewline ++ rest) :
    TakenOff s lines rest
  | unterminated {lines : List Bytes} {last : Bytes} (hne : last ≠ [])
    (h : s = lines.flatMap withNewline ++ last) : TakenOff s (lines ++ [last]) []

theorem Text.TakenOff.eq_append {s : Bytes} {lines : List Bytes} {rest : Bytes}
    (h : TakenOff s lines rest) (hne : rest ≠ []) : s = lines.flatMap withNewline ++ rest := by
  cases h with
  | terminated h => exact h
  | unterminated _ _ => exact absurd rfl hne

namespace Invocation

/-- The line that was read, if one was. -/
def line? : Invocation → Option Bytes
  | lineRead line => some line
  | printed _ | printFailed .. | readFailed _ => none

/-- The text that was printed, empty if none was. -/
def shown : Invocation → Bytes
  | printed text => text
  | printFailed .. | lineRead _ | readFailed _ => []

end Invocation

namespace Streams

/-! ## What the incidents tell -/

namespace Incident

def invocation? : Incident → Option Invocation
  | call c => some c.invocation
  | intervention _ => none

/-- Whether the incident is about the input stream. -/
def concernsInput : Incident → Bool
  | call c => c.invocation.isRead
  | intervention .breakIn | intervention .clearIn => true
  | intervention .breakOut | intervention .clearOut => false

end Incident

def invocations (past : List Incident) : List Invocation :=
  past.filterMap Incident.invocation?

/-- The lines that reads have delivered, in order. -/
def deliveredLines (past : List Incident) : List Bytes :=
  (invocations past).filterMap Invocation.line?

/-- The texts of the prints that succeeded, one after another. -/
def shownText (past : List Incident) : Bytes :=
  (invocations past).flatMap Invocation.shown

/-- A read has failed, and the input was not cleared since. -/
def Jammed (past : List Incident) : Prop :=
  ∃ earlier purpose message later,
    past = earlier ++ .call ⟨purpose, .readFailed message⟩ :: later ∧
      .intervention .clearIn ∉ later

/-- The input was cleared, and neither read nor broken since. -/
def Reopened (past : List Incident) : Prop :=
  ∃ earlier later, past = earlier ++ .intervention .clearIn :: later ∧
    ∀ i ∈ later, i.concernsInput = false

/-- The streams have lost nothing of an input, and will not with the next use. -/
structure Faithful (s : Bytes) (past : List Incident) (t : Streams) : Prop where
  /-- With their newlines, the lines delivered are what was consumed. -/
  delivered : Text.TakenOff s (deliveredLines past) t.input.rest
  /-- No line was delivered together with the next one. -/
  single : ∀ line ∈ deliveredLines past, Ascii.newline ∉ line
  /-- A read that fails consumes nothing. -/
  failedRead : ∀ message, t.readLine.1 = .error message → t.readLine.2.input.rest = t.input.rest
  /-- A read fails if one has failed before and the input was not cleared since. -/
  jammed : Jammed past → ∃ message, t.readLine.1 = .error message
  /-- A cleared input goes on at the first byte that was not delivered. -/
  reopened : Reopened past → t.readLine.1 =
    if t.input.rest = [] then .error (ascii "end of input stream")
    else .ok (t.input.rest.takeWhile (· ≠ Ascii.newline))
  written : t.output.written = shownText past
  /-- A print that fails writes nothing. -/
  failedPrint : ∀ text message, (t.print text).1 = .error message →
    (t.print text).2.output.written = t.output.written

variable {s : Bytes} {t u : Streams} {past : List Incident} {i : Incident}

theorem invocations_concat (past : List Incident) (i : Incident) :
    invocations (past ++ [i]) = invocations past ++ i.invocation?.toList :=
  filterMap_concat _ _ _

theorem deliveredLines_concat (past : List Incident) (i : Incident) :
    deliveredLines (past ++ [i]) =
      deliveredLines past ++ (i.invocation?.bind Invocation.line?).toList := by
  rw [deliveredLines, invocations_concat, List.filterMap_append, deliveredLines]
  cases i with
  | intervention => rfl
  | call c =>
    obtain ⟨purpose, invocation⟩ := c
    cases invocation <;> rfl

theorem shownText_concat (past : List Incident) (i : Incident) :
    shownText (past ++ [i]) = shownText past ++ (i.invocation?.map Invocation.shown).getD [] := by
  rw [shownText, invocations_concat, List.flatMap_append, shownText]
  cases i with
  | intervention => rfl
  | call c => exact congrArg _ (List.append_nil _)

theorem Jammed.of_concat (h : Jammed (past ++ [i])) :
    (∃ purpose message, i = .call ⟨purpose, .readFailed message⟩) ∨
      Jammed past ∧ i ≠ .intervention .clearIn := by
  obtain ⟨earlier, purpose, message, later, hpast, hclear⟩ := h
  obtain ⟨-, rfl, -⟩ | ⟨later, rfl, rfl⟩ := concat_eq_append_cons_iff.1 hpast
  · exact .inl ⟨purpose, message, rfl⟩
  · rw [mem_concat_iff, not_or] at hclear
    exact .inr ⟨⟨earlier, purpose, message, later, rfl, hclear.1⟩, Ne.symm hclear.2⟩

theorem Reopened.of_concat (h : Reopened (past ++ [i])) :
    i = .intervention .clearIn ∨ Reopened past ∧ i.concernsInput = false := by
  obtain ⟨earlier, later, hpast, hlater⟩ := h
  obtain ⟨-, rfl, -⟩ | ⟨later, rfl, rfl⟩ := concat_eq_append_cons_iff.1 hpast
  · exact .inl rfl
  · have hearlier : ∀ j ∈ later, j.concernsInput = false :=
      fun j hj => hlater j (mem_concat_iff.2 (.inl hj))
    exact .inr ⟨⟨earlier, later, rfl, hearlier⟩, hlater i (mem_concat_iff.2 (.inr rfl))⟩

/-! ## The input -/

/-- The input stream is as what happened to it has left it. -/
structure InputKept (s : Bytes) (past : List Incident) (input : InputStream) : Prop where
  delivered : Text.TakenOff s (deliveredLines past) input.rest
  single : ∀ line ∈ deliveredLines past, Ascii.newline ∉ line
  jammed : Jammed past → input.good = false
  reopened : Reopened past → input = .ofBytes input.rest

namespace InputKept

variable {input : InputStream}

theorem start (s : Bytes) : InputKept s [] (.ofBytes s) where
  delivered := .terminated rfl
  single := List.forall_mem_nil _
  jammed := by
    rintro ⟨earlier, _, _, _, hpast, -⟩
    simp at hpast
  reopened _ := rfl

/-- What does not concern the input leaves it as it is. -/
theorem aside (h : InputKept s past input) (hi : i.concernsInput = false) :
    InputKept s (past ++ [i]) input := by
  have hlines : deliveredLines (past ++ [i]) = deliveredLines past := by
    rw [deliveredLines_concat]
    cases i with
    | intervention => exact List.append_nil _
    | call c =>
      obtain ⟨purpose, invocation⟩ := c
      cases invocation with
      | printed | printFailed => exact List.append_nil _
      | lineRead | readFailed => cases hi
  refine ⟨hlines ▸ h.delivered, hlines ▸ h.single, fun hjammed => ?_, fun hreopened => ?_⟩
  · obtain ⟨purpose, message, rfl⟩ | ⟨hjammed, -⟩ := hjammed.of_concat
    · cases hi
    · exact h.jammed hjammed
  · obtain rfl | ⟨hreopened, -⟩ := hreopened.of_concat
    · cases hi
    · exact h.reopened hreopened

/-- A read that fails leaves the stream in bad order, with all that was left. -/
theorem fail (h : InputKept s past input) {message : Bytes} {after : InputStream}
    (hrest : after.rest = input.rest) (hbad : after.good = false) :
    InputKept s (past ++ [.call ⟨.line, .readFailed message⟩]) after := by
  have hlines : deliveredLines (past ++ [.call ⟨.line, .readFailed message⟩]) =
      deliveredLines past := by
    rw [deliveredLines_concat]
    exact List.append_nil _
  refine ⟨?_, hlines ▸ h.single, fun _ => hbad, fun hreopened => ?_⟩
  · rw [hlines, hrest]
    exact h.delivered
  · obtain hclear | ⟨-, hconcerns⟩ := hreopened.of_concat
    · cases hclear
    · cases hconcerns

/-- A read that succeeds takes a line off the front of what is left. -/
theorem give (h : InputKept s past input) (hgood : input.good = true) {line : Bytes}
    (hline : Ascii.newline ∉ line) {after : InputStream}
    (htaken : Text.TakenOff s (deliveredLines past ++ [line]) after.rest) :
    InputKept s (past ++ [.call ⟨.line, .lineRead line⟩]) after := by
  have hlines : deliveredLines (past ++ [.call ⟨.line, .lineRead line⟩]) =
      deliveredLines past ++ [line] := deliveredLines_concat _ _
  refine ⟨hlines ▸ htaken, ?_, fun hjammed => ?_, fun hreopened => ?_⟩
  · rw [hlines]
    intro other hother
    rcases mem_concat_iff.1 hother with hother | rfl
    · exact h.single other hother
    · exact hline
  · obtain ⟨_, _, hfailed⟩ | ⟨hjammed, -⟩ := hjammed.of_concat
    · cases hfailed
    · cases hgood.symm.trans (h.jammed hjammed)
  · obtain hclear | ⟨-, hconcerns⟩ := hreopened.of_concat
    · cases hclear
    · cases hconcerns

theorem readLine (h : InputKept s past input) :
    InputKept s (past ++ [.call ⟨.line, .ofRead input.readLine.1⟩]) input.readLine.2 := by
  have hreads := input.reads_readLine
  generalize input.readLine = result at hreads
  cases hreads with
  | refused hbad => exact h.fail rfl (by simp [InputStream.good])
  | ended => exact h.fail rfl rfl
  | last hline hne => exact h.give rfl hline (.unterminated hne (h.delivered.eq_append hne))
  | @line line hline rest =>
    have hne : (InputStream.ofBytes (line ++ Ascii.newline :: rest)).rest ≠ [] :=
      List.append_ne_nil_of_right_ne_nil line (List.cons_ne_nil _ _)
    refine h.give rfl hline (.terminated ?_)
    rw [h.delivered.eq_append hne, List.flatMap_append]
    simp [InputStream.ofBytes, Text.withNewline]

theorem damage (h : InputKept s past input) :
    InputKept s (past ++ [.intervention .breakIn]) input.damage := by
  have hlines : deliveredLines (past ++ [.intervention .breakIn]) = deliveredLines past :=
    (deliveredLines_concat _ _).trans (List.append_nil _)
  refine ⟨hlines ▸ h.delivered, hlines ▸ h.single, fun _ => ?_, fun hreopened => ?_⟩
  · simp [InputStream.good, InputStream.damage]
  · obtain hclear | ⟨-, hconcerns⟩ := hreopened.of_concat
    · cases hclear
    · cases hconcerns

theorem clear (h : InputKept s past input) :
    InputKept s (past ++ [.intervention .clearIn]) input.clear := by
  have hlines : deliveredLines (past ++ [.intervention .clearIn]) = deliveredLines past :=
    (deliveredLines_concat _ _).trans (List.append_nil _)
  refine ⟨hlines ▸ h.delivered, hlines ▸ h.single, fun hjammed => ?_, fun _ => rfl⟩
  obtain ⟨_, _, hfailed⟩ | ⟨-, hne⟩ := hjammed.of_concat
  · cases hfailed
  · exact absurd rfl hne

end InputKept

/-! ## The output -/

/-- The output stream has room for everything, and holds what was printed. -/
structure OutputKept (past : List Incident) (output : Sink) : Prop where
  room : output.room = none
  written : output.written = shownText past

namespace OutputKept

variable {output : Sink}

theorem start : OutputKept [] .unlimited :=
  ⟨rfl, rfl⟩

/-- What prints nothing leaves the output as it is. -/
theorem aside (h : OutputKept past output)
    (hi : (i.invocation?.map Invocation.shown).getD [] = []) : OutputKept (past ++ [i]) output where
  room := h.room
  written := by rw [shownText_concat, hi, List.append_nil, h.written]

theorem print (h : OutputKept past output) (purpose : Purpose) (text : Bytes) :
    OutputKept (past ++ [.call ⟨purpose, .ofPrint text (output.print text).1⟩])
      (output.print text).2 := by
  cases hbroken : output.broken with
  | true =>
    rw [Sink.print_of_broken hbroken]
    exact h.aside rfl
  | false =>
    rw [Sink.print_of_unbroken h.room hbroken]
    refine ⟨h.room, ?_⟩
    rw [shownText_concat, ← h.written]
    rfl

theorem recondition (h : OutputKept past output) (i : Intervention) (broken : Bool) :
    OutputKept (past ++ [.intervention i]) { output with broken } where
  room := h.room
  written := (h.aside (i := .intervention i) rfl).written

end OutputKept

/-! ## Everything that happens -/

/-- Both streams are as what happened to them has left them. -/
structure Kept (s : Bytes) (past : List Incident) (t : Streams) : Prop where
  input : InputKept s past t.input
  output : OutputKept past t.output

theorem Kept.next (h : Kept s past t) (hi : Happens t i u) : Kept s (past ++ [i]) u := by
  cases hi with
  | print purpose text =>
    exact ⟨h.input.aside (Invocation.isRead_ofPrint _ _), h.output.print purpose text⟩
  | readLine =>
    refine ⟨h.input.readLine, h.output.aside ?_⟩
    cases t.readLine.1 <;> rfl
  | intervention i =>
    cases i with
    | breakIn => exact ⟨h.input.damage, h.output.aside rfl⟩
    | clearIn => exact ⟨h.input.clear, h.output.aside rfl⟩
    | breakOut => exact ⟨h.input.aside rfl, h.output.recondition _ true⟩
    | clearOut => exact ⟨h.input.aside rfl, h.output.recondition _ false⟩

/-- Nothing is lost of an input by anything that happens. -/
theorem Passes.kept {start : Streams} (h : Passes start past t) (hstart : Kept s [] start) :
    Kept s past t := by
  induction h with
  | start => exact hstart
  | next _ hi ih => exact ih.next hi

theorem Kept.faithful (h : Kept s past t) : Faithful s past t where
  delivered := h.input.delivered
  single := h.input.single
  written := h.output.written
  failedRead message hfailed := by
    show t.input.readLine.2.rest = t.input.rest
    change t.input.readLine.1 = .error message at hfailed
    have hreads := t.input.reads_readLine
    generalize t.input.readLine = result at hreads hfailed ⊢
    generalize t.input = input at hreads ⊢
    cases hreads with
    | refused | ended => rfl
    | last | line => cases hfailed
  jammed hjammed := by
    show ∃ message, t.input.readLine.1 = .error message
    rw [InputStream.readLine, h.input.jammed hjammed, Bool.not_false, if_pos rfl]
    exact ⟨_, rfl⟩
  reopened hreopened := by
    show t.input.readLine.1 = _
    rw [h.input.reopened hreopened]
    exact InputStream.readLine_ofBytes t.input.rest
  failedPrint text message hfailed := by
    show (t.output.print text).2.written = t.output.written
    change (t.output.print text).1 = .error message at hfailed
    cases hbroken : t.output.broken with
    | true => rw [Sink.print_of_broken hbroken]
    | false =>
      rw [Sink.print_of_unbroken h.output.room hbroken] at hfailed
      cases hfailed

/-- Whatever is done with streams over an input, and at any moment of it, even in the middle of a
request: the lines delivered are what was consumed of the input, what is written are the texts of the
prints that succeeded, and the next use will keep it so. -/
theorem faults_lose_nothing (s : Bytes) (steps : List Step) (n : Nat) :
    let run := undergo steps (ofInput s)
    ∃ t, Passes (ofInput s) (run.events.take n) t ∧ Passes t (run.events.drop n) run.state ∧
      Faithful s (run.events.take n) t := by
  intro run
  have hrun : Passes (ofInput s) (run.events.take n ++ run.events.drop n) run.state := by
    rw [List.take_append_drop]
    exact passes_undergo steps (ofInput s)
  obtain ⟨t, hpast, hfuture⟩ := hrun.split
  have hkept : Kept s (run.events.take n) t := hpast.kept ⟨.start s, .start⟩
  exact ⟨t, hpast, hfuture, hkept.faithful⟩

/-- The unterminated last line is given once, however often the input is broken and cleared. -/
example :
    let readLine := Step.use (.request .readLine)
    let run := undergo [.intervention .breakIn, readLine, .intervention .clearIn, readLine, readLine,
      readLine, .intervention .clearIn, readLine] (ofInput (ascii "a\nb"))
    deliveredLines run.events = [ascii "a", ascii "b"] ∧ run.state.input.rest = [] :=
  ⟨rfl, rfl⟩

end Streams

end Repl
