import Repl.Proofs.Supply
import Repl.Terminal.Scripted

/-!
Questions with a default. A question that takes a blank line for a default goes as it would without
one up to the first blank line, on any terminal. That line ends it there, while without the default
the line is read like any other.
-/

namespace Repl

/-- A line was read that holds nothing but white space. -/
def Invocation.IsBlank (i : Invocation) : Prop :=
  ∃ line, i = .lineRead line ∧ Text.trim line = []

namespace Terminal

open Exchange

variable {τ α β : Type} {value : α} {a b : Reply Call τ α}

/-- No blank line was read. -/
def NoneBlank (calls : List Call) : Prop :=
  ∀ c ∈ calls, ¬c.invocation.IsBlank

theorem NoneBlank.append {calls more : List Call} (h : NoneBlank calls) (h' : NoneBlank more) :
    NoneBlank (calls ++ more) :=
  fun c hc => (List.mem_append.1 hc).elim (h c) (h' c)

theorem noneBlank_printFor [Terminal τ] (purpose : Purpose) (text : Bytes) (t : τ) :
    NoneBlank (printFor purpose text t).events := by
  rw [printFor_apply]
  refine List.forall_mem_singleton.2 ?_
  rintro ⟨line, hline, -⟩
  cases h : (Terminal.print text t).1 with
  | ok _ => rw [h] at hline; cases hline
  | error _ => rw [h] at hline; cases hline

theorem noneBlank_nextLine [Terminal τ] {t : τ}
    (h : ∀ line, (readLine t).1 = .ok line → Text.trim line ≠ []) :
    NoneBlank (nextLine t).events := by
  rw [nextLine_apply]
  refine List.forall_mem_singleton.2 ?_
  rintro ⟨line, hline, hblank⟩
  cases hread : (readLine t).1 with
  | ok read =>
    rw [hread] at hline
    cases hline
    exact h _ hread hblank
  | error _ => rw [hread] at hline; cases hline

/-! ## In step -/

/-- How a question with a default goes beside the same question without: in the same way and without
a blank line, or in the same way up to a blank line that ends it. -/
inductive InStep (value : α) : Reply Call τ α → Reply Call τ α → Prop where
  | same {reply : Reply Call τ α} (h : NoneBlank reply.events) : InStep value reply reply
  | parted {calls more : List Call} {line : Bytes} {t t' : τ} {outcome : Except Bytes α}
    (h : NoneBlank calls) (hline : Text.trim line = []) :
    InStep value ⟨.ok value, calls ++ [⟨.line, .lineRead line⟩], t⟩
      ⟨outcome, calls ++ ⟨.line, .lineRead line⟩ :: more, t'⟩

theorem InStep.after {calls : List Call} (hcalls : NoneBlank calls) (h : InStep value a b) :
    InStep value (a.after calls) (b.after calls) := by
  cases h with
  | same hsame => exact .same (hcalls.append hsame)
  | parted hfront hline =>
    rw [Reply.after, Reply.after, ← List.append_assoc, ← List.append_assoc]
    exact .parted (hcalls.append hfront) hline

/-- What both questions do first, without a blank line, leaves them in step. -/
theorem InStep.bind {x : Exchange Call τ β} {f g : β → Exchange Call τ α} {t : τ}
    (hx : NoneBlank (x t).events)
    (hfg : ∀ first, (x t).outcome = .ok first →
      InStep value (f first (x t).state) (g first (x t).state)) :
    InStep value ((x >>= f) t) ((x >>= g) t) := by
  cases houtcome : (x t).outcome with
  | error message =>
    rw [bind_apply_of_error houtcome, bind_apply_of_error houtcome]
    exact .same hx
  | ok first =>
    rw [bind_apply_of_ok houtcome, bind_apply_of_ok houtcome]
    exact (hfg first houtcome).after hx

variable [Terminal τ] {prompt : Bytes} {parse strict : Bytes → Except Bytes α}

/-- Two readers that differ at the empty text only are in step, however many rounds they have. -/
theorem readValueWithin_inStep (hblank : parse [] = .ok value)
    (hsame : ∀ s, s ≠ [] → parse s = strict s) (rounds : Nat) (t : τ) :
    InStep value (readValueWithin prompt parse rounds t)
      (readValueWithin prompt strict rounds t) := by
  induction rounds generalizing t with
  | zero => exact .same (List.forall_mem_nil _)
  | succ rounds ih =>
    rw [readValueWithin, readValueWithin]
    refine .bind (noneBlank_printFor _ _ _) fun _ _ => ?_
    generalize (printFor .prompt prompt t).state = prompted
    by_cases hread : ∃ line, (readLine prompted).1 = .ok line ∧ Text.trim line = []
    · -- The blank line is the last that the reader with the default reads.
      obtain ⟨line, hline, htrim⟩ := hread
      have hnext := nextLine_of_outcome hline
      have hnextOk : (nextLine prompted).outcome = .ok line := by rw [hnext]
      rw [bind_apply_of_ok hnextOk, bind_apply_of_ok hnextOk, hnext, htrim, hblank]
      exact .parted (List.forall_mem_nil _) htrim
    · have hnone : ∀ line, (readLine prompted).1 = .ok line → Text.trim line ≠ [] :=
        fun line hline htrim => hread ⟨line, hline, htrim⟩
      refine .bind (noneBlank_nextLine hnone) fun line hline => ?_
      rw [nextLine_apply] at hline
      rw [hsame _ (hnone line hline)]
      cases strict (Text.trim line) with
      | ok value => exact .same (List.forall_mem_nil _)
      | error reason => exact .bind (noneBlank_printFor _ _ _) fun _ _ => ih _

theorem parser_text_eq (orDefault : Bool) :
    ValueType.text.parser orDefault = fun s => .ok (.text s) := by
  funext s
  cases orDefault with
  | false => rfl
  | true =>
    show (if s = [] then Except.ok (Value.text []) else _) = _
    split
    · rename_i hempty
      rw [hempty]
    · rfl

/-- A question with a default is the question without, unless a blank line is read. The first such
line ends it with the default, unreported, after the same uses of the terminal; what the question
without a default does after that line is its own. A text may be blank, so there it is the same
question. -/
theorem default_stands_for_blank_line (prompt : Bytes) (type : ValueType) (t : τ) :
    let given := readTyped prompt type true t
    let plain := readTyped prompt type false t
    (NoneBlank given.events → given = plain) ∧
      (¬NoneBlank given.events → ∃ calls line more, NoneBlank calls ∧ Text.trim line = [] ∧
        given.events = calls ++ [⟨.line, .lineRead line⟩] ∧ given.outcome = .ok type.default ∧
        plain.events = calls ++ ⟨.line, .lineRead line⟩ :: more) ∧
      (type = .text → given = plain) := by
  intro given plain
  have hempty : type.parser true [] = .ok type.default := rfl
  have hsame : ∀ s, s ≠ [] → type.parser true s = type.parser false s := fun _ hne => if_neg hne
  have hstep : InStep type.default given plain := readValueWithin_inStep hempty hsame _ t
  refine ⟨fun hnone => ?_, fun hblank => ?_, ?_⟩
  · generalize given = a, plain = b at hstep hnone
    cases hstep with
    | same => rfl
    | parted _ hline => exact absurd ⟨_, rfl, hline⟩ (hnone _ List.mem_concat_self)
  · generalize given = a, plain = b at hstep hblank
    cases hstep with
    | same h => exact absurd h hblank
    | parted h hline => exact ⟨_, _, _, h, hline, rfl, rfl, rfl⟩
  · rintro rfl
    show readValue prompt _ t = readValue prompt _ t
    rw [parser_text_eq, parser_text_eq]

/-- The line of spaces is the number zero to one of the readers, and refused by the other. -/
theorem default_after_a_refusal :
    let t := Scripted.ofScript [.line (ascii "x"), .line (ascii "  "), .line (ascii "8")] []
    let given := readTyped (ascii "> ") (.signed 32) true t
    ¬NoneBlank given.events ∧ given.outcome = .ok (.integer 0) ∧
      (readTyped (ascii "> ") (.signed 32) false t).outcome = .ok (.integer 8) := by
  intro t given
  have hblank : ¬NoneBlank given.events := fun hnone =>
    hnone ⟨.line, .lineRead (ascii "  ")⟩ (by decide) ⟨ascii "  ", rfl, by decide⟩
  obtain ⟨-, hparted, -⟩ := default_stands_for_blank_line (ascii "> ") (.signed 32) t
  obtain ⟨calls, line, more, -, -, -, houtcome, -⟩ := hparted hblank
  exact ⟨hblank, houtcome, rfl⟩

end Terminal

end Repl
