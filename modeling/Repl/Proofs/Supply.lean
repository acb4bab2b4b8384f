import Repl.Proofs.Exchange
import Repl.Terminal.Basic

/-!
Terminals that can refuse only so many lines. Where the patience of a terminal falls with every line
that is read, it bounds the rounds of a question: any larger number of rounds gives the same.
-/

namespace Repl

/-- What came of printing a text. -/
def Invocation.ofPrint (text : Bytes) : Except Bytes Unit → Invocation
  | .ok _ => .printed text
  | .error message => .printFailed text message

/-- What came of reading a line. -/
def Invocation.ofRead : Except Bytes Bytes → Invocation
  | .ok line => .lineRead line
  | .error message => .readFailed message

@[simp]
theorem Invocation.isRead_ofPrint (text : Bytes) (outcome : Except Bytes Unit) :
    (ofPrint text outcome).isRead = false := by
  cases outcome <;> rfl

@[simp]
theorem Invocation.isRead_ofRead (outcome : Except Bytes Bytes) :
    (ofRead outcome).isRead = true := by
  cases outcome <;> rfl

namespace Terminal

open Exchange

variable {τ α : Type} [Terminal τ] {R P : τ → Prop}

/-! ## Single uses -/

theorem printFor_apply (purpose : Purpose) (text : Bytes) (t : τ) :
    printFor purpose text t =
      ⟨(print text t).1, [⟨purpose, .ofPrint text (print text t).1⟩], (print text t).2⟩ := by
  unfold printFor
  cases h : print text t with
  | mk outcome t' => cases outcome <;> rfl

theorem nextLine_apply (t : τ) :
    nextLine t = ⟨(readLine t).1, [⟨.line, .ofRead (readLine t).1⟩], (readLine t).2⟩ := by
  unfold nextLine
  cases h : readLine t with
  | mk outcome t' => cases outcome <;> rfl

theorem printFor_of_eq {purpose : Purpose} {text : Bytes} {t t' : τ} {outcome : Except Bytes Unit}
    (h : print text t = (outcome, t')) :
    printFor purpose text t = ⟨outcome, [⟨purpose, .ofPrint text outcome⟩], t'⟩ := by
  rw [printFor_apply, h]

theorem nextLine_of_eq {t t' : τ} {outcome : Except Bytes Bytes} (h : readLine t = (outcome, t')) :
    nextLine t = ⟨outcome, [⟨.line, .ofRead outcome⟩], t'⟩ := by
  rw [nextLine_apply, h]

theorem nextLine_of_outcome {t : τ} {outcome : Except Bytes Bytes} (h : (readLine t).1 = outcome) :
    nextLine t = ⟨outcome, [⟨.line, .ofRead outcome⟩], (readLine t).2⟩ := by
  rw [nextLine_apply, h]

/-- A property of terminals that prints and reads preserve. -/
structure Closed (R : τ → Prop) : Prop where
  print : ∀ text t, R t → R (print text t).2
  readLine : ∀ t, R t → R (readLine t).2

theorem printFor_preserves (hR : Closed R) (purpose : Purpose) (text : Bytes) :
    Preserves R (printFor purpose text) := by
  intro t ht
  rw [printFor_apply]
  exact hR.print text t ht

theorem nextLine_preserves (hR : Closed R) : Preserves R (nextLine : Exchange Call τ Bytes) := by
  intro t ht
  rw [nextLine_apply]
  exact hR.readLine t ht

theorem readValueWithin_preserves (hR : Closed R) (prompt : Bytes)
    (parse : Bytes → Except Bytes α) (rounds : Nat) :
    Preserves R (readValueWithin prompt parse rounds) := by
  induction rounds with
  | zero => exact .fail []
  | succ rounds ih =>
    refine .bind (printFor_preserves hR _ _) fun _ => .bind (nextLine_preserves hR) fun line => ?_
    cases parse (Text.trim line) with
    | ok value => exact .pure value
    | error reason => exact .bind (printFor_preserves hR _ _) fun _ => ih

theorem readValue_preserves (hR : Closed R) (prompt : Bytes) (parse : Bytes → Except Bytes α) :
    Preserves R (readValue prompt parse : Exchange Call τ α) :=
  fun t ht => readValueWithin_preserves hR prompt parse (patience t + 1) t ht

/-! ## Fewer than so many lines -/

/-- The terminal is one of `P` and gives fewer than `n` lines. -/
def Within (P : τ → Prop) (n : Nat) (t : τ) : Prop :=
  P t ∧ patience t < n

theorem Within.mono {n m : Nat} {t : τ} (h : Within P n t) (hnm : n ≤ m) : Within P m t :=
  ⟨h.1, Nat.lt_of_lt_of_le h.2 hnm⟩

/-- The terminals of `P` keep to their patience: no use raises it, and every line read lowers it. -/
structure Supply (P : τ → Prop) : Prop where
  closed : ∀ n, Closed (Within P n)
  spend : ∀ {n t line}, Within P (n + 1) t → (readLine t).1 = .ok line →
    Within P n (readLine t).2

theorem nextLine_spends (hP : Supply P) {n : Nat} {t : τ} {line : Bytes} (ht : Within P (n + 1) t)
    (h : (nextLine t).outcome = .ok line) : Within P n (nextLine t).state := by
  rw [nextLine_apply] at h ⊢
  exact hP.spend ht h

/-- A question that is answered costs at least one line. -/
theorem readValueWithin_spends (hP : Supply P) {prompt : Bytes} {parse : Bytes → Except Bytes α}
    {rounds n : Nat} {t : τ} {value : α} (ht : Within P (n + 1) t)
    (h : (readValueWithin prompt parse rounds t).outcome = .ok value) :
    Within P n (readValueWithin prompt parse rounds t).state := by
  have hn := hP.closed n
  cases rounds with
  | zero => cases h
  | succ rounds =>
    unfold readValueWithin at h ⊢
    cases hprint : (printFor .prompt prompt t).outcome with
    | error m => rw [bind_apply_of_error hprint] at h; cases h
    | ok _ =>
      rw [bind_apply_of_ok hprint] at h ⊢
      have hprompted := printFor_preserves (hP.closed (n + 1)) .prompt prompt t ht
      cases hline : (nextLine (printFor .prompt prompt t).state).outcome with
      | error m => rw [bind_apply_of_error hline] at h; cases h
      | ok line =>
        rw [bind_apply_of_ok hline] at h ⊢
        have hspent := nextLine_spends hP hprompted hline
        cases hparse : parse (Text.trim line) with
        | ok value => simpa [hparse] using hspent
        | error reason =>
          -- The refused line is paid for; the rounds after it can only cost more.
          exact Preserves.bind (printFor_preserves hn _ _)
            (fun _ => readValueWithin_preserves hn prompt parse rounds) _ hspent

/-- Any two numbers of rounds that the terminal cannot exhaust give the same. -/
theorem readValueWithin_eq (hP : Supply P) {prompt : Bytes} {parse : Bytes → Except Bytes α} :
    ∀ {n m : Nat} {t : τ}, Within P n t → Within P m t →
      readValueWithin prompt parse n t = readValueWithin prompt parse m t
  | 0, _, _, hn, _ => absurd hn.2 (Nat.not_lt_zero _)
  | _ + 1, 0, _, _, hm => absurd hm.2 (Nat.not_lt_zero _)
  | n + 1, m + 1, t, hn, hm => by
    unfold readValueWithin
    refine bind_congr rfl fun _ _ => ?_
    have hn := printFor_preserves (hP.closed (n + 1)) .prompt prompt t hn
    have hm := printFor_preserves (hP.closed (m + 1)) .prompt prompt t hm
    refine bind_congr rfl fun line hline => ?_
    -- One line less leaves both numbers, less one, sufficient.
    have hn := nextLine_spends hP hn hline
    have hm := nextLine_spends hP hm hline
    cases parse (Text.trim line) with
    | ok value => rfl
    | error reason =>
      refine bind_congr rfl fun _ _ => readValueWithin_eq hP ?_ ?_
      · exact printFor_preserves (hP.closed n) _ _ _ hn
      · exact printFor_preserves (hP.closed m) _ _ _ hm

/-- A question has as many rounds as it needs: after a complaint it is asked again. -/
theorem readValue_eq (hP : Supply P) {prompt : Bytes} {parse : Bytes → Except Bytes α} {t : τ}
    (ht : P t) :
    readValue prompt parse t =
      (printFor .prompt prompt >>= fun _ => nextLine >>= fun line =>
        match parse (Text.trim line) with
        | .ok value => pure value
        | .error reason =>
          printFor .complaint (complaint reason) >>= fun _ => readValue prompt parse) t := by
  have hself : Within P (patience t + 1) t := ⟨ht, Nat.lt_succ_self _⟩
  rw [readValue, readValueWithin]
  refine bind_congr rfl fun _ _ => ?_
  have hprompted := printFor_preserves (hP.closed _) .prompt prompt t hself
  refine bind_congr rfl fun line hline => ?_
  have hspent := nextLine_spends hP hprompted hline
  cases parse (Text.trim line) with
  | ok value => rfl
  | error reason =>
    refine bind_congr rfl fun _ _ => ?_
    have hrefused := printFor_preserves (hP.closed _) .complaint (complaint reason) _ hspent
    exact readValueWithin_eq hP hrefused ⟨hrefused.1, Nat.lt_succ_self _⟩

end Terminal

end Repl
