import Repl.Proofs.Supply
import Repl.Session.Run

/-!
Sessions on terminals that can give only so many lines. Each command of a session costs a line, so
the patience of the terminal bounds the rounds of the session and of the sessions inside it.
-/

namespace Repl

open Exchange Terminal

variable {ω κ γ α : Type} {R P : ω → Prop} [Host ω]

/-- A property of hosts that printing, reading and logging preserve. -/
structure Host.Closed (R : ω → Prop) : Prop extends Terminal.Closed R where
  log : ∀ e h, R h → R (Host.log e h).2

theorem Host.Closed.and {S : ω → Prop} (hR : Host.Closed R) (hS : Host.Closed S) :
    Host.Closed fun h => R h ∧ S h where
  print text h hh := ⟨hR.print text h hh.1, hS.print text h hh.2⟩
  readLine h hh := ⟨hR.readLine h hh.1, hS.readLine h hh.2⟩
  log e h hh := ⟨hR.log e h hh.1, hS.log e h hh.2⟩

/-- The hosts of `P` keep to their patience, whatever is logged. -/
structure Host.Supply (P : ω → Prop) : Prop extends Terminal.Supply P where
  log : ∀ n e h, Within P n h → Within P n (Host.log e h).2

theorem Host.Supply.hostClosed (hP : Host.Supply P) (n : Nat) : Host.Closed (Within P n) where
  toClosed := hP.closed n
  log := hP.log n

namespace Session

/-! ## What a session preserves -/

/-- A property of the host, of a session. -/
abbrev OnHost (R : ω → Prop) (s : State ω γ) : Prop :=
  R s.host

omit [Host ω] in
theorem onTerminal_apply (event : Call → Event) (x : Exchange Call ω α) (s : State ω γ) :
    onTerminal event x s =
      ⟨(x s.host).outcome, (x s.host).events.map event, { s with host := (x s.host).state }⟩ :=
  rfl

omit [Host ω] in
theorem onTerminal_preserves {x : Exchange Call ω α} (hx : Preserves R x) (event : Call → Event) :
    Preserves (OnHost R) (onTerminal event x : Step ω γ α) :=
  fun s hs => hx s.host hs

theorem log_preserves (hR : Host.Closed R) (level : Log.Level) (message : Bytes) :
    Preserves (OnHost R) (log level message : Step ω γ Unit) :=
  fun s hs => hR.log ⟨level, category, message⟩ s.host hs

omit [Host ω] in
theorem setFlag_preserves (flag : RunFlag) :
    Preserves (OnHost R) (setFlag flag : Step ω γ Unit) :=
  .modify fun _ hs => hs

theorem perform_preserves (hR : Host.Closed R) {inner : Step ω γ Unit}
    (hinner : Preserves (OnHost R) inner) (action : Action γ) :
    Preserves (OnHost R) (perform inner action) := by
  induction action with
  | finish result => exact .pure result
  | print text next ih =>
    exact .bind (onTerminal_preserves (printFor_preserves hR.toClosed _ _) _).attempt ih
  | readLine next ih =>
    exact .bind (onTerminal_preserves (nextLine_preserves hR.toClosed) _).attempt ih
  | ask prompt parse next ih =>
    exact .bind (onTerminal_preserves (readValue_preserves hR.toClosed _ _) _).attempt ih
  | update f next ih => exact .bind (.modify fun _ hs => hs) fun _ => ih
  | consult next ih => exact .bind (.gets _) ih
  | setFlag flag next ih => exact .bind (setFlag_preserves flag) fun _ => ih
  | consultFlag next ih => exact .bind (.gets _) ih
  | nest next ih => exact .bind (hinner.mapEvents _).attempt ih

theorem apply_preserves (hR : Host.Closed R) {inner : Step ω γ Unit}
    (hinner : Preserves (OnHost R) inner) (action : Action γ) :
    Preserves (OnHost R) (apply inner action) :=
  .bind (perform_preserves hR hinner action) fun result =>
    .bind (.gets _) fun _ => .bind (.record _) fun _ => .pure result

theorem conclude_preserves (hR : Host.Closed R) (result : ApplyResult) :
    Preserves (OnHost R) (conclude result : Step ω γ LastOutcome) := by
  cases result with
  | applied => exact .pure _
  | skipped => exact .pure _
  | applicationError message data =>
    exact .bind (log_preserves hR _ _) fun _ =>
      .bind (onTerminal_preserves (printFor_preserves hR.toClosed _ _) _) fun _ => .pure _
  | accessTerminalError message => exact .fail message

theorem readCommand_preserves (hR : Host.Closed R) (app : Application κ γ) (last : LastOutcome) :
    Preserves (OnHost R) (readCommand app last : Step ω γ κ) :=
  onTerminal_preserves (readValue_preserves hR.toClosed _ _) _

theorem bracket_preserves (hR : Host.Closed R) {cycle : Step ω γ Unit}
    (hcycle : Preserves (OnHost R) cycle) : Preserves (OnHost R) (bracket cycle) := by
  refine .bind (setFlag_preserves _) fun _ => .bind (log_preserves hR _ _) fun _ =>
    .bind hcycle.attempt fun outcome => ?_
  cases outcome with
  | ok _ => exact log_preserves hR _ _
  | error message => exact .bind (log_preserves hR _ _) fun _ => .fail message

/-- A round of a running session, and the rounds after it. -/
theorem roundsWithin_succ (app : Application κ γ) (rounds : Nat) (last : LastOutcome)
    (s : State ω γ) :
    roundsWithin app (rounds + 1) last s =
      if s.flag = .running then
        (readCommand app last >>= fun command =>
          apply (bracket (roundsWithin app rounds .applied)) (app.action command) >>= fun result =>
            conclude result >>= roundsWithin app rounds) s
      else ⟨.ok (), [], s⟩ := by
  rw [roundsWithin]
  -- Looking at the flag leaves neither a record nor a trace in the state.
  have hflag : (Exchange.gets State.flag : Step ω γ RunFlag) s = ⟨.ok s.flag, [], s⟩ := rfl
  rw [bind_apply_of_ok (by rw [hflag])]
  simp only [hflag, List.nil_append]
  split
  · rfl
  · rfl

theorem roundsWithin_preserves (hR : Host.Closed R) (app : Application κ γ) (rounds : Nat)
    (last : LastOutcome) : Preserves (OnHost R) (roundsWithin app rounds last : Step ω γ Unit) := by
  induction rounds generalizing last with
  | zero => exact .fail []
  | succ rounds ih =>
    intro s hs
    rw [roundsWithin_succ]
    split
    · refine Preserves.bind (readCommand_preserves hR app last) (fun command => ?_) s hs
      refine .bind (apply_preserves hR (bracket_preserves hR (ih _)) _) fun result => ?_
      exact .bind (conclude_preserves hR result) ih
    · exact hs

theorem run_preserves (hR : Host.Closed R) (app : Application κ γ) :
    Preserves (OnHost R) (run app : Step ω γ Unit) :=
  fun s hs => bracket_preserves hR (roundsWithin_preserves hR app _ _) s hs

/-! ## Enough rounds -/

theorem perform_congr (hR : Host.Closed R) {inner inner' : Step ω γ Unit}
    (hinner : Preserves (OnHost R) inner) (h : ∀ s, R s.host → inner s = inner' s)
    (action : Action γ) : ∀ s, R s.host → perform inner action s = perform inner' action s := by
  -- Only `nest` can tell the two sessions apart; the other steps keep the host in `R` until then.
  induction action with
  | finish result => exact fun _ _ => rfl
  | print text next ih =>
    intro s hs
    refine bind_congr rfl fun printed _ => ih printed _ ?_
    exact (onTerminal_preserves (printFor_preserves hR.toClosed _ _) _).attempt s hs
  | readLine next ih =>
    intro s hs
    refine bind_congr rfl fun line _ => ih line _ ?_
    exact (onTerminal_preserves (nextLine_preserves hR.toClosed) _).attempt s hs
  | ask prompt parse next ih =>
    intro s hs
    refine bind_congr rfl fun value _ => ih value _ ?_
    exact (onTerminal_preserves (readValue_preserves hR.toClosed _ _) _).attempt s hs
  | update f next ih => exact fun s hs => bind_congr rfl fun _ _ => ih _ hs
  | consult next ih => exact fun s hs => bind_congr rfl fun context _ => ih context _ hs
  | setFlag flag next ih => exact fun s hs => bind_congr rfl fun _ _ => ih _ hs
  | consultFlag next ih => exact fun s hs => bind_congr rfl fun flag _ => ih flag _ hs
  | nest next ih =>
    intro s hs
    have hnested : (inner.mapEvents Event.nested).attempt s =
        (inner'.mapEvents Event.nested).attempt s := by
      simp only [attempt_apply, mapEvents_apply, h s hs]
    exact bind_congr hnested fun result _ => ih result _ (hinner s hs)

theorem readCommand_spends (hP : Host.Supply P) {app : Application κ γ} {last : LastOutcome}
    {n : Nat} {s : State ω γ} {command : κ} (hs : Within P (n + 1) s.host)
    (h : (readCommand app last s).outcome = .ok command) :
    Within P n (readCommand app last s).state.host :=
  readValueWithin_spends hP.toSupply hs h

theorem bracket_congr (hR : Host.Closed R) {cycle cycle' : Step ω γ Unit}
    (h : ∀ s, R s.host → cycle s = cycle' s) (s : State ω γ) (hs : R s.host) :
    bracket cycle s = bracket cycle' s := by
  refine bind_congr rfl fun _ _ => bind_congr rfl fun _ _ => bind_congr ?_ fun _ _ => rfl
  simp only [attempt_apply]
  rw [h]
  exact log_preserves hR _ _ _ hs

/-- Any two numbers of rounds that the host cannot exhaust give the same. -/
theorem roundsWithin_eq (hP : Host.Supply P) (app : Application κ γ) :
    ∀ {n m : Nat} {last : LastOutcome} {s : State ω γ}, Within P n s.host → Within P m s.host →
      roundsWithin app n last s = roundsWithin app m last s
  | 0, _, _, _, hn, _ => absurd hn.2 (Nat.not_lt_zero _)
  | _ + 1, 0, _, _, _, hm => absurd hm.2 (Nat.not_lt_zero _)
  | n + 1, m + 1, last, s, hn, hm => by
    rw [roundsWithin_succ, roundsWithin_succ]
    split
    · refine bind_congr rfl fun command hcommand => ?_
      -- The line that the command cost leaves both numbers of rounds sufficient.
      have hn := readCommand_spends hP hn hcommand
      have hm := readCommand_spends hP hm hcommand
      have hboth := (hP.hostClosed n).and (hP.hostClosed m)
      have hinner := bracket_preserves hboth (roundsWithin_preserves (γ := γ) hboth app n .applied)
      have happly := apply_preserves hboth hinner (app.action command) _ ⟨hn, hm⟩
      refine bind_congr (bind_congr ?_ fun _ _ => rfl) fun result _ => ?_
      · exact perform_congr hboth hinner
          (bracket_congr hboth fun _ hs => roundsWithin_eq hP app hs.1 hs.2) _ _ ⟨hn, hm⟩
      · refine bind_congr rfl fun outcome _ => ?_
        have hdone := conclude_preserves hboth result _ happly
        exact roundsWithin_eq hP app hdone.1 hdone.2
    · rfl

/-- The rounds of a session, as many as there are. -/
def rounds (app : Application κ γ) (last : LastOutcome) : Step ω γ Unit := fun s =>
  roundsWithin app (patience s.host + 1) last s

theorem rounds_eq_roundsWithin (hP : Host.Supply P) (app : Application κ γ) {n : Nat}
    {last : LastOutcome} {s : State ω γ} (hs : Within P n s.host) :
    rounds app last s = roundsWithin app n last s :=
  roundsWithin_eq hP app ⟨hs.1, Nat.lt_succ_self _⟩ hs

theorem run_eq_bracket_roundsWithin (hP : Host.Supply P) (app : Application κ γ) {n : Nat}
    {s : State ω γ} (hs : Within P n s.host) :
    run app s = bracket (roundsWithin app n .applied) s := by
  have hself : Within P (patience s.host + 1) s.host := ⟨hs.1, Nat.lt_succ_self _⟩
  exact bracket_congr ((hP.hostClosed _).and (hP.hostClosed n))
    (fun _ h => roundsWithin_eq hP app h.1 h.2) s ⟨hself, hs⟩

/-- A session is a cycle of rounds. -/
theorem run_eq (hP : Host.Supply P) (app : Application κ γ) {s : State ω γ} (hs : P s.host) :
    run app s = bracket (rounds app .applied) s := by
  have hself : Within P (patience s.host + 1) s.host := ⟨hs, Nat.lt_succ_self _⟩
  rw [run_eq_bracket_roundsWithin hP app hself]
  exact bracket_congr (hP.hostClosed _) (fun _ h => (rounds_eq_roundsWithin hP app h).symm) s hself

theorem rounds_of_stopped (app : Application κ γ) (last : LastOutcome) {s : State ω γ}
    (h : s.flag = .stopped) : rounds app last s = ⟨.ok (), [], s⟩ := by
  rw [rounds, roundsWithin_succ, h, if_neg (by decide)]

/-- A running session reads a command, applies it, which may run whole sessions, and goes on by its
result. -/
theorem rounds_of_running (hP : Host.Supply P) (app : Application κ γ) (last : LastOutcome)
    {s : State ω γ} (hs : P s.host) (h : s.flag = .running) :
    rounds app last s =
      (readCommand app last >>= fun command => apply (run app) (app.action command) >>= fun result =>
        conclude result >>= rounds app) s := by
  have hself : Within P (patience s.host + 1) s.host := ⟨hs, Nat.lt_succ_self _⟩
  have hclosed := hP.hostClosed (patience s.host)
  have hinner := bracket_preserves hclosed
    (roundsWithin_preserves (γ := γ) hclosed app (patience s.host) .applied)
  -- The bounded round has one line less for the sessions inside and for the rounds after it, which
  -- is what the command leaves.
  rw [rounds, roundsWithin_succ, if_pos h]
  refine bind_congr rfl fun command hcommand => ?_
  have hspent := readCommand_spends hP hself hcommand
  have happly := apply_preserves hclosed hinner (app.action command) _ hspent
  refine bind_congr (bind_congr ?_ fun _ _ => rfl) fun result _ => ?_
  · exact perform_congr hclosed hinner
      (fun _ h => (run_eq_bracket_roundsWithin hP app h).symm) _ _ hspent
  · refine bind_congr rfl fun outcome _ => ?_
    exact (rounds_eq_roundsWithin hP app (conclude_preserves hclosed result _ happly)).symm

end Session

end Repl
