import Repl.Proofs.Session.Unfolding
import Repl.Terminal.Scripted

/-!
How a question goes on a script. Line after line is refused until one is accepted or the terminal
fails; of the script, so much is read as that takes, and the terminal is used for nothing else.
-/

namespace Repl.Terminal

open Exchange

variable {τ α : Type} [Terminal τ]

/-! ## Terminals that read scripts -/

/-- What is read at the front of a script, and what is left of it. Past its end every read fails. -/
inductive Fronts : List ScriptEntry → Except Bytes Bytes → List ScriptEntry → Prop where
  | line (text : Bytes) (rest : List ScriptEntry) : Fronts (.line text :: rest) (.ok text) rest
  | failure (message : Bytes) (rest : List ScriptEntry) :
    Fronts (.failure message :: rest) (.error message) rest
  | finished : Fronts [] (.error (ascii "no more lines")) []

/-- Terminals that read scripts, whatever comes of their prints. `S` tells which script a terminal
has before it. -/
structure ReadsScripts (S : List ScriptEntry → τ → Prop) : Prop where
  patience : ∀ {script t}, S script t → patience t = script.length
  print : ∀ {script t} text, S script t → S script (print text t).2
  readLine : ∀ {script t}, S script t →
    ∃ rest, Fronts script (readLine t).1 rest ∧ S rest (readLine t).2

theorem Fronts.length_le {script rest : List ScriptEntry} {outcome : Except Bytes Bytes}
    (h : Fronts script outcome rest) : rest.length ≤ script.length := by
  cases h with
  | line | failure => exact Nat.le_succ _
  | finished => exact Nat.le_refl _

theorem ReadsScripts.supply {S : List ScriptEntry → τ → Prop} (hS : ReadsScripts S) :
    Supply fun t => ∃ script, S script t where
  closed n :=
    { print := by
        rintro text t ⟨⟨script, ht⟩, hlt⟩
        refine ⟨⟨script, hS.print text ht⟩, ?_⟩
        rwa [hS.patience (hS.print text ht), ← hS.patience ht]
      readLine := by
        rintro t ⟨⟨script, ht⟩, hlt⟩
        obtain ⟨rest, hfront, hrest⟩ := hS.readLine ht
        refine ⟨⟨rest, hrest⟩, ?_⟩
        rw [hS.patience ht] at hlt
        rw [hS.patience hrest]
        exact Nat.lt_of_le_of_lt hfront.length_le hlt }
  spend := by
    rintro n t line ⟨⟨script, ht⟩, hlt⟩ hline
    obtain ⟨rest, hfront, hrest⟩ := hS.readLine ht
    refine ⟨⟨rest, hrest⟩, ?_⟩
    rw [hS.patience ht] at hlt
    rw [hS.patience hrest]
    rw [hline] at hfront
    cases hfront with
    | line => exact Nat.lt_of_succ_lt_succ hlt

/-- Scripted terminals read their script, whichever prints the rules make fail. -/
theorem readsScripts_scripted :
    ReadsScripts fun script (t : Scripted) => t.source = .script script where
  patience {script t} ht := by
    show t.patience = script.length
    rw [Scripted.patience, ht]
  print _ ht := ht
  readLine {script t} ht := by
    obtain ⟨source, rules, prints⟩ := t
    obtain rfl : source = .script script := ht
    match script with
    | [] => exact ⟨[], .finished, rfl⟩
    | .line text :: rest => exact ⟨rest, .line text rest, rfl⟩
    | .failure message :: rest => exact ⟨rest, .failure message rest, rfl⟩

/-! ## Questions -/

/-- A line that was refused, and the reason for it. -/
structure Refusal where
  line : Bytes
  reason : Bytes

namespace Refusal

def report (reason : Bytes) : Bytes :=
  ascii "Invalid input: " ++ reason ++ ascii ".\n"

def invocations (prompt : Bytes) (r : Refusal) : List Invocation :=
  [.printed prompt, .lineRead r.line, .printed (report r.reason)]

end Refusal

/-- How a question ends. -/
inductive Ending (α : Type) where
  | accepted (line : Bytes) (value : α)
  | promptFailed (message : Bytes)
  | readFailed (message : Bytes)
  | reportFailed (line reason message : Bytes)

namespace Ending

def outcome : Ending α → Except Bytes α
  | accepted _ value => .ok value
  | promptFailed message | readFailed message | reportFailed _ _ message => .error message

def invocations (prompt : Bytes) : Ending α → List Invocation
  | accepted line _ => [.printed prompt, .lineRead line]
  | promptFailed message => [.printFailed prompt message]
  | readFailed message => [.printed prompt, .readFailed message]
  | reportFailed line reason message =>
    [.printed prompt, .lineRead line, .printFailed (Refusal.report reason) message]

/-- What the ending reads of a script, and what it leaves of it. -/
def Takes (script rest : List ScriptEntry) : Ending α → Prop
  | promptFailed _ => rest = script
  | accepted line _ | reportFailed line _ _ => Fronts script (.ok line) rest
  | readFailed message => Fronts script (.error message) rest

end Ending

section

variable (prompt : Bytes) (parse : Bytes → Except Bytes α)

/-- The rounds in which lines are refused, from one state of the terminal to another. -/
inductive Refuses : τ → List Refusal → τ → Prop where
  | nil (t : τ) : Refuses t [] t
  | cons {t t₁ t₂ t₃ t' : τ} {line reason : Bytes} {refused : List Refusal}
    (hprompt : print prompt t = (.ok (), t₁)) (hread : readLine t₁ = (.ok line, t₂))
    (hparse : parse (Text.trim line) = .error reason)
    (hreport : print (Refusal.report reason) t₂ = (.ok (), t₃)) (rest : Refuses t₃ refused t') :
    Refuses t (⟨line, reason⟩ :: refused) t'

/-- The last round: a line is accepted, or the terminal fails. -/
inductive Ends : τ → Ending α → τ → Prop where
  | accepted {t t₁ t' : τ} {line : Bytes} {value : α} (hprompt : print prompt t = (.ok (), t₁))
    (hread : readLine t₁ = (.ok line, t')) (hparse : parse (Text.trim line) = .ok value) :
    Ends t (.accepted line value) t'
  | promptFailed {t t' : τ} {message : Bytes} (hprompt : print prompt t = (.error message, t')) :
    Ends t (.promptFailed message) t'
  | readFailed {t t₁ t' : τ} {message : Bytes} (hprompt : print prompt t = (.ok (), t₁))
    (hread : readLine t₁ = (.error message, t')) : Ends t (.readFailed message) t'
  | reportFailed {t t₁ t₂ t' : τ} {line reason message : Bytes}
    (hprompt : print prompt t = (.ok (), t₁)) (hread : readLine t₁ = (.ok line, t₂))
    (hparse : parse (Text.trim line) = .error reason)
    (hreport : print (Refusal.report reason) t₂ = (.error message, t')) :
    Ends t (.reportFailed line reason message) t'

end

variable {prompt : Bytes} {parse : Bytes → Except Bytes α} {S : List ScriptEntry → τ → Prop}
  {script : List ScriptEntry} {t u v : τ} {refused : List Refusal} {ending : Ending α}

/-! ### One dialogue only -/

theorem Ends.unique {v' : τ} {ending' : Ending α} (h : Ends prompt parse t ending v)
    (h' : Ends prompt parse t ending' v') : ending' = ending := by
  cases h <;> cases h' <;> grind

theorem Ends.not_refuses {r : Refusal} (h : Ends prompt parse t ending v) :
    ¬Refuses prompt parse t (r :: refused) u := by
  intro h'
  cases h' with
  | cons hprompt hread hparse hreport _ => cases h <;> grind

theorem Refuses.unique {u' v' : τ} {refused' : List Refusal} {ending' : Ending α}
    (h : Refuses prompt parse t refused u) (hends : Ends prompt parse u ending v)
    (h' : Refuses prompt parse t refused' u') (hends' : Ends prompt parse u' ending' v') :
    refused' = refused ∧ ending' = ending := by
  induction h generalizing refused' with
  | nil t =>
    cases h' with
    | nil => exact ⟨rfl, hends.unique hends'⟩
    | cons hprompt hread hparse hreport rest =>
      exact absurd (.cons hprompt hread hparse hreport rest) hends.not_refuses
  | cons hprompt hread hparse hreport rest ih =>
    cases h' with
    | nil => exact absurd (.cons hprompt hread hparse hreport rest) hends'.not_refuses
    | cons hprompt' hread' hparse' hreport' rest' =>
      cases hprompt.symm.trans hprompt'
      cases hread.symm.trans hread'
      cases hparse.symm.trans hparse'
      cases hreport.symm.trans hreport'
      obtain ⟨rfl, rfl⟩ := ih hends rest'
      exact ⟨rfl, rfl⟩

/-! ### What is read of the script -/

theorem ReadsScripts.print_of_eq (hS : ReadsScripts S) (ht : S script t) {text : Bytes}
    {outcome : Except Bytes Unit} (h : Terminal.print text t = (outcome, u)) : S script u := by
  have hprinted := hS.print text ht
  rwa [h] at hprinted

theorem ReadsScripts.readLine_of_eq (hS : ReadsScripts S) (ht : S script t)
    {outcome : Except Bytes Bytes} (h : Terminal.readLine t = (outcome, u)) :
    ∃ rest, Fronts script outcome rest ∧ S rest u := by
  have hread := hS.readLine ht
  rwa [h] at hread

theorem Refuses.takes (hS : ReadsScripts S) (h : Refuses prompt parse t refused u)
    (ht : S script t) : ∃ left, script = refused.map (fun r => .line r.line) ++ left ∧ S left u := by
  induction h generalizing script with
  | nil t => exact ⟨script, rfl, ht⟩
  | cons hprompt hread hparse hreport rest ih =>
    obtain ⟨left, hfront, hleft⟩ := hS.readLine_of_eq (hS.print_of_eq ht hprompt) hread
    obtain ⟨left', rfl, hleft'⟩ := ih (hS.print_of_eq hleft hreport)
    cases hfront with
    | line => exact ⟨left', rfl, hleft'⟩

theorem Ends.takes (hS : ReadsScripts S) (h : Ends prompt parse t ending v) (ht : S script t) :
    ∃ rest, ending.Takes script rest ∧ S rest v := by
  cases h with
  | promptFailed hprompt => exact ⟨script, rfl, hS.print_of_eq ht hprompt⟩
  | accepted hprompt hread _ => exact hS.readLine_of_eq (hS.print_of_eq ht hprompt) hread
  | readFailed hprompt hread => exact hS.readLine_of_eq (hS.print_of_eq ht hprompt) hread
  | reportFailed hprompt hread _ hreport =>
    obtain ⟨rest, hfront, hrest⟩ := hS.readLine_of_eq (hS.print_of_eq ht hprompt) hread
    exact ⟨rest, hfront, hS.print_of_eq hrest hreport⟩

/-- A round ends the question, or refuses the line that is next in the script. -/
theorem ReadsScripts.round_cases (hS : ReadsScripts S) (ht : S script t) (prompt : Bytes)
    (parse : Bytes → Except Bytes α) :
    (∃ ending v, Ends prompt parse t ending v) ∨
      ∃ r rest u, script = .line r.line :: rest ∧ S rest u ∧ Refuses prompt parse t [r] u := by
  rcases hprompt : Terminal.print prompt t with ⟨message | _, t₁⟩
  · exact .inl ⟨_, _, .promptFailed hprompt⟩
  rcases hread : Terminal.readLine t₁ with ⟨message | line, t₂⟩
  · exact .inl ⟨_, _, .readFailed hprompt hread⟩
  obtain ⟨rest, hfront, hrest⟩ := hS.readLine_of_eq (hS.print_of_eq ht hprompt) hread
  cases hparse : parse (Text.trim line) with
  | ok value => exact .inl ⟨_, _, .accepted hprompt hread hparse⟩
  | error reason =>
    rcases hreport : Terminal.print (Refusal.report reason) t₂ with ⟨message | _, t₃⟩
    · exact .inl ⟨_, _, .reportFailed hprompt hread hparse hreport⟩
    · cases hfront with
      | line =>
        exact .inr ⟨⟨line, reason⟩, rest, t₃, rfl, hS.print_of_eq hrest hreport,
          .cons hprompt hread hparse hreport (.nil t₃)⟩

theorem Refuses.append {w : τ} {others : List Refusal} (h : Refuses prompt parse t refused u)
    (h' : Refuses prompt parse u others w) : Refuses prompt parse t (refused ++ others) w := by
  induction h with
  | nil => exact h'
  | cons hprompt hread hparse hreport _ ih => exact .cons hprompt hread hparse hreport (ih h')

/-- A dialogue comes to an end, since every line that is refused is one less. -/
theorem ReadsScripts.exists_dialogue (hS : ReadsScripts S) (ht : S script t) (prompt : Bytes)
    (parse : Bytes → Except Bytes α) :
    ∃ refused u ending v, Refuses prompt parse t refused u ∧ Ends prompt parse u ending v := by
  induction script generalizing t with
  | nil =>
    obtain ⟨ending, v, hends⟩ | ⟨r, rest, u, hscript, -⟩ := hS.round_cases ht prompt parse
    · exact ⟨[], t, ending, v, .nil t, hends⟩
    · cases hscript
  | cons entry script ih =>
    obtain ⟨ending, v, hends⟩ | ⟨r, rest, t₁, hscript, ht₁, hround⟩ :=
      hS.round_cases ht prompt parse
    · exact ⟨[], t, ending, v, .nil t, hends⟩
    · -- The question goes on with what is left of the script.
      cases hscript
      obtain ⟨refused, u, ending, v, hrefuses, hends⟩ := ih ht₁
      exact ⟨r :: refused, u, ending, v, hround.append hrefuses, hends⟩

/-! ### The question itself -/

theorem complaint_eq_report (reason : Bytes) : complaint reason = Refusal.report reason :=
  complaint_eq reason

/-- The last round is what is left of the question. -/
theorem Ends.readValue_eq (hS : ReadsScripts S) (ht : S script t)
    (h : Ends prompt parse t ending v) :
    ∃ calls, readValue prompt parse t = ⟨ending.outcome, calls, v⟩ ∧
      calls.map Call.invocation = ending.invocations prompt := by
  rw [readValue_eq_askOnce hS.supply ⟨script, ht⟩]
  cases h with
  | accepted hprompt hread hparse =>
    have hround := askOnce_of_accepted (printFor_of_eq hprompt) (nextLine_of_eq hread) hparse
    rw [bind_apply_of_ok (by rw [hround]), hround]
    exact ⟨_, rfl, rfl⟩
  | promptFailed hprompt =>
    have hprompted : printFor .prompt prompt t = _ := printFor_of_eq hprompt
    have hround : askOnce prompt parse t = _ := bind_apply_of_error (by rw [hprompted])
    rw [bind_apply_of_error (by rw [hround]), hround, hprompted]
    exact ⟨_, rfl, rfl⟩
  | readFailed hprompt hread =>
    have hround : askOnce prompt parse t = _ :=
      askOnce_of_unread (printFor_of_eq hprompt) (nextLine_of_eq hread)
    rw [bind_apply_of_error (by rw [hround]), hround]
    exact ⟨_, rfl, rfl⟩
  | reportFailed hprompt hread hparse hreport =>
    rw [← complaint_eq_report] at hreport
    have hround := askOnce_of_refused (printFor_of_eq hprompt) (nextLine_of_eq hread) hparse
      (printFor_of_eq hreport)
    rw [bind_apply_of_error (by rw [hround]; rfl), hround, complaint_eq_report]
    exact ⟨_, rfl, rfl⟩

/-- After a line that is refused the question is asked again. -/
theorem ReadsScripts.readValue_of_refused (hS : ReadsScripts S) (ht : S script t) {t₁ t₂ : τ}
    {line reason : Bytes} (hprompt : Terminal.print prompt t = (.ok (), t₁))
    (hread : Terminal.readLine t₁ = (.ok line, t₂)) (hparse : parse (Text.trim line) = .error reason)
    (hreport : Terminal.print (Refusal.report reason) t₂ = (.ok (), u)) :
    readValue prompt parse t = (readValue prompt parse u).after
      [⟨.prompt, .printed prompt⟩, ⟨.line, .lineRead line⟩,
        ⟨.complaint, .printed (Refusal.report reason)⟩] := by
  rw [← complaint_eq_report] at hreport ⊢
  have hround := askOnce_of_refused (printFor_of_eq hprompt) (nextLine_of_eq hread) hparse
    (printFor_of_eq hreport)
  rw [readValue_eq_askOnce hS.supply ⟨script, ht⟩, bind_apply_of_ok (by rw [hround]; rfl), hround]
  rfl

theorem Refuses.readValue_eq (hS : ReadsScripts S) (h : Refuses prompt parse t refused u)
    (ht : S script t) :
    ∃ calls, readValue prompt parse t = (readValue prompt parse u).after calls ∧
      calls.map Call.invocation = refused.flatMap (Refusal.invocations prompt) := by
  induction h generalizing script with
  | nil t => exact ⟨[], rfl, rfl⟩
  | cons hprompt hread hparse hreport rest ih =>
    obtain ⟨left, -, hleft⟩ := hS.readLine_of_eq (hS.print_of_eq ht hprompt) hread
    obtain ⟨calls, heq, hcalls⟩ := ih (hS.print_of_eq hleft hreport)
    rw [hS.readValue_of_refused ht hprompt hread hparse hreport, heq]
    refine ⟨_ :: _ :: _ :: calls, rfl, ?_⟩
    rw [List.map_cons, List.map_cons, List.map_cons, hcalls]
    rfl

/-- A question on a script has one dialogue, whatever comes of the prints: lines that are refused,
and a last round. So much of the script is read as these take. The terminal is used for nothing
else, and a value comes of it just if the last round accepts a line. -/
theorem readValue_on_script (hS : ReadsScripts S) (ht : S script t) (prompt : Bytes)
    (parse : Bytes → Except Bytes α) :
    let reply := readValue prompt parse t
    ∃ refused u ending left rest,
      Refuses prompt parse t refused u ∧ Ends prompt parse u ending reply.state ∧
        (∀ refused' u' ending' v', Refuses prompt parse t refused' u' →
          Ends prompt parse u' ending' v' → refused' = refused ∧ ending' = ending) ∧
        script = refused.map (fun r => .line r.line) ++ left ∧ ending.Takes left rest ∧
        S rest reply.state ∧
        reply.events.map Call.invocation =
          refused.flatMap (Refusal.invocations prompt) ++ ending.invocations prompt ∧
        reply.outcome = ending.outcome ∧
        ((∃ value, reply.outcome = .ok value) ↔ ∃ line value, ending = .accepted line value) := by
  intro reply
  obtain ⟨refused, u, ending, v, hrefuses, hends⟩ := hS.exists_dialogue ht prompt parse
  obtain ⟨left, hscript, hleft⟩ := hrefuses.takes hS ht
  obtain ⟨rest, htakes, hrest⟩ := hends.takes hS hleft
  obtain ⟨calls, hasked, hcalls⟩ := hrefuses.readValue_eq hS ht
  obtain ⟨last, hended, hlast⟩ := hends.readValue_eq hS hleft
  have hreply : reply = ⟨ending.outcome, calls ++ last, v⟩ := by
    show readValue prompt parse t = _
    rw [hasked, hended]
    rfl
  rw [hreply]
  refine ⟨refused, u, ending, left, rest, hrefuses, hends, ?_, hscript, htakes, hrest, ?_, rfl, ?_⟩
  · intro refused' u' ending' v' hrefuses' hends'
    exact hrefuses.unique hends hrefuses' hends'
  · rw [List.map_append, hcalls, hlast]
  · cases ending with
    | accepted line value => exact iff_of_true ⟨value, rfl⟩ ⟨line, value, rfl⟩
    | promptFailed | readFailed | reportFailed =>
      exact iff_of_false (fun ⟨_, h⟩ => by cases h) (fun ⟨_, _, h⟩ => by cases h)

/-- After a line that is refused, the next one is accepted, and the one after that is left. -/
theorem readValue_after_a_refusal :
    let lines := [ascii "x", ascii " 7 ", ascii "8"]
    let t := Scripted.ofScript (lines.map .line) []
    let reply := readValue (ascii "> ") ((ValueType.signed 32).parser false) t
    t.source = .script (lines.map .line) ∧ reply.outcome = .ok (.integer 7) ∧
      reply.state.source = .script [.line (ascii "8")] ∧
      reply.events.map Call.invocation =
        [.printed (ascii "> "), .lineRead (ascii "x"),
          .printed (ascii "Invalid input: invalid value 'x'.\n"), .printed (ascii "> "),
          .lineRead (ascii " 7 ")] := by
  intro lines t reply
  obtain ⟨refused, u, ending, left, rest, -, -, hunique, hscript, htakes, hrest, hevents,
    houtcome, -⟩ := readValue_on_script readsScripts_scripted (t := t) rfl (ascii "> ")
      ((ValueType.signed 32).parser false)
  -- The dialogue that is wanted is a dialogue, so it is the one there is.
  obtain ⟨rfl, rfl⟩ := hunique [⟨ascii "x", ascii "invalid value 'x'"⟩] _
    (.accepted (ascii " 7 ") (.integer 7)) _ (.cons rfl rfl rfl rfl (.nil _))
    (.accepted rfl rfl rfl)
  cases hscript
  cases htakes
  exact ⟨rfl, houtcome, hrest, hevents⟩

end Repl.Terminal
