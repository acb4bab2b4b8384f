import Repl.Proofs.Session.Context
import Repl.Proofs.Session.Exhaustion
import Repl.Proofs.Session.Succession
import Repl.Proofs.Stock.Sessions

/-!
Sessions of stock commands on one script, one after another. A session that ends well has read no
further than its script goes, so a script for each of some sessions makes one for all of them.
-/

namespace Repl.Stock

open Session

variable {specs : List Spec} {r : Registry Command} {rules : List PrintRule}
  {logger : Option Log.Logger} {script : List ScriptEntry}

/-! ## What a command looks at -/

theorem printLine_neverConsults {γ : Type} {text : Bytes} {next : Action γ}
    (h : next.NeverConsults) :
    (Action.printLine text next).NeverConsults :=
  .print (Action.orFail_of (fun _ => .finish) fun _ => h)

/-- A command of the stock may change the text, and never looks at it. -/
theorem Direct.action_neverConsults (entries : List HelpEntry) (d : Direct) :
    (d.action entries).NeverConsults := by
  cases d with
  | present text => exact .update (printLine_neverConsults .finish)
  | respond result => exact .finish
  | say text => exact .print (Action.orFail_of (fun _ => .finish) fun _ => .finish)
  | ask noun prompt type orDefault =>
    exact .ask (Action.orFail_of (fun _ => .finish) fun _ => .update .finish)
  | flag settings result =>
    exact Action.setFlags_of (fun _ _ => .setFlag) (.consultFlag fun _ => .update .finish) settings
  | nest =>
    refine .nest fun outcome => ?_
    cases outcome with
    | ok _ => exact .finish
    | error message => exact .finish
  | builtin b =>
    cases b with
    | help => exact printLine_neverConsults .finish
    | quit => exact .setFlag (printLine_neverConsults .finish)

theorem Command.action_neverConsults (r : Registry Command) (c : Command) :
    (c.action r).NeverConsults := by
  obtain ⟨d, haction, -⟩ | ⟨e, haction⟩ := c.action_cases r
  · rw [haction]
    exact d.action_neverConsults r.helpEntries
  · rw [haction]
    exact .finish

/-! ## What a command makes of a failed read -/

/-- A command of the stock ends with the read that fails, or with the session that does. -/
theorem Direct.action_endsOnFailedRead (entries : List HelpEntry) (d : Direct) :
    (d.action entries).EndsOnFailedRead := by
  cases d with
  | present text =>
    exact .update (.print (Action.orFail_of (fun _ => .finish) fun _ => .finish))
  | respond result => exact .finish
  | say text => exact .print (Action.orFail_of (fun _ => .finish) fun _ => .finish)
  | ask noun prompt type orDefault =>
    exact .ask (fun message => ⟨.accessTerminalError message, rfl⟩) fun _ => .update .finish
  | flag settings result =>
    cases settings with
    | nil => exact .consultFlag fun _ => .update .finish
    | cons flag settings =>
      exact .setFlag (Action.setFlags_of (fun _ _ => .setFlag) (.consultFlag fun _ => .update .finish)
        settings)
  | nest => exact .nest (fun message => ⟨.failed (ascii "nested: " ++ message), rfl⟩) .finish
  | builtin b =>
    cases b with
    | help => exact .print (Action.orFail_of (fun _ => .finish) fun _ => .finish)
    | quit => exact .setFlag (printLine_asksAtMost .finish)

theorem Command.action_endsOnFailedRead (r : Registry Command) (c : Command) :
    (c.action r).EndsOnFailedRead := by
  obtain ⟨d, haction, -⟩ | ⟨e, haction⟩ := c.action_cases r
  · rw [haction]
    exact d.action_endsOnFailedRead r.helpEntries
  · rw [haction]
    exact .finish

/-! ## Sessions one after another -/

/-- A session that ends well and leaves nothing of its script has read as often as there were
entries. -/
theorem reads_alone {prompts : Prompts} {context : Bytes}
    (hok : (Bench.alone (application r prompts) rules logger script context).outcome = .ok ())
    (hleft : (Bench.alone (application r prompts) rules logger script
      context).state.host.terminal.source = .script []) :
    Transcript.reads (Bench.alone (application r prompts) rules logger script context).events =
      script.length := by
  have hstart : Terminal.patience (⟨.ofScript script rules, logger⟩ : Bench) = script.length :=
    Bench.patience_eq rfl
  have hcovered := run_covered Bench.counted (Command.action_endsOnFailedRead r)
    (s := .start ⟨.ofScript script rules, logger⟩ context) ⟨script, rfl⟩ hok
  have hnone := Bench.patience_eq hleft
  change _ + Terminal.patience (Bench.alone _ _ _ _ _).state.host =
    Terminal.patience (⟨.ofScript script rules, logger⟩ : Bench) at hcovered
  rw [hstart, hnone] at hcovered
  exact hcovered

/-- A session goes the same way whatever text it starts with. -/
theorem alone_of_context (r : Registry Command) (prompts : Prompts) (rules : List PrintRule)
    (logger : Option Log.Logger) (script : List ScriptEntry) (context other : Bytes) :
    ∃ left, Bench.alone (application r prompts) rules logger script other =
      leaving left (Bench.alone (application r prompts) rules logger script context) := by
  have hstart : Bench.HasScript
      (State.start (⟨.ofScript script rules, logger⟩ : Bench) context).host := ⟨script, rfl⟩
  exact run_of_context Bench.supply (Command.action_neverConsults r) hstart other

theorem events_separately (prompts : Prompts) (scripts : List (List ScriptEntry))
    (context other : Bytes) :
    (Bench.separately (application r prompts) rules logger scripts context).map (·.events) =
      scripts.map fun script =>
        (Bench.alone (application r prompts) rules logger script other).events := by
  induction scripts generalizing context with
  | nil => rfl
  | cons script scripts ih =>
    obtain ⟨left, hsame⟩ := alone_of_context r prompts rules logger script context other
    rw [Bench.separately, List.map_cons, List.map_cons, ih, hsame]
    rfl

/-- If each of the scripts takes some session to a good end, then it does so whatever text the
sessions before its own leave, and that session starts at the prompt of one that applied nothing. -/
theorem ends_of_mem_separately {prompts : Prompts} {scripts : List (List ScriptEntry)}
    {context : Bytes} {reply : Reply Event (State Bench Bytes) Unit}
    (hscripts : ∀ script ∈ scripts, ∃ own,
      (Bench.alone (application r prompts) rules logger script own).outcome = .ok ())
    (h : reply ∈ Bench.separately (application r prompts) rules logger scripts context) :
    reply.outcome = .ok () ∧
      (Transcript.invocations reply.events).head? = some (.printed prompts.applied) := by
  obtain ⟨script, hscript, other, rfl⟩ := Bench.exists_alone_of_mem_separately h
  obtain ⟨own, hown⟩ := hscripts script hscript
  obtain ⟨left, hsame⟩ := alone_of_context r prompts rules logger script own other
  have hok : (Bench.alone (application r prompts) rules logger script other).outcome = .ok () := by
    rw [hsame]
    exact hown
  have hrun : Unfolds (application r prompts) .session _
      (Bench.alone (application r prompts) rules logger script other) :=
    unfolds_run Bench.supply ⟨script, rfl⟩
  exact ⟨hok, hrun.head?_of_session hok⟩

/-- What follows in a script is of no account to a session that does not read past its end, and is
left to the next one, with what was not read. So on the scripts of several sessions, each of which
ends well and reads its own to the end, that many sessions in a row go as they do alone: each starts
at the prompt of a session that has applied nothing, with the text that the one before it left. -/
theorem sessions_in_succession (r : Registry Command) (prompts : Prompts) (rules : List PrintRule)
    (logger : Option Log.Logger) :
    let app := application r prompts
    (∀ (script later : List ScriptEntry) (prints : Nat) (context : Bytes) (flag : RunFlag),
      let session (entries : List ScriptEntry) :=
        run app (⟨⟨⟨.script entries, rules, prints⟩, logger⟩, context, flag⟩ : State Bench Bytes)
      let unread := script.drop (Transcript.reads (session script).events)
      Transcript.reads (session script).events ≤ script.length →
        course (session (script ++ later)) = course (session script) ∧
          ∃ prints',
            (session script).state.host = ⟨⟨.script unread, rules, prints'⟩, logger⟩ ∧
            (session (script ++ later)).state.host =
              ⟨⟨.script (unread ++ later), rules, prints'⟩, logger⟩) ∧
      (PrintRule.AboutTexts rules → ∀ (scripts : List (List ScriptEntry)) (later : List ScriptEntry)
        (prints : Nat) (context : Bytes) (flag : RunFlag),
        (∀ script ∈ scripts, ∃ context,
          let reply := Bench.alone app rules logger script context
          reply.outcome = .ok () ∧ reply.state.host.terminal.source = .script []) →
        let replies := runAll app scripts.length
          (⟨⟨⟨.script (scripts.flatten ++ later), rules, prints⟩, logger⟩, context, flag⟩ :
            State Bench Bytes)
        replies.map course = (Bench.separately app rules logger scripts context).map course ∧
          (∀ context, replies.map (·.events) =
            scripts.map fun script => (Bench.alone app rules logger script context).events) ∧
          replies.map (·.state.host.terminal.source) =
            scripts.tails.tail.map (fun rest => .script (rest.flatten ++ later)) ∧
          ∀ reply ∈ replies, reply.outcome = .ok () ∧
            (Transcript.invocations reply.events).head? = some (.printed prompts.applied)) := by
  intro app
  constructor
  · intro script later prints context flag session unread hreads
    exact Bench.run_append app script later prints 0 (.inl rfl) logger context flag hreads
  · intro htexts scripts later prints context flag hscripts replies
    have hreads (script : List ScriptEntry) (h : script ∈ scripts) (other : Bytes) :
        Transcript.reads (Bench.alone app rules logger script other).events = script.length := by
      obtain ⟨own, hok, hleft⟩ := hscripts script h
      obtain ⟨left, hsame⟩ := alone_of_context r prompts rules logger script own other
      rw [hsame]
      exact reads_alone hok hleft
    have ⟨hcourses, hsources⟩ := Bench.runAll_flatten htexts later scripts hreads prints context flag
    refine ⟨hcourses, fun other => ?_, hsources, fun reply hreply => ?_⟩
    · have hevents := congrArg (List.map Course.events) hcourses
      rw [List.map_map, List.map_map] at hevents
      exact hevents.trans (events_separately prompts scripts context other)
    · have hmem := hcourses ▸ List.mem_map_of_mem (f := course) hreply
      obtain ⟨twin, htwin, hcourse⟩ := List.mem_map.1 hmem
      have hends : ∀ script ∈ scripts, ∃ own,
          (Bench.alone app rules logger script own).outcome = .ok () :=
        fun script hscript => (hscripts script hscript).imp fun _ h => h.1
      have ⟨hok, hhead⟩ := ends_of_mem_separately hends htwin
      have houtcome : twin.outcome = reply.outcome := congrArg Course.outcome hcourse
      have hevents : twin.events = reply.events := congrArg Course.events hcourse
      rw [houtcome] at hok
      rw [hevents] at hhead
      exact ⟨hok, hhead⟩

def conversing : Registry Command :=
  Option.get (register [.builtin .quit, .named (ascii "say") none ⟨[], [], []⟩ .say,
    .named (ascii "nest") none ⟨[], [], []⟩ .nest]).outcome.toOption rfl

def greeting : List ScriptEntry :=
  [.line (ascii "say so"), .line (ascii "q")]

def excursion : List ScriptEntry :=
  [.line (ascii "what"), .line (ascii "nest"), .line (ascii "q")]

/-- Two sessions on one script, of which the second is stopped from inside another one. -/
theorem conversing_sessions_in_succession :
    let app := application conversing .standard
    let replies := runAll app 2 (⟨⟨.ofScript (greeting ++ excursion) [], none⟩, [], .running⟩ :
      State Bench Bytes)
    Transcript.reads (Bench.alone app [] none greeting []).events ≤ 2 ∧
      PrintRule.AboutTexts [] ∧
      (∀ script ∈ [greeting, excursion], ∃ context,
        (Bench.alone app [] none script context).outcome = .ok () ∧
          (Bench.alone app [] none script context).state.host.terminal.source = .script []) ∧
      course (Bench.alone app [] none (greeting ++ excursion) []) =
        course (Bench.alone app [] none greeting []) ∧
      replies.map (·.events) = [(Bench.alone app [] none greeting []).events,
        (Bench.alone app [] none excursion []).events] ∧
      replies.map (·.state.host.terminal.source) = [.script excursion, .script []] := by
  have htexts : PrintRule.AboutTexts [] := nofun
  have hreads : Transcript.reads
      (Bench.alone (application conversing .standard) [] none greeting []).events = 2 := rfl
  have hscripts : ∀ script ∈ [greeting, excursion], ∃ context,
      (Bench.alone (application conversing .standard) [] none script context).outcome = .ok () ∧
        (Bench.alone (application conversing .standard) [] none script
          context).state.host.terminal.source = .script [] :=
    List.forall_mem_cons.2 ⟨⟨[], rfl, rfl⟩, List.forall_mem_cons.2 ⟨⟨[], rfl, rfl⟩, nofun⟩⟩
  obtain ⟨hlookAhead, hsuccession⟩ := sessions_in_succession conversing .standard [] none
  obtain ⟨hcourse, -⟩ := hlookAhead greeting excursion 0 [] .stopped hreads.le
  obtain ⟨-, hevents, hsources, -⟩ :=
    hsuccession htexts [greeting, excursion] [] 0 [] .running hscripts
  exact ⟨hreads.le, htexts, hscripts, hcourse, hevents [], hsources⟩

end Repl.Stock
