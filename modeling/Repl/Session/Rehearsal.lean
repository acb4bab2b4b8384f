import Repl.Session.Bench
import Repl.Session.Stock

/-!
Rehearsals: an application of stock commands, built and run on the bench as a plan lays down.
-/

namespace Repl

/-- What is to be rehearsed: commands, settings for the prompts, a script, prints that fail, the
level of the logger, if there is one, and how many sessions to run. -/
structure Plan where
  specs : List Stock.Spec
  settings : Option Bytes
  script : List ScriptEntry
  rules : List PrintRule
  level : Option Log.Level
  runs : Nat
  deriving DecidableEq, Repr

/-- What happened in a rehearsal. The replies are those of its sessions; `announced` holds the log
entries let through before the first of them. -/
structure Rehearsal where
  prompts : Prompts
  start : Session.State Bench Bytes
  announced : List Log.Entry
  replies : List (Reply Event (Session.State Bench Bytes) Unit)

/-- What a session shows, apart from its log: how it ended, its uses of the terminal, and what it
left. -/
structure Showing where
  outcome : Except Bytes Unit
  invocations : List Invocation
  context : Bytes
  flag : RunFlag

/-- What a rehearsal shows, apart from its log: the prompts, the state before the first session, and
the sessions. -/
structure Performance where
  prompts : Prompts
  context : Bytes
  flag : RunFlag
  sessions : List Showing

namespace Plan

def bench (p : Plan) : Bench :=
  ⟨.ofScript p.script p.rules, p.level.map Bench.loggerAt⟩

/-- The prompts of a plan. Settings that cannot be read set none. -/
def prompts (p : Plan) : Prompts :=
  match p.settings with
  | some text => .ofConfiguration (Configuration.empty.load text).2
  | none => .standard

def registration (p : Plan) : Registration Stock.Command :=
  Stock.register p.specs

/-- Builds the application and runs its sessions, unless its commands make no registry. -/
def rehearse (p : Plan) : Except SpecError Rehearsal :=
  p.registration.outcome.map fun r =>
    let start := Session.State.start p.bench []
    { prompts := p.prompts
      start := start
      announced := p.registration.entries.filter p.bench.admits
      replies := Session.runAll (Stock.application r p.prompts) p.runs start }

end Plan

namespace Rehearsal

def transcript (r : Rehearsal) : Transcript :=
  r.announced.map .logged ++ r.replies.flatMap (·.events)

def invocations (r : Rehearsal) : List Invocation :=
  r.transcript.invocations

/-- The log entries let through, each with the number of uses of the terminal before it. -/
def entries (r : Rehearsal) : List (Nat × Log.Entry) :=
  r.transcript.entriesAfter 0

def showing (reply : Reply Event (Session.State Bench Bytes) Unit) : Showing :=
  ⟨reply.outcome, Transcript.invocations reply.events, reply.state.context, reply.state.flag⟩

def performance (r : Rehearsal) : Performance :=
  ⟨r.prompts, r.start.context, r.start.flag, r.replies.map showing⟩

/-- The number of uses of the terminal after each of some sessions, of which `earlier` were made
before them. -/
def countsAfter (earlier : Nat) :
    List (Reply Event (Session.State Bench Bytes) Unit) → List Nat
  | [] => []
  | reply :: rest =>
    let count := earlier + (Transcript.invocations reply.events).length
    count :: countsAfter count rest

end Rehearsal

/-- The log entries let through from the registration on, whether it succeeds or not. -/
def Plan.entries (p : Plan) : List (Nat × Log.Entry) :=
  match p.rehearse with
  | .ok r => r.entries
  | .error _ => (p.registration.entries.filter p.bench.admits).map fun entry => (0, entry)

end Repl
