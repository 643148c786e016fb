import TwinStore.Trace.Basic

/-!
# Programs over scopes

A program opens scopes inside each other, fails and catches failures, and runs tasks side by side.
A task runs until it pauses or waits for tasks of its own; tasks that are ready take turns in the
order in which they became ready.

Main definitions:

- `Statement`: the statements of a program.
- `Progress`: how far a task got.
- `Statement.run`: a task run up to its first stop.
- `runProgram`: the run of a program with all its tasks.
-/

namespace TwinStore.Trace

/-! ## Statements -/

/-- A statement of a program over scopes. -/
inductive Statement where
  /-- Runs statements in a scope, whose correlation may be given by a label. -/
  | scope (body : List Statement) (source : Option String)
  /-- Gives the correlation of the enclosing scope a label. -/
  | label (name : String)
  /-- Adds a message to the correlation of the enclosing scope. -/
  | log (event : Event)
  /-- Shows the active correlation. -/
  | current
  /-- Finishes the correlation of the enclosing scope. -/
  | finish
  /-- Fails. -/
  | fail
  /-- Runs statements and catches their failure. -/
  | attempt (body : List Statement)
  /-- Runs tasks side by side and waits for them. -/
  | tasks (bodies : List (List Statement))
  /-- Lets other tasks run. -/
  | pause

/-- What a program shows. -/
inductive Sighting where
  | entered (id : String) (same : Bool)
  | left (id : String) (finished : Bool) (borrowed : Nat)
  | current (id : Option String)
  | caught
deriving DecidableEq, Repr

/-- The state that all tasks share. -/
structure Shared where
  trace : Trace
  labels : Entries (Option CorrelationRef) := []
  seen : List Sighting := []

namespace Shared

/-- Shows something. -/
def see (s : Shared) (sighting : Sighting) : Shared := { s with seen := s.seen ++ [sighting] }

end Shared

/-! ## Tasks -/

/-- How far a task got: it ended, by failure or not; it paused; or it waits for tasks, which run the
given statements in the scope of the given correlation. -/
inductive Progress where
  | ended (failed : Bool) (s : Shared)
  | paused (s : Shared) (resume : Shared → Progress)
  | waiting (bodies : List (List Statement)) (enclosing : Option CorrelationRef) (s : Shared)
      (resume : Bool → Shared → Progress)

/-- Goes on after a task ended. -/
def Progress.andThen (next : Bool → Shared → Progress) : Progress → Progress
  | ended failed s => next failed s
  | paused s resume => paused s fun s => (resume s).andThen next
  | waiting bodies enclosing s resume =>
    waiting bodies enclosing s fun failed s => (resume failed s).andThen next

/-- Leaves a scope; what was left is shown unless a failure passes through. -/
def leaveScope (ref : CorrelationRef) (hold : Hold) (failed : Bool) (s : Shared) : Progress :=
  let s := { s with trace := s.trace.leave ref hold }
  let c := s.trace.correlation ref
  .ended failed (if failed then s else s.see (.left c.id c.finished c.borrowed))

mutual

/-- Runs a statement in the scope of a correlation, up to the first stop. -/
def Statement.run (enclosing : Option CorrelationRef) : Statement → Shared → Progress
  | .scope body source, s =>
    let given := (source.bind (Entries.get? s.labels)).join
    let (trace, ref, hold) := s.trace.enter given
    let s := { s with trace }.see (.entered (trace.correlation ref).id (enclosing == some ref))
    (Statement.runAll (some ref) body s).andThen (leaveScope ref hold)
  | .label name, s => .ended false { s with labels := Entries.set s.labels name enclosing }
  | .log event, s =>
    .ended false (enclosing.elim s fun ref => { s with trace := s.trace.annotate ref event })
  | .current, s => .ended false (s.see (.current s.trace.activeId?))
  | .finish, s =>
    .ended false (enclosing.elim s fun ref => { s with trace := s.trace.finish ref })
  | .fail, s => .ended true s
  | .attempt body, s =>
    (Statement.runAll enclosing body s).andThen fun failed s =>
      .ended false (if failed then s.see .caught else s)
  | .tasks [], s => .ended false s
  | .tasks bodies, s => .waiting bodies enclosing s .ended
  | .pause, s => .paused s (.ended false)

/-- Runs statements one after another until one fails. -/
def Statement.runAll (enclosing : Option CorrelationRef) : List Statement → Shared → Progress
  | [], s => .ended false s
  | first :: rest, s =>
    (Statement.run enclosing first s).andThen fun failed s =>
      if failed then .ended true s else Statement.runAll enclosing rest s

end

/-! ## Taking turns -/

/-- Tasks that were started together: how many still run, whether the task that waits for them was
told, and how that one goes on. -/
structure Group where
  running : Nat
  told : Bool
  group : Option Nat
  active : Option CorrelationRef
  resume : Bool → Shared → Progress

/-- Something that is ready: a task of a group, with its active correlation, or the end of a task of
a group. -/
inductive Ready where
  | task (group : Option Nat) (active : Option CorrelationRef) (go : Shared → Progress)
  | ending (group : Nat) (failed : Bool)

/-- What is ready, first come first, and the groups that were started. -/
structure Schedule where
  ready : List Ready
  groups : List Group := []

namespace Schedule

/-- Adds something ready at the end. -/
def enqueue (schedule : Schedule) (items : List Ready) : Schedule :=
  { schedule with ready := schedule.ready ++ items }

/-- Starts a group of tasks for a task that waits. -/
def start (schedule : Schedule) (group : Option Nat) (bodies : List (List Statement))
    (enclosing active : Option CorrelationRef) (resume : Bool → Shared → Progress) : Schedule :=
  let number := schedule.groups.length
  let tasks := bodies.map fun body =>
    Ready.task (some number) active (Statement.runAll enclosing body)
  { schedule.enqueue tasks with
    groups := schedule.groups ++ [⟨bodies.length, false, group, active, resume⟩] }

/-- Tells a group that one of its tasks ended; the waiting task goes on at the first failure, or
when all have ended. -/
def ended (schedule : Schedule) (number : Nat) (failed : Bool) : Schedule :=
  match schedule.groups[number]? with
  | none => schedule
  | some g =>
    let tells := !g.told && (failed || g.running ≤ 1)
    let groups := schedule.groups.set number
      { g with running := g.running - 1, told := g.told || tells }
    let schedule := { schedule with groups }
    if tells then schedule.enqueue [.task g.group g.active (g.resume failed)] else schedule

end Schedule

/-- Takes up to a number of turns; ends when the first task, which has no group, ends. -/
def turns : Nat → Schedule → Shared → Bool × Shared
  | 0, _, s => (false, s)
  | fuel + 1, schedule, s =>
    match schedule.ready with
    | [] => (false, s)
    | .ending group failed :: rest =>
      turns fuel ({ schedule with ready := rest }.ended group failed) s
    | .task group active go :: rest =>
      let schedule := { schedule with ready := rest }
      match go { s with trace := { s.trace with active } } with
      | .ended failed s =>
        match group with
        | none => (failed, s)
        | some number => turns fuel (schedule.enqueue [.ending number failed]) s
      | .paused s resume =>
        turns fuel (schedule.enqueue [.task group s.trace.active resume]) s
      | .waiting bodies enclosing s resume =>
        turns fuel (schedule.start group bodies enclosing s.trace.active resume) s

mutual

/-- The number of statements and tasks in a statement. -/
def Statement.size : Statement → Nat
  | .scope body _ => 1 + Statement.sizeAll body
  | .attempt body => 1 + Statement.sizeAll body
  | .tasks bodies => 1 + Statement.sizeTasks bodies
  | _ => 1

/-- The number of statements and tasks in a list of statements. -/
def Statement.sizeAll : List Statement → Nat
  | [] => 0
  | first :: rest => Statement.size first + Statement.sizeAll rest

/-- The number of statements and tasks in a list of tasks. -/
def Statement.sizeTasks : List (List Statement) → Nat
  | [] => 0
  | first :: rest => 1 + Statement.sizeAll first + Statement.sizeTasks rest

end

/-- Runs a program: whether it failed, and the state in which it ended.  Every statement stops at
most once and every task ends once, so the size of the program bounds the number of turns. -/
def runProgram (body : List Statement) (trace : Trace) : Bool × Shared :=
  turns (3 * Statement.sizeAll body + 3) { ready := [.task none none (Statement.runAll none body)] }
    { trace }

end TwinStore.Trace
