import SessionServer.Scheduler.Clockwork

/-!
Contract: a scheduler on its own, with tasks that follow a plan.

Owns:
- `Plan`, what a task does in each of its runs: commands to the scheduler, then how the run ends;
- `Rehearsal`, a scheduler of planned tasks under names, with the count of the runs of every name
  and the log of all runs.

A rehearsal shows the scheduler's own behaviour without a server around it.
-/

namespace SessionServer

/-- What a planned task tells the scheduler. -/
inductive Command where
  | cancel (name : String)
  | cancelSession (connection : ConnectionId)
  | shutDown
deriving DecidableEq, Repr

/-- What a task does in one run. -/
structure Plan where
  commands : List Command
  ending : Ending
deriving DecidableEq, Repr

/-- A task under a name, with its plan for every run, the first being run one. -/
structure PlannedTask where
  name : String
  plan : Nat → Plan

structure Run where
  time : Nat
  name : String
deriving DecidableEq, Repr

structure Rehearsal where
  scheduler : Scheduler PlannedTask := .fresh
  /-- The handle that a name stands for. -/
  handles : OrderedMap String TaskId := .empty
  runs : OrderedMap String Nat := .empty
  log : List Run := []

namespace Rehearsal

def fresh : Rehearsal := {}

def runsOf (rehearsal : Rehearsal) (name : String) : Nat := (rehearsal.runs.get? name).getD 0

/-- The names whose handle is cancelled. -/
def cancelledNames (rehearsal : Rehearsal) : List String :=
  (rehearsal.handles.toList.filter fun entry => rehearsal.scheduler.isCancelled entry.2).map
    Prod.fst

/-- Cancels the task of a name; a name without a task cancels nothing. -/
def cancel (rehearsal : Rehearsal) (name : String) : Rehearsal :=
  match rehearsal.handles.get? name with
  | none => rehearsal
  | some id => { rehearsal with scheduler := rehearsal.scheduler.cancel id }

def cancelSession (rehearsal : Rehearsal) (connection : ConnectionId) : Nat × Rehearsal :=
  let (count, scheduler) := rehearsal.scheduler.cancelSession connection
  (count, { rehearsal with scheduler })

def shutDown (rehearsal : Rehearsal) : Rehearsal :=
  { rehearsal with scheduler := rehearsal.scheduler.shutDown }

/-- Carries out a command of a running task. -/
def obey (rehearsal : Rehearsal) : Command → Rehearsal
  | .cancel name => rehearsal.cancel name
  | .cancelSession connection => (rehearsal.cancelSession connection).2
  | .shutDown => rehearsal.shutDown

/-- Counts and logs a run, then follows its plan. -/
def perform (task : PlannedTask) (rehearsal : Rehearsal) : Ending × Rehearsal :=
  let count := rehearsal.runsOf task.name + 1
  let plan := task.plan count
  let counted :=
    { rehearsal with
      runs := rehearsal.runs.insert task.name count
      log := rehearsal.log ++ [⟨rehearsal.scheduler.now, task.name⟩] }
  (plan.ending, plan.commands.foldl obey counted)

/-- How rehearsals run their tasks. -/
def clockwork : Clockwork Rehearsal PlannedTask where
  scheduler := Rehearsal.scheduler
  withScheduler rehearsal scheduler := { rehearsal with scheduler }
  perform _ task rehearsal := perform task rehearsal

/-- Schedules a planned task; one that is due at once runs before anything else happens. -/
def schedule (rehearsal : Rehearsal) (timing : Timing) (task : PlannedTask) : Rehearsal :=
  let (id, scheduler) := rehearsal.scheduler.schedule timing task
  clockwork.settle
    { rehearsal with
      scheduler
      handles := rehearsal.handles.insert task.name id
      runs := rehearsal.runs.insert task.name (rehearsal.runsOf task.name) }

def advance (rehearsal : Rehearsal) (seconds : Nat) : Rehearsal :=
  clockwork.advance seconds rehearsal

end Rehearsal

end SessionServer
