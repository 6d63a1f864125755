import SessionServer.Connection
import SessionServer.Data.OrderedMap

/-!
Contract: delayed and periodic tasks on a clock of whole seconds.

Owns:
- `Scheduler`, the tasks that wait for their next run, which of them are cancelled, and which of
  them are tracked under a connection;
- scheduling, cancelling (one task or all tasks of a connection), shutting down;
- the two ends of a run: `start?`, which hands over the body of a task that may run now, and
  `finish`, which arms the task for its next run or retires it;
- `moments`, when runs are due, and `pass`, time that goes by without a run.

A repeating task first runs one full period after it was scheduled. A task is retired when its run
ends with anything but `again`, and when it is found cancelled or the scheduler shut down, before
or after a run. A session task is tracked under its connection from scheduling until it is retired
or the tasks of its connection are cancelled. A task of period zero never runs and is never
retired.

Does not own: what a body does. Bodies are of any type; `Scheduler.Clockwork` runs them.
-/

namespace SessionServer

/-- The number of a task; it doubles as the handle by which the task is cancelled. -/
abbrev TaskId := Nat

/-- How a run of a task or of a hook ends. -/
inductive Ending where
  /-- The task wants to run again. -/
  | again
  | stop
  /-- A start-up hook cannot go on, for the given reason. -/
  | refused (reason : String)
  /-- The run broke off in the middle. -/
  | aborted
deriving DecidableEq, Repr

inductive Timing where
  /-- Once, after a delay. -/
  | once (delay : Nat)
  | repeating (period : Nat)
  /-- Every period, tracked under a connection. -/
  | session (connection : ConnectionId) (period : Nat)
deriving DecidableEq, Repr

namespace Timing

/-- The time from scheduling to the first run; a period of zero has none. -/
def firstDelay? : Timing → Option Nat
  | .once delay => some delay
  | .repeating period => if period = 0 then none else some period
  | .session _ period => if period = 0 then none else some period

/-- The time between two runs of a task that runs more than once. -/
def period? : Timing → Option Nat
  | .once _ => none
  | .repeating period => some period
  | .session _ period => some period

def connection? : Timing → Option ConnectionId
  | .session connection _ => some connection
  | _ => none

end Timing

/-- A task that waits for its next run. -/
structure Task (β : Type) where
  id : TaskId
  timing : Timing
  /-- The moment of the next run; nothing for a period of zero. -/
  due : Option Nat
  body : β

/-- The waiting tasks and what is known about every task ever scheduled. -/
structure Scheduler (β : Type) where
  /-- Seconds since the start. -/
  now : Nat := 0
  /-- Waiting tasks in the order in which they were scheduled. -/
  tasks : List (Task β) := []
  nextId : TaskId := 0
  cancelled : OrderedSet TaskId := .empty
  /-- The tasks tracked under each connection, in the order in which they were scheduled. -/
  tracked : OrderedMap ConnectionId (List TaskId) := .empty
  isShutDown : Bool := false

namespace Scheduler

variable {β : Type}

def fresh : Scheduler β := {}

/-! ## Queries -/

def isCancelled (scheduler : Scheduler β) (id : TaskId) : Bool := scheduler.cancelled.contains id

/-- Whether a task may not run any more. -/
def isStopped (scheduler : Scheduler β) (id : TaskId) : Bool :=
  scheduler.isCancelled id || scheduler.isShutDown

/-- The tasks tracked under a connection. -/
def trackedUnder (scheduler : Scheduler β) (connection : ConnectionId) : List TaskId :=
  (scheduler.tracked.get? connection).getD []

def trackedSessions (scheduler : Scheduler β) : Nat := scheduler.tracked.size

def task? (scheduler : Scheduler β) (id : TaskId) : Option (Task β) :=
  scheduler.tasks.find? fun task => task.id = id

/-- The tasks that are due now, in the order in which they were scheduled. -/
def dueNow (scheduler : Scheduler β) : List TaskId :=
  (scheduler.tasks.filter fun task => task.due = some scheduler.now).map Task.id

/-! ## Scheduling and cancelling -/

def track (scheduler : Scheduler β) (connection : ConnectionId) (id : TaskId) : Scheduler β :=
  { scheduler with
    tracked := scheduler.tracked.insert connection (scheduler.trackedUnder connection ++ [id]) }

/-- Ends the tracking of a task; a connection without tracked tasks is dropped. -/
def untrack (scheduler : Scheduler β) (connection : ConnectionId) (id : TaskId) : Scheduler β :=
  match scheduler.tracked.get? connection with
  | none => scheduler
  | some ids =>
      let kept := ids.filter (· ≠ id)
      { scheduler with
        tracked :=
          if kept.isEmpty then scheduler.tracked.erase connection
          else scheduler.tracked.insert connection kept }

def schedule (scheduler : Scheduler β) (timing : Timing) (body : β) : TaskId × Scheduler β :=
  let id := scheduler.nextId
  let task : Task β :=
    { id, timing, due := timing.firstDelay?.map (scheduler.now + ·), body }
  let added := { scheduler with tasks := scheduler.tasks ++ [task], nextId := id + 1 }
  (id,
    match timing.connection? with
    | none => added
    | some connection => added.track connection id)

/-- Sets the cancelled mark of a task; a run in progress still ends by itself. -/
def cancel (scheduler : Scheduler β) (id : TaskId) : Scheduler β :=
  { scheduler with cancelled := OrderedSet.add scheduler.cancelled id }

/-- The handle of a task that is cancelled from the outset and never waits. -/
def refuse (scheduler : Scheduler β) : TaskId × Scheduler β :=
  (scheduler.nextId,
    { scheduler with nextId := scheduler.nextId + 1 }.cancel scheduler.nextId)

/-- Cancels every task tracked under a connection and counts them. -/
def cancelSession (scheduler : Scheduler β) (connection : ConnectionId) : Nat × Scheduler β :=
  let ids := scheduler.trackedUnder connection
  (ids.length,
    { scheduler with
      tracked := scheduler.tracked.erase connection
      cancelled := OrderedSet.addAll scheduler.cancelled ids })

/-- Stops every task; all tracked tasks are cancelled, the others simply never run again. -/
def shutDown (scheduler : Scheduler β) : Scheduler β :=
  { scheduler with
    isShutDown := true
    tracked := .empty
    cancelled :=
      OrderedSet.addAll scheduler.cancelled (scheduler.tracked.toList.flatMap Prod.snd) }

/-! ## Runs -/

/-- Drops a waiting task and its tracking. -/
def retire (scheduler : Scheduler β) (task : Task β) : Scheduler β :=
  let rest := { scheduler with tasks := scheduler.tasks.filter (·.id ≠ task.id) }
  match task.timing.connection? with
  | none => rest
  | some connection => rest.untrack connection task.id

/-- Arms a waiting task for its next run. -/
def rearm (scheduler : Scheduler β) (id : TaskId) (period : Nat) : Scheduler β :=
  { scheduler with
    tasks := scheduler.tasks.map fun task =>
      if task.id = id then { task with due := some (scheduler.now + period) } else task }

/-- What a due task does next: it runs, or it ends because it may not run any more. -/
def start? (scheduler : Scheduler β) (task : Task β) : Except (Scheduler β) β :=
  if scheduler.isStopped task.id then .error (scheduler.retire task) else .ok task.body

/-- What follows a run: the task waits for its next run or is retired. -/
def finish (scheduler : Scheduler β) (task : Task β) (ending : Ending) : Scheduler β :=
  match task.timing.period? with
  | none => scheduler.retire task
  | some period =>
      if ending = .again ∧ scheduler.isStopped task.id = false then
        scheduler.rearm task.id period
      else scheduler.retire task

/-! ## Time -/

/-- The moments for which runs are due. -/
def moments (scheduler : Scheduler β) : List Nat := scheduler.tasks.filterMap Task.due

/-- Lets seconds go by without a run. -/
def pass (seconds : Nat) (scheduler : Scheduler β) : Scheduler β :=
  { scheduler with now := scheduler.now + seconds }

theorem pass_zero (scheduler : Scheduler β) : scheduler.pass 0 = scheduler := rfl

theorem pass_add (first second : Nat) (scheduler : Scheduler β) :
    scheduler.pass (first + second) = (scheduler.pass first).pass second := by
  simp only [pass, Nat.add_assoc]

end Scheduler

end SessionServer
