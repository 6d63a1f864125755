import SessionServer.Scheduler.Basic
import SessionServer.Timeline

/-!
Contract: running the due tasks of a world that contains a scheduler.

Owns:
- `Clockwork`, how a world shows its scheduler and what running a task body does to it;
- `fire`, one task at its due time; `settle`, everything that is due at the present moment;
- `timeline`, the world as it stands in time, and `advance`, the passing of a number of seconds.

Tasks due at the same moment run in the order in which they were scheduled. Work that a run adds
for the same moment is served in a further round of `settle`. The bound on the rounds matters only
to tasks that add such work without end.

Main statement: `advance_add`, time may be cut into pieces at will.
-/

namespace SessionServer

/-- How a world shows its scheduler and runs the body of a task. The scheduler is a part of the
world that can be exchanged on its own. -/
structure Clockwork (ω β : Type) where
  scheduler : ω → Scheduler β
  withScheduler : ω → Scheduler β → ω
  perform : TaskId → β → ω → Ending × ω
  scheduler_withScheduler : ∀ world new, scheduler (withScheduler world new) = new := by
    intros; rfl
  withScheduler_scheduler : ∀ world, withScheduler world (scheduler world) = world := by
    intros; rfl
  withScheduler_withScheduler : ∀ world old new,
    withScheduler (withScheduler world old) new = withScheduler world new := by
    intros; rfl

namespace Clockwork

variable {ω β : Type}

/-- The number of rounds that one moment may take. -/
def roundLimit : Nat := 1000

/-- What happens to a task at its due time. -/
def fire (clockwork : Clockwork ω β) (world : ω) (id : TaskId) : ω :=
  match (clockwork.scheduler world).task? id with
  | none => world
  | some task =>
      match (clockwork.scheduler world).start? task with
      | .error retired => clockwork.withScheduler world retired
      | .ok body =>
          let (ending, ran) := clockwork.perform id body world
          clockwork.withScheduler ran ((clockwork.scheduler ran).finish task ending)

/-- One pass over the tasks that are due at the present moment. -/
def round (clockwork : Clockwork ω β) (world : ω) : ω :=
  (clockwork.scheduler world).dueNow.foldl clockwork.fire world

/-- Passes over the due tasks until none is left, at most the given number of times. -/
def rounds (clockwork : Clockwork ω β) : Nat → ω → ω
  | 0, world => world
  | bound + 1, world =>
      if (clockwork.scheduler world).dueNow.isEmpty then world
      else clockwork.rounds bound (clockwork.round world)

/-- Runs everything that is due at the present moment. -/
def settle (clockwork : Clockwork ω β) (world : ω) : ω := clockwork.rounds roundLimit world

/-- A world with tasks in time: it is busy at the moments for which runs are due. -/
def timeline (clockwork : Clockwork ω β) : Timeline ω where
  now world := (clockwork.scheduler world).now
  moments world := (clockwork.scheduler world).moments
  pass seconds world :=
    clockwork.withScheduler world ((clockwork.scheduler world).pass seconds)
  settle := clockwork.settle
  now_pass seconds world := by
    rw [clockwork.scheduler_withScheduler]
    rfl
  moments_pass seconds world := by
    rw [clockwork.scheduler_withScheduler]
    rfl
  pass_zero world := by
    rw [Scheduler.pass_zero, clockwork.withScheduler_scheduler]
  pass_add first second world := by
    rw [clockwork.scheduler_withScheduler, clockwork.withScheduler_withScheduler,
      Scheduler.pass_add]

/-- Lets a number of seconds pass and runs every task in its turn. -/
def advance (clockwork : Clockwork ω β) (seconds : Nat) (world : ω) : ω :=
  clockwork.timeline.advance seconds world

theorem advance_add (clockwork : Clockwork ω β) (first second : Nat) (world : ω) :
    clockwork.advance (first + second) world =
      clockwork.advance second (clockwork.advance first world) :=
  clockwork.timeline.advance_add first second world

end Clockwork

end SessionServer
