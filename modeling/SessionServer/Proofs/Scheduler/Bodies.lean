import SessionServer.Scheduler.Clockwork

/-!
Contract: no operation of a scheduler makes up the body of a task.

Owns:
- `Scheduler.Each`, a property of the bodies of all waiting tasks, and the proofs that it is kept
  by every operation as long as the bodies that are scheduled have it;
- `Clockwork.fire_cases`, what can become of a world when the due time of a task has come.
-/

namespace SessionServer

namespace Scheduler

variable {β : Type} {property : β → Prop} {scheduler : Scheduler β}

/-- The bodies of all waiting tasks have the property. -/
def Each (property : β → Prop) (scheduler : Scheduler β) : Prop :=
  ∀ task ∈ scheduler.tasks, property task.body

/-! ## Scheduling and cancelling -/

theorem tasks_schedule (timing : Timing) (body : β) :
    (scheduler.schedule timing body).2.tasks =
      scheduler.tasks ++ [{
        id := scheduler.nextId
        timing
        due := timing.firstDelay?.map (scheduler.now + ·)
        body }] := by
  unfold schedule
  cases timing <;> rfl

theorem now_schedule (timing : Timing) (body : β) :
    (scheduler.schedule timing body).2.now = scheduler.now := by
  unfold schedule
  cases timing <;> rfl

theorem Each.schedule (each : scheduler.Each property) (timing : Timing) {body : β}
    (has : property body) : (scheduler.schedule timing body).2.Each property := by
  intro task member
  rw [tasks_schedule] at member
  rcases List.mem_append.mp member with earlier | new
  · exact each task earlier
  · rw [List.mem_singleton.mp new]
    exact has

theorem Each.refuse (each : scheduler.Each property) : scheduler.refuse.2.Each property :=
  each

theorem Each.cancel (each : scheduler.Each property) (id : TaskId) :
    (scheduler.cancel id).Each property :=
  each

theorem Each.cancelSession (each : scheduler.Each property) (connection : ConnectionId) :
    (scheduler.cancelSession connection).2.Each property :=
  each

theorem Each.pass (each : scheduler.Each property) (seconds : Nat) :
    (scheduler.pass seconds).Each property :=
  each

/-! ## Runs -/

theorem Each.retire (each : scheduler.Each property) (task : Task β) :
    (scheduler.retire task).Each property := by
  have kept : (scheduler.retire task).tasks = scheduler.tasks.filter (·.id ≠ task.id) := by
    unfold Scheduler.retire
    dsimp only
    split
    · rfl
    · unfold untrack
      split <;> rfl
  intro other member
  rw [kept] at member
  exact each other (List.mem_filter.mp member).1

theorem Each.rearm (each : scheduler.Each property) (id : TaskId) (period : Nat) :
    (scheduler.rearm id period).Each property := by
  intro task member
  obtain ⟨original, listed, rfl⟩ := List.mem_map.mp member
  split
  · exact each original listed
  · exact each original listed

theorem Each.finish (each : scheduler.Each property) (task : Task β) (ending : Ending) :
    (scheduler.finish task ending).Each property := by
  unfold Scheduler.finish
  split
  · exact each.retire task
  · split
    · exact each.rearm task.id _
    · exact each.retire task

end Scheduler

/-! ## Due times -/

namespace Clockwork

variable {ω β : Type} (clockwork : Clockwork ω β) {world : ω} {id : TaskId} {task : Task β}

theorem fire_of_missing (missing : (clockwork.scheduler world).task? id = none) :
    clockwork.fire world id = world := by
  unfold fire
  rw [missing]

theorem fire_of_stopped (found : (clockwork.scheduler world).task? id = some task)
    (stopped : (clockwork.scheduler world).isStopped task.id = true) :
    clockwork.fire world id =
      clockwork.withScheduler world ((clockwork.scheduler world).retire task) := by
  unfold fire
  rw [found]
  dsimp only [Scheduler.start?]
  rw [if_pos stopped]

theorem fire_of_running (found : (clockwork.scheduler world).task? id = some task)
    (running : (clockwork.scheduler world).isStopped task.id = false) :
    clockwork.fire world id =
      clockwork.withScheduler (clockwork.perform id task.body world).2
        ((clockwork.scheduler (clockwork.perform id task.body world).2).finish task
          (clockwork.perform id task.body world).1) := by
  unfold fire
  rw [found]
  dsimp only [Scheduler.start?]
  rw [if_neg (Bool.eq_false_iff.mp running)]

/-- At its due time a task is gone, or is retired without a run, or runs to its end. -/
theorem fire_cases (world : ω) (id : TaskId) :
    clockwork.fire world id = world ∨
      ∃ task ∈ (clockwork.scheduler world).tasks,
        clockwork.fire world id =
            clockwork.withScheduler world ((clockwork.scheduler world).retire task) ∨
          clockwork.fire world id =
            clockwork.withScheduler (clockwork.perform id task.body world).2
              ((clockwork.scheduler (clockwork.perform id task.body world).2).finish task
                (clockwork.perform id task.body world).1) := by
  cases found : (clockwork.scheduler world).task? id with
  | none => exact .inl (clockwork.fire_of_missing found)
  | some task =>
      refine .inr ⟨task, List.mem_of_find?_eq_some found, ?_⟩
      cases stopped : (clockwork.scheduler world).isStopped task.id with
      | true => exact .inl (clockwork.fire_of_stopped found stopped)
      | false => exact .inr (clockwork.fire_of_running found stopped)

end Clockwork

end SessionServer
