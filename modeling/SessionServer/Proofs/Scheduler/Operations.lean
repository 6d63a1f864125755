import SessionServer.Proofs.Scheduler.Bodies

/-!
Contract: what every operation of a scheduler does to what can be asked of it.

Owns, for each operation, the equations for
- `task?`, the task that waits under a number;
- `isStopped`, whether a task may not run any more;
- the tasks tracked under a connection.

Does not own: what an operation does to the bodies, which is in `Proofs.Scheduler.Bodies`. Where an
operation does not touch a field, the equation holds by definition and is not stated.
-/

namespace SessionServer

namespace Scheduler

variable {β : Type} (scheduler : Scheduler β)

/-- Which tasks wait decides which task waits under a number. -/
theorem task?_congr {scheduler other : Scheduler β} (same : scheduler.tasks = other.tasks)
    (id : TaskId) : scheduler.task? id = other.task? id := by
  unfold task?
  rw [same]

theorem id_of_task? {scheduler : Scheduler β} {id : TaskId} {task : Task β}
    (found : scheduler.task? id = some task) : task.id = id := by
  have chosen := List.find?_some found
  exact of_decide_eq_true chosen

theorem mem_of_task? {scheduler : Scheduler β} {id : TaskId} {task : Task β}
    (found : scheduler.task? id = some task) : task ∈ scheduler.tasks :=
  List.mem_of_find?_eq_some found

/-- The moment for which a waiting task is due is one of the moments. -/
theorem mem_moments {scheduler : Scheduler β} {task : Task β} {moment : Nat}
    (listed : task ∈ scheduler.tasks) (due : task.due = some moment) :
    moment ∈ scheduler.moments :=
  List.mem_filterMap.mpr ⟨task, listed, due⟩

/-! ## Scheduling -/

theorem task?_schedule (timing : Timing) (body : β) (id : TaskId) :
    (scheduler.schedule timing body).2.task? id =
      (scheduler.task? id).or
        (if scheduler.nextId = id then
          some {
            id := scheduler.nextId
            timing
            due := timing.firstDelay?.map (scheduler.now + ·)
            body }
        else none) := by
  rw [task?, tasks_schedule, List.find?_append, List.find?_singleton]
  simp only [task?, decide_eq_true_eq]

theorem nextId_schedule (timing : Timing) (body : β) :
    (scheduler.schedule timing body).2.nextId = scheduler.nextId + 1 := by
  unfold schedule
  cases timing <;> rfl

theorem isStopped_schedule (timing : Timing) (body : β) (id : TaskId) :
    (scheduler.schedule timing body).2.isStopped id = scheduler.isStopped id := by
  unfold schedule
  cases timing <;> rfl

theorem get?_tracked_schedule (timing : Timing) (body : β) (connection : ConnectionId) :
    (scheduler.schedule timing body).2.tracked.get? connection =
      if timing.connection? = some connection then
        some (scheduler.trackedUnder connection ++ [scheduler.nextId])
      else scheduler.tracked.get? connection := by
  unfold schedule
  cases timing with
  | once delay => rfl
  | repeating period => rfl
  | session owner period =>
      have owned : (Timing.session owner period).connection? = some connection ↔
          owner = connection := Option.some_inj
      simp only [owned]
      show (scheduler.tracked.insert owner (scheduler.trackedUnder owner ++
        [scheduler.nextId])).get? connection = _
      rw [OrderedMap.get?_insert]
      split
      · next same => rw [same]
      · rfl

theorem trackedUnder_schedule (timing : Timing) (body : β) (connection : ConnectionId) :
    (scheduler.schedule timing body).2.trackedUnder connection =
      scheduler.trackedUnder connection ++
        if timing.connection? = some connection then [scheduler.nextId] else [] := by
  rw [trackedUnder, get?_tracked_schedule]
  split
  · rfl
  · rw [List.append_nil]
    rfl

theorem mem_trackedUnder_schedule {timing : Timing} {body : β} {connection : ConnectionId}
    {id : TaskId} :
    id ∈ (scheduler.schedule timing body).2.trackedUnder connection ↔
      id ∈ scheduler.trackedUnder connection ∨
        timing.connection? = some connection ∧ id = scheduler.nextId := by
  rw [trackedUnder_schedule, List.mem_append]
  split
  · next own => simp [own]
  · next other => simp [other]

/-! ## Cancelling -/

theorem isStopped_cancel (id other : TaskId) :
    (scheduler.cancel id).isStopped other = (decide (id = other) || scheduler.isStopped other) := by
  show (OrderedMap.contains (OrderedSet.add scheduler.cancelled id) other || _) = _
  rw [OrderedSet.contains_add, Bool.or_assoc]
  rfl

theorem isStopped_cancelSession (connection : ConnectionId) (id : TaskId) :
    (scheduler.cancelSession connection).2.isStopped id =
      ((scheduler.trackedUnder connection).contains id || scheduler.isStopped id) := by
  show (OrderedMap.contains (OrderedSet.addAll scheduler.cancelled _) id || _) = _
  rw [OrderedSet.contains_addAll, Bool.or_assoc]
  rfl

theorem get?_tracked_cancelSession (connection other : ConnectionId) :
    (scheduler.cancelSession connection).2.tracked.get? other =
      if connection = other then none else scheduler.tracked.get? other :=
  OrderedMap.get?_erase scheduler.tracked connection other

theorem trackedUnder_cancelSession (connection other : ConnectionId) :
    (scheduler.cancelSession connection).2.trackedUnder other =
      if connection = other then [] else scheduler.trackedUnder other := by
  rw [trackedUnder, get?_tracked_cancelSession]
  split <;> rfl

theorem mem_trackedUnder_cancelSession {connection other : ConnectionId} {id : TaskId} :
    id ∈ (scheduler.cancelSession connection).2.trackedUnder other ↔
      connection ≠ other ∧ id ∈ scheduler.trackedUnder other := by
  rw [trackedUnder_cancelSession]
  split
  · next same => simp [same]
  · next apart => simp [apart]

theorem isStopped_shutDown (id : TaskId) : scheduler.shutDown.isStopped id = true := by
  show (_ || true) = true
  exact Bool.or_true _

/-! ## Runs -/

theorem get?_tracked_untrack (connection other : ConnectionId) (id : TaskId) :
    (scheduler.untrack connection id).tracked.get? other =
      if connection = other then
        ((scheduler.tracked.get? connection).map (List.filter (· ≠ id))).filter (! ·.isEmpty)
      else scheduler.tracked.get? other := by
  unfold untrack
  cases tracked : scheduler.tracked.get? connection with
  | none =>
      dsimp only
      split
      · next same => rw [← same, tracked]; rfl
      · rfl
  | some ids =>
      dsimp only [Option.map_some]
      cases empty : (ids.filter (· ≠ id)).isEmpty with
      | true =>
          rw [if_pos rfl, OrderedMap.get?_erase, Option.filter_some, empty]
          rfl
      | false =>
          rw [if_neg Bool.false_ne_true, OrderedMap.get?_insert, Option.filter_some, empty]
          rfl

theorem trackedUnder_untrack (connection other : ConnectionId) (id : TaskId) :
    (scheduler.untrack connection id).trackedUnder other =
      if connection = other then (scheduler.trackedUnder other).filter (· ≠ id)
      else scheduler.trackedUnder other := by
  rw [trackedUnder, get?_tracked_untrack]
  split
  · next same =>
      cases same
      rw [trackedUnder]
      cases scheduler.tracked.get? connection with
      | none => rfl
      | some ids =>
          rw [Option.map_some, Option.filter_some, Option.getD_some]
          cases empty : (ids.filter (· ≠ id)).isEmpty with
          | true => exact (List.isEmpty_iff.mp empty).symm
          | false => rfl
  · rfl

/-- To retire a task changes the waiting tasks and the tracking, and nothing else. -/
theorem retire_eq (task : Task β) :
    scheduler.retire task = { scheduler with
      tasks := scheduler.tasks.filter (·.id ≠ task.id)
      tracked := (scheduler.retire task).tracked } := by
  unfold retire untrack
  cases task.timing.connection? with
  | none => rfl
  | some connection => dsimp only; split <;> rfl

theorem now_retire (task : Task β) : (scheduler.retire task).now = scheduler.now :=
  (congrArg now (scheduler.retire_eq task)).trans rfl

theorem nextId_retire (task : Task β) : (scheduler.retire task).nextId = scheduler.nextId :=
  (congrArg nextId (scheduler.retire_eq task)).trans rfl

theorem isStopped_retire (task : Task β) (id : TaskId) :
    (scheduler.retire task).isStopped id = scheduler.isStopped id :=
  (congrArg (isStopped · id) (scheduler.retire_eq task)).trans rfl

theorem tasks_retire (task : Task β) :
    (scheduler.retire task).tasks = scheduler.tasks.filter (·.id ≠ task.id) :=
  (congrArg tasks (scheduler.retire_eq task)).trans rfl

theorem task?_retire (task : Task β) (id : TaskId) :
    (scheduler.retire task).task? id = if task.id = id then none else scheduler.task? id := by
  rw [task?, tasks_retire, List.find?_filter]
  split
  · next same =>
      rw [List.find?_eq_none]
      intro other _
      simp [same]
  · next apart =>
      apply congrArg (List.find? · scheduler.tasks)
      funext other
      by_cases hit : other.id = id
      · simp [hit, Ne.symm apart]
      · simp [hit]

theorem get?_tracked_retire (task : Task β) (connection : ConnectionId) :
    (scheduler.retire task).tracked.get? connection =
      if task.timing.connection? = some connection then
        ((scheduler.tracked.get? connection).map (List.filter (· ≠ task.id))).filter (! ·.isEmpty)
      else scheduler.tracked.get? connection := by
  unfold retire
  cases task.timing.connection? with
  | none => rfl
  | some owner =>
      dsimp only
      rw [get?_tracked_untrack]
      simp only [Option.some.injEq]
      split
      · next same => rw [same]
      · rfl

theorem trackedUnder_retire (task : Task β) (connection : ConnectionId) :
    (scheduler.retire task).trackedUnder connection =
      if task.timing.connection? = some connection then
        (scheduler.trackedUnder connection).filter (· ≠ task.id)
      else scheduler.trackedUnder connection := by
  unfold retire
  cases task.timing.connection? with
  | none => rfl
  | some owner =>
      dsimp only
      rw [trackedUnder_untrack]
      simp only [Option.some.injEq]
      rfl

theorem mem_trackedUnder_retire {task : Task β} {connection : ConnectionId} {id : TaskId} :
    id ∈ (scheduler.retire task).trackedUnder connection ↔
      id ∈ scheduler.trackedUnder connection ∧
        ¬(task.timing.connection? = some connection ∧ id = task.id) := by
  rw [trackedUnder_retire]
  split
  · next own => simp [own]
  · next other => simp [other]

theorem task?_rearm (id other : TaskId) (period : Nat) :
    (scheduler.rearm id period).task? other =
      if id = other then
        (scheduler.task? other).map fun task =>
          { task with due := some (scheduler.now + period) }
      else scheduler.task? other := by
  unfold task? rearm
  rw [List.find?_map]
  have kept : ((fun task : Task β => decide (task.id = other)) ∘ fun task =>
      if task.id = id then { task with due := some (scheduler.now + period) } else task) =
      fun task => decide (task.id = other) := by
    funext task
    dsimp only [Function.comp_apply]
    split <;> rfl
  rw [kept]
  cases found : scheduler.tasks.find? fun task => decide (task.id = other) with
  | none => split <;> rfl
  | some task =>
      have same : task.id = other := id_of_task? found
      rw [Option.map_some]
      by_cases hit : id = other
      · rw [if_pos hit, if_pos (same.trans hit.symm), Option.map_some]
      · rw [if_neg hit, if_neg (fun other => hit (other.symm.trans same))]

/-- A run is followed by the end of the task, or the task wants and may run again. -/
theorem finish_cases (task : Task β) (ending : Ending) :
    scheduler.finish task ending = scheduler.retire task ∧
        (task.timing.period? = none ∨ ending ≠ .again ∨ scheduler.isStopped task.id = true) ∨
      ∃ period, task.timing.period? = some period ∧ ending = .again ∧
        scheduler.isStopped task.id = false ∧
        scheduler.finish task ending = scheduler.rearm task.id period := by
  unfold finish
  cases period : task.timing.period? with
  | none => exact .inl ⟨rfl, .inl rfl⟩
  | some seconds =>
      dsimp only
      split
      · next wanted => exact .inr ⟨seconds, rfl, wanted.1, wanted.2, rfl⟩
      · next refused =>
          refine .inl ⟨rfl, .inr ?_⟩
          rwa [Classical.not_and_iff_not_or_not, Bool.not_eq_false] at refused

/-- A run that ends so is the last one of its task. -/
def isLast (scheduler : Scheduler β) (ending : Ending) (task : Task β) : Bool :=
  task.timing.period? = none || ending ≠ .again || scheduler.isStopped task.id

theorem finish_of_last {task : Task β} {ending : Ending}
    (last : scheduler.isLast ending task = true) :
    scheduler.finish task ending = scheduler.retire task := by
  rcases scheduler.finish_cases task ending with ⟨retired, -⟩ | ⟨period, periodic, rfl, runs, -⟩
  · exact retired
  · simp [isLast, periodic, runs] at last

theorem finish_of_not_last {task : Task β} {ending : Ending}
    (goesOn : scheduler.isLast ending task = false) :
    ∃ period, task.timing.period? = some period ∧
      scheduler.finish task ending = scheduler.rearm task.id period := by
  rcases scheduler.finish_cases task ending with ⟨-, reason⟩ | ⟨period, periodic, -, -, rearmed⟩
  · simp only [isLast, Bool.or_eq_false_iff, decide_eq_false_iff_not] at goesOn
    obtain ⟨⟨periodic, wanted⟩, runs⟩ := goesOn
    rcases reason with single | refused | stopped
    · exact absurd single periodic
    · exact absurd refused wanted
    · rw [runs] at stopped
      cases stopped
  · exact ⟨period, periodic, rearmed⟩

end Scheduler

end SessionServer
