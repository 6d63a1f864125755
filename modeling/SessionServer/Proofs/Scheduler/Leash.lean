import SessionServer.Proofs.Scheduler.Operations

/-!
Contract: tasks of connections that are present, and of no others.

Owns:
- `Scheduler.Leashed`: only connections of a set are tracked, and every waiting task of a connection
  is tracked under it or may not run any more;
- what every operation of a scheduler makes of it.

Does not own: which connections are present. Any number of tasks may be tracked under one, and the
handle of a task may be used to cancel it at any time.
-/

namespace SessionServer.Scheduler

variable {β : Type} {scheduler : Scheduler β} {present : ConnectionId → Prop}

/-- Only connections that are present have tasks which may still run. -/
structure Leashed (scheduler : Scheduler β) (present : ConnectionId → Prop) : Prop where
  present : ∀ {connection ids}, scheduler.tracked.get? connection = some ids → present connection
  tracked : ∀ {task connection}, task ∈ scheduler.tasks →
    task.timing.connection? = some connection → scheduler.isStopped task.id = false →
      task.id ∈ scheduler.trackedUnder connection

/-- A task that may run belongs to a connection that is present. -/
theorem Leashed.present_of_running (leashed : scheduler.Leashed present) {task : Task β}
    {connection : ConnectionId} (listed : task ∈ scheduler.tasks)
    (timing : task.timing.connection? = some connection)
    (running : scheduler.isStopped task.id = false) : present connection := by
  have member := leashed.tracked listed timing running
  unfold trackedUnder at member
  cases tracked : scheduler.tracked.get? connection with
  | none =>
      rw [tracked] at member
      cases member
  | some ids => exact leashed.present tracked

theorem Leashed.mono (leashed : scheduler.Leashed present) {more : ConnectionId → Prop}
    (grows : ∀ connection, present connection → more connection) : scheduler.Leashed more :=
  ⟨fun tracked => grows _ (leashed.present tracked), leashed.tracked⟩

theorem leashed_fresh : (fresh : Scheduler β).Leashed present where
  present tracked := nomatch tracked
  tracked listed := nomatch listed

/-- Where a task may not run any more, it does not matter what is tracked. -/
theorem Leashed.of_stopped {other : Scheduler β} (leashed : scheduler.Leashed present)
    (tasks : other.tasks = scheduler.tasks) (tracked : other.tracked = scheduler.tracked)
    (stops : ∀ id, scheduler.isStopped id = true → other.isStopped id = true) :
    other.Leashed present := by
  refine ⟨?_, ?_⟩
  · intro connection ids
    rw [tracked]
    exact leashed.present
  · intro task connection listed timing running
    have before : scheduler.isStopped task.id = false := by
      rw [← Bool.not_eq_true]
      intro stopped
      rw [stops _ stopped] at running
      cases running
    unfold trackedUnder
    rw [tracked]
    exact leashed.tracked (tasks ▸ listed) timing before

/-! ## Scheduling and cancelling -/

theorem Leashed.schedule (leashed : scheduler.Leashed present) {timing : Timing}
    (allowed : ∀ connection, timing.connection? = some connection → present connection)
    (body : β) : (scheduler.schedule timing body).2.Leashed present := by
  refine ⟨?_, ?_⟩
  · intro connection ids tracked
    rw [get?_tracked_schedule] at tracked
    split at tracked
    · next own => exact allowed connection own
    · exact leashed.present tracked
  · intro task connection listed owner running
    rw [tasks_schedule] at listed
    rw [isStopped_schedule] at running
    rw [mem_trackedUnder_schedule]
    rcases List.mem_append.mp listed with old | new
    · exact .inl (leashed.tracked old owner running)
    · obtain rfl := List.mem_singleton.mp new
      exact .inr ⟨owner, rfl⟩

theorem Leashed.cancel (leashed : scheduler.Leashed present) (id : TaskId) :
    (scheduler.cancel id).Leashed present := by
  refine leashed.of_stopped rfl rfl ?_
  intro other stopped
  rw [isStopped_cancel, stopped, Bool.or_true]

theorem Leashed.refuse (leashed : scheduler.Leashed present) :
    scheduler.refuse.2.Leashed present := by
  have counted : { scheduler with nextId := scheduler.nextId + 1 }.Leashed present :=
    ⟨leashed.present, leashed.tracked⟩
  exact counted.cancel scheduler.nextId

/-- When the tasks of a connection are cancelled, it is tracked no more. -/
theorem Leashed.cancelSession (leashed : scheduler.Leashed present) (closed : ConnectionId) :
    (scheduler.cancelSession closed).2.Leashed
      fun connection => present connection ∧ connection ≠ closed := by
  refine ⟨?_, ?_⟩
  · intro connection ids tracked
    rw [get?_tracked_cancelSession] at tracked
    split at tracked
    · cases tracked
    · next apart => exact ⟨leashed.present tracked, Ne.symm apart⟩
  · intro task connection listed timing running
    rw [isStopped_cancelSession, Bool.or_eq_false_iff, List.contains_eq_mem,
      decide_eq_false_iff_not] at running
    have member := leashed.tracked listed timing running.2
    rw [mem_trackedUnder_cancelSession]
    refine ⟨?_, member⟩
    rintro rfl
    exact running.1 member

theorem leashed_shutDown (scheduler : Scheduler β) : scheduler.shutDown.Leashed present where
  present tracked := nomatch tracked
  tracked _ _ running := by
    rw [isStopped_shutDown] at running
    cases running

theorem Leashed.pass (leashed : scheduler.Leashed present) (seconds : Nat) :
    (scheduler.pass seconds).Leashed present :=
  leashed.of_stopped rfl rfl fun _ stopped => stopped

/-! ## Runs -/

/-- What is tracked after a task is retired has been tracked before. -/
theorem exists_tracked_of_retire {task : Task β} {connection : ConnectionId} {ids : List TaskId}
    (tracked : (scheduler.retire task).tracked.get? connection = some ids) :
    ∃ before, scheduler.tracked.get? connection = some before := by
  rw [get?_tracked_retire] at tracked
  split at tracked
  · obtain ⟨before, known, -⟩ :=
      Option.map_eq_some_iff.mp (Option.filter_eq_some_iff.mp tracked).1
    exact ⟨before, known⟩
  · exact ⟨ids, tracked⟩

theorem Leashed.retire (leashed : scheduler.Leashed present) (ended : Task β) :
    (scheduler.retire ended).Leashed present := by
  refine ⟨?_, ?_⟩
  · intro connection ids tracked
    obtain ⟨before, known⟩ := exists_tracked_of_retire tracked
    exact leashed.present known
  · intro task connection listed timing running
    rw [tasks_retire] at listed
    obtain ⟨known, apart⟩ := List.mem_filter.mp listed
    rw [isStopped_retire] at running
    rw [mem_trackedUnder_retire]
    refine ⟨leashed.tracked known timing running, ?_⟩
    rintro ⟨-, same⟩
    exact of_decide_eq_true apart same

theorem Leashed.rearm (leashed : scheduler.Leashed present) (armed : TaskId) (period : Nat) :
    (scheduler.rearm armed period).Leashed present := by
  refine ⟨leashed.present, ?_⟩
  intro task connection listed timing running
  obtain ⟨before, known, rfl⟩ := List.mem_map.mp listed
  have kept : before.timing.connection? = some connection →
      scheduler.isStopped before.id = false → before.id ∈ scheduler.trackedUnder connection :=
    leashed.tracked known
  by_cases hit : before.id = armed
  · rw [if_pos hit] at timing running ⊢
    exact kept timing running
  · rw [if_neg hit] at timing running ⊢
    exact kept timing running

theorem Leashed.finish (leashed : scheduler.Leashed present) (task : Task β) (ending : Ending) :
    (scheduler.finish task ending).Leashed present := by
  rcases scheduler.finish_cases task ending with ⟨retired, -⟩ | ⟨period, -, -, -, rearmed⟩
  · rw [retired]
    exact leashed.retire task
  · rw [rearmed]
    exact leashed.rearm task.id period

end SessionServer.Scheduler
