import SessionServer.Proofs.Scheduler.Clock

/-!
Contract: one task for every connection of a set, and nothing else tracked.

Owns:
- `Scheduler.Attends`, a task of a connection that may still run;
- `Scheduler.Staffed`: exactly the connections of a set are tracked, each with its one attendant,
  and no other task may still run for a connection;
- what scheduling, cancelling, passing time and the two ends of a due time make of both.

Does not own: which connections make up the set, and what an attendant does.
-/

namespace SessionServer.Scheduler

variable {β : Type} {scheduler : Scheduler β} {connection closed : ConnectionId} {id : TaskId}
  {task : Task β} {present : ConnectionId → Prop}

/-- The task waits for a connection and may still run. -/
structure Attends (scheduler : Scheduler β) (connection : ConnectionId) (id : TaskId)
    (task : Task β) : Prop where
  found : scheduler.task? id = some task
  timing : task.timing.connection? = some connection
  running : scheduler.isStopped id = false

/-- Exactly the connections that are present are tracked, each with its one attendant. -/
structure Staffed (scheduler : Scheduler β) (present : ConnectionId → Prop) : Prop where
  /-- A number that has not been given out is the number of no task and of no handle. -/
  ahead : ∀ id, scheduler.nextId ≤ id →
    scheduler.task? id = none ∧ scheduler.isStopped id = false
  attended : ∀ connection, present connection → ∃ id task, scheduler.Attends connection id task
  single : ∀ {connection id task}, scheduler.Attends connection id task →
    scheduler.tracked.get? connection = some [id]
  present : ∀ {connection ids}, scheduler.tracked.get? connection = some ids → present connection

theorem Staffed.present_of_attends (staffed : scheduler.Staffed present)
    (attends : scheduler.Attends connection id task) : present connection :=
  staffed.present (staffed.single attends)

/-- Of each connection that is tracked, one task is tracked and it attends to the connection. -/
theorem Staffed.attends_of_tracked (staffed : scheduler.Staffed present) {ids : List TaskId}
    (tracked : scheduler.tracked.get? connection = some ids) :
    ∃ id task, ids = [id] ∧ scheduler.Attends connection id task := by
  obtain ⟨id, task, attends⟩ := staffed.attended connection (staffed.present tracked)
  rw [staffed.single attends] at tracked
  exact ⟨id, task, (Option.some.inj tracked).symm, attends⟩

theorem Staffed.congr (staffed : scheduler.Staffed present) {other : ConnectionId → Prop}
    (same : ∀ connection, other connection ↔ present connection) : scheduler.Staffed other where
  ahead := staffed.ahead
  attended connection isPresent := staffed.attended connection ((same connection).mp isPresent)
  single := staffed.single
  present tracked := (same _).mpr (staffed.present tracked)

theorem staffed_fresh : (fresh : Scheduler β).Staffed fun _ => False where
  ahead _ _ := ⟨rfl, rfl⟩
  attended _ isPresent := isPresent.elim
  single attends := nomatch attends.found
  present tracked := nomatch tracked

/-! ## Scheduling -/

/-- The task as it waits when it has just been scheduled. -/
def newTask (scheduler : Scheduler β) (timing : Timing) (body : β) : Task β where
  id := scheduler.nextId
  timing := timing
  due := timing.firstDelay?.map (scheduler.now + ·)
  body := body

theorem attends_schedule (free : scheduler.task? scheduler.nextId = none)
    (running : scheduler.isStopped scheduler.nextId = false) (timing : Timing) (body : β) :
    (scheduler.schedule timing body).2.Attends connection id task ↔
      scheduler.Attends connection id task ∨ timing.connection? = some connection ∧
        id = scheduler.nextId ∧ task = scheduler.newTask timing body := by
  have found := scheduler.task?_schedule timing body id
  have stopped := scheduler.isStopped_schedule timing body id
  by_cases new : scheduler.nextId = id
  · subst new
    rw [free, Option.none_or, if_pos rfl] at found
    constructor
    · intro attends
      cases found.symm.trans attends.found
      exact .inr ⟨attends.timing, rfl, rfl⟩
    · rintro (attends | ⟨own, -, rfl⟩)
      · exact absurd (free.symm.trans attends.found) (nomatch ·)
      · exact ⟨found, own, stopped.trans running⟩
  · rw [if_neg new, Option.or_none] at found
    constructor
    · intro attends
      exact .inl ⟨found.symm.trans attends.found, attends.timing, stopped.symm.trans attends.running⟩
    · rintro (attends | ⟨-, same, -⟩)
      · exact ⟨found.trans attends.found, attends.timing, stopped.trans attends.running⟩
      · exact absurd same.symm new

/-- A new task joins the attendants if it is the task of a connection that had none. -/
theorem Staffed.schedule (staffed : scheduler.Staffed present) {timing : Timing}
    (absent : ∀ connection, timing.connection? = some connection → ¬present connection)
    (body : β) :
    (scheduler.schedule timing body).2.Staffed
      fun connection => present connection ∨ timing.connection? = some connection := by
  obtain ⟨free, running⟩ := staffed.ahead scheduler.nextId (Nat.le_refl _)
  constructor
  · intro id later
    rw [nextId_schedule] at later
    have apart : scheduler.nextId ≠ id := Nat.ne_of_lt later
    rw [task?_schedule, if_neg apart, Option.or_none, isStopped_schedule]
    exact staffed.ahead id (Nat.le_of_lt later)
  · rintro connection (old | own)
    · obtain ⟨id, task, attends⟩ := staffed.attended connection old
      exact ⟨id, task, (attends_schedule free running timing body).mpr (.inl attends)⟩
    · exact ⟨_, _, (attends_schedule free running timing body).mpr (.inr ⟨own, rfl, rfl⟩)⟩
  · intro connection id task attends
    rw [get?_tracked_schedule]
    rcases (attends_schedule free running timing body).mp attends with old | ⟨own, rfl, -⟩
    · rw [if_neg, staffed.single old]
      exact fun own => absent connection own (staffed.present_of_attends old)
    · have untracked : scheduler.tracked.get? connection = none :=
        Option.eq_none_iff_forall_ne_some.mpr fun _ tracked =>
          absent connection own (staffed.present tracked)
      rw [if_pos own, trackedUnder, untracked]
      rfl
  · intro connection ids tracked
    rw [get?_tracked_schedule] at tracked
    split at tracked
    · next own => exact .inr own
    · exact .inl (staffed.present tracked)

/-! ## Cancelling -/

/-- An attendant is tracked under its own connection only. -/
theorem Staffed.not_mem_trackedUnder (staffed : scheduler.Staffed present)
    (attends : scheduler.Attends connection id task) (apart : connection ≠ closed) :
    id ∉ scheduler.trackedUnder closed := by
  intro member
  unfold trackedUnder at member
  cases tracked : scheduler.tracked.get? closed with
  | none =>
      rw [tracked] at member
      cases member
  | some ids =>
      obtain ⟨other, otherTask, rfl, otherAttends⟩ := staffed.attends_of_tracked tracked
      rw [tracked] at member
      cases List.mem_singleton.mp member
      cases attends.found.symm.trans otherAttends.found
      exact apart (Option.some.inj (attends.timing.symm.trans otherAttends.timing))

theorem Staffed.attends_cancelSession (staffed : scheduler.Staffed present) :
    (scheduler.cancelSession closed).2.Attends connection id task ↔
      scheduler.Attends connection id task ∧ connection ≠ closed := by
  have stopped := scheduler.isStopped_cancelSession closed id
  constructor
  · intro attends
    rw [attends.running] at stopped
    obtain ⟨untracked, running⟩ := Bool.or_eq_false_iff.mp stopped.symm
    have before : scheduler.Attends connection id task := ⟨attends.found, attends.timing, running⟩
    refine ⟨before, ?_⟩
    rintro rfl
    have tracked : scheduler.trackedUnder connection = [id] := by
      rw [trackedUnder, staffed.single before]
      rfl
    rw [tracked, List.contains_iff_mem.mpr (List.mem_singleton_self id)] at untracked
    cases untracked
  · rintro ⟨attends, apart⟩
    have untracked := staffed.not_mem_trackedUnder attends apart
    refine ⟨attends.found, attends.timing, ?_⟩
    rw [stopped, attends.running, Bool.or_false, Bool.eq_false_iff]
    exact fun member => untracked (List.contains_iff_mem.mp member)

theorem Staffed.cancelSession (staffed : scheduler.Staffed present) (closed : ConnectionId) :
    (scheduler.cancelSession closed).2.Staffed
      fun connection => present connection ∧ connection ≠ closed := by
  constructor
  · intro id later
    obtain ⟨missing, running⟩ := staffed.ahead id later
    refine ⟨missing, ?_⟩
    rw [isStopped_cancelSession, running, Bool.or_false, Bool.eq_false_iff]
    intro member
    unfold trackedUnder at member
    cases tracked : scheduler.tracked.get? closed with
    | none =>
        rw [tracked] at member
        cases member
    | some ids =>
        obtain ⟨other, task, rfl, attends⟩ := staffed.attends_of_tracked tracked
        rw [tracked] at member
        cases List.mem_singleton.mp (List.contains_iff_mem.mp member)
        cases missing.symm.trans attends.found
  · rintro connection ⟨isPresent, apart⟩
    obtain ⟨id, task, attends⟩ := staffed.attended connection isPresent
    exact ⟨id, task, staffed.attends_cancelSession.mpr ⟨attends, apart⟩⟩
  · intro connection id task attends
    obtain ⟨before, apart⟩ := staffed.attends_cancelSession.mp attends
    rw [get?_tracked_cancelSession, if_neg (Ne.symm apart), staffed.single before]
  · intro connection ids tracked
    rw [get?_tracked_cancelSession] at tracked
    split at tracked
    · cases tracked
    · next apart => exact ⟨staffed.present tracked, Ne.symm apart⟩

/-! ## Time -/

theorem Staffed.pass (staffed : scheduler.Staffed present) (seconds : Nat) :
    (scheduler.pass seconds).Staffed present where
  ahead := staffed.ahead
  attended connection isPresent := by
    obtain ⟨id, task, attends⟩ := staffed.attended connection isPresent
    exact ⟨id, task, attends.found, attends.timing, attends.running⟩
  single attends := staffed.single ⟨attends.found, attends.timing, attends.running⟩
  present := staffed.present

/-- To retire a task that has been stopped is nothing to the attendants. -/
theorem attends_retire {ended : Task β} (stopped : scheduler.isStopped ended.id = true) :
    (scheduler.retire ended).Attends connection id task ↔ scheduler.Attends connection id task := by
  have found := scheduler.task?_retire ended id
  have stays := scheduler.isStopped_retire ended id
  constructor
  · intro attends
    rw [attends.found] at found
    split at found
    · cases found
    · exact ⟨found.symm, attends.timing, stays.symm.trans attends.running⟩
  · intro attends
    have apart : ¬ended.id = id := by
      rintro rfl
      rw [attends.running] at stopped
      cases stopped
    rw [if_neg apart] at found
    exact ⟨found.trans attends.found, attends.timing, stays.trans attends.running⟩

theorem Staffed.get?_tracked_retire (staffed : scheduler.Staffed present) {ended : Task β}
    (stopped : scheduler.isStopped ended.id = true) (connection : ConnectionId) :
    (scheduler.retire ended).tracked.get? connection = scheduler.tracked.get? connection := by
  rw [Scheduler.get?_tracked_retire]
  split
  · cases tracked : scheduler.tracked.get? connection with
    | none => rfl
    | some ids =>
        obtain ⟨id, task, rfl, attends⟩ := staffed.attends_of_tracked tracked
        have apart : id ≠ ended.id := by
          rintro rfl
          rw [attends.running] at stopped
          cases stopped
        simp [apart]
  · rfl

theorem Staffed.retire (staffed : scheduler.Staffed present) {ended : Task β}
    (stopped : scheduler.isStopped ended.id = true) : (scheduler.retire ended).Staffed present := by
  have tracked := staffed.get?_tracked_retire stopped
  constructor
  · intro id later
    rw [nextId_retire] at later
    obtain ⟨missing, running⟩ := staffed.ahead id later
    rw [task?_retire, isStopped_retire, missing, ite_self]
    exact ⟨rfl, running⟩
  · intro connection isPresent
    obtain ⟨id, task, attends⟩ := staffed.attended connection isPresent
    exact ⟨id, task, (attends_retire stopped).mpr attends⟩
  · intro connection id task attends
    rw [tracked]
    exact staffed.single ((attends_retire stopped).mp attends)
  · intro connection ids still
    rw [tracked] at still
    exact staffed.present still

/-- To arm a task anew moves its due time and nothing else. -/
theorem attends_rearm {armed : TaskId} {period : Nat} :
    (scheduler.rearm armed period).Attends connection id task ↔
      ∃ before, scheduler.Attends connection id before ∧
        task = if armed = id then { before with due := some (scheduler.now + period) }
          else before := by
  have found := scheduler.task?_rearm armed id period
  by_cases own : armed = id
  · simp only [if_pos own] at found ⊢
    constructor
    · intro attends
      obtain ⟨before, was, rfl⟩ := Option.map_eq_some_iff.mp (found.symm.trans attends.found)
      exact ⟨before, ⟨was, attends.timing, attends.running⟩, rfl⟩
    · rintro ⟨before, attends, rfl⟩
      rw [attends.found] at found
      exact ⟨found, attends.timing, attends.running⟩
  · simp only [if_neg own] at found ⊢
    constructor
    · intro attends
      exact ⟨task, ⟨found.symm.trans attends.found, attends.timing, attends.running⟩, rfl⟩
    · rintro ⟨before, attends, rfl⟩
      exact ⟨found.trans attends.found, attends.timing, attends.running⟩

theorem Staffed.rearm (staffed : scheduler.Staffed present) (armed : TaskId) (period : Nat) :
    (scheduler.rearm armed period).Staffed present := by
  constructor
  · intro id later
    obtain ⟨missing, running⟩ := staffed.ahead id later
    rw [task?_rearm, missing, Option.map_none, ite_self]
    exact ⟨rfl, running⟩
  · intro connection isPresent
    obtain ⟨id, task, attends⟩ := staffed.attended connection isPresent
    exact ⟨id, _, attends_rearm.mpr ⟨task, attends, rfl⟩⟩
  · intro connection id task attends
    obtain ⟨before, attended, -⟩ := attends_rearm.mp attends
    exact staffed.single attended
  · exact staffed.present

end SessionServer.Scheduler
