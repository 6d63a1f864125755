import SessionServer.Proofs.Scheduler.Operations

/-!
Contract: the time that a clockwork lets pass, taken apart into single steps that keep to the rule
of the clock.

Owns:
- the rule: `Scheduler.IsDue`, the due time of a task has come, and `Scheduler.MayPass`, no due time
  is passed over;
- `Clockwork.Reaches`, from world to world by steps that keep to it;
- `Clockwork.Modest`, bodies that leave the clock and the waiting tasks alone;
- `Clockwork.reaches_advance`: of modest bodies every task that falls due is fired, each at its due
  time, and then time goes on.

Bodies that schedule further tasks for the present moment may keep it from passing and are left out.
-/

namespace SessionServer

/-! ## The rule of the clock -/

namespace Scheduler

variable {β : Type} (scheduler : Scheduler β)

/-- The task waits, and its due time is now. -/
def IsDue (id : TaskId) : Prop := (scheduler.task? id).bind Task.due = some scheduler.now

/-- No task is due within less than so many seconds. -/
def MayPass (seconds : Nat) : Prop := ∀ moment ∈ scheduler.moments, scheduler.now + seconds ≤ moment

instance (id : TaskId) : Decidable (scheduler.IsDue id) :=
  inferInstanceAs (Decidable (_ = _))

instance (seconds : Nat) : Decidable (scheduler.MayPass seconds) :=
  inferInstanceAs (Decidable (∀ moment ∈ scheduler.moments, scheduler.now + seconds ≤ moment))

/-- Nothing is due now or earlier. -/
def Settled : Prop := ∀ moment ∈ scheduler.moments, scheduler.now < moment

/-- What scheduling keeps of the waiting tasks: each has a number of its own, and only tasks with a
positive period have a next run after the one that is due. -/
structure Regular : Prop where
  distinct : scheduler.tasks.Pairwise (·.id ≠ ·.id)
  positive : ∀ task ∈ scheduler.tasks, ∀ moment, task.due = some moment →
    task.timing.period? ≠ some 0

variable {scheduler} {task : Task β}

theorem Regular.task?_eq (regular : scheduler.Regular) (listed : task ∈ scheduler.tasks) :
    scheduler.task? task.id = some task := by
  have distinct := regular.distinct
  unfold task?
  generalize scheduler.tasks = tasks at listed distinct ⊢
  induction tasks with
  | nil => cases listed
  | cons first rest inductionHypothesis =>
      obtain ⟨apart, others⟩ := List.pairwise_cons.mp distinct
      rcases List.mem_cons.mp listed with rfl | later
      · exact List.find?_cons_of_pos (decide_eq_true rfl)
      · rw [List.find?_cons_of_neg (by simpa using apart task later)]
        exact inductionHypothesis later others

theorem Regular.schedule (regular : scheduler.Regular)
    (free : scheduler.task? scheduler.nextId = none) (timing : Timing) (body : β) :
    (scheduler.schedule timing body).2.Regular := by
  refine ⟨?_, ?_⟩
  · rw [tasks_schedule]
    refine List.pairwise_append.mpr ⟨regular.distinct, List.pairwise_singleton _ _, ?_⟩
    intro task listed new member same
    rw [List.mem_singleton.mp member] at same
    have found := regular.task?_eq listed
    rw [same, free] at found
    cases found
  · intro task member moment due
    rw [tasks_schedule] at member
    rcases List.mem_append.mp member with listed | new
    · exact regular.positive task listed moment due
    · rw [List.mem_singleton.mp new] at due ⊢
      cases timing with
      | once delay => nofun
      | repeating period | session connection period =>
          rintro zero
          cases zero
          cases due

/-- What is due after scheduling was due before, or is the first run of the new task. -/
theorem mem_moments_schedule {timing : Timing} {body : β} {moment : Nat}
    (member : moment ∈ (scheduler.schedule timing body).2.moments) :
    moment ∈ scheduler.moments ∨
      ∃ delay, timing.firstDelay? = some delay ∧ moment = scheduler.now + delay := by
  obtain ⟨task, listed, due⟩ := List.mem_filterMap.mp member
  rw [tasks_schedule] at listed
  rcases List.mem_append.mp listed with old | new
  · exact .inl (mem_moments old due)
  · rw [List.mem_singleton.mp new] at due
    obtain ⟨delay, first, same⟩ := Option.map_eq_some_iff.mp due
    exact .inr ⟨delay, first, same.symm⟩

/-- A task that has just been scheduled is not overdue. -/
theorem Settled.schedule (settled : scheduler.Settled) (timing : Timing) (body : β) :
    (scheduler.schedule timing body).2.MayPass 0 := by
  intro moment member
  rw [now_schedule]
  rcases mem_moments_schedule member with old | ⟨delay, -, rfl⟩
  · exact Nat.le_of_lt (settled moment old)
  · exact Nat.le_add_right _ _

/-- The first run of a task with a period lies ahead. -/
theorem Settled.schedule_periodic (settled : scheduler.Settled) {timing : Timing}
    (periodic : timing.period? ≠ none) (body : β) :
    (scheduler.schedule timing body).2.Settled := by
  intro moment member
  rw [now_schedule]
  rcases mem_moments_schedule member with old | ⟨delay, first, rfl⟩
  · exact settled moment old
  · cases timing with
    | once delay => exact absurd rfl periodic
    | repeating period | session connection period =>
        simp only [Timing.firstDelay?] at first
        split at first
        · cases first
        · next positive =>
            cases first
            exact Nat.lt_add_of_pos_right (Nat.pos_of_ne_zero positive)

theorem Regular.retire (regular : scheduler.Regular) (task : Task β) :
    (scheduler.retire task).Regular := by
  refine ⟨?_, ?_⟩
  · rw [tasks_retire]
    exact regular.distinct.filter _
  · intro other member
    rw [tasks_retire] at member
    exact regular.positive other (List.mem_filter.mp member).1

theorem Regular.rearm (regular : scheduler.Regular) (found : scheduler.task? task.id = some task)
    {period : Nat} (periodic : task.timing.period? = some period) (positive : period ≠ 0) :
    (scheduler.rearm task.id period).Regular := by
  refine ⟨?_, ?_⟩
  · apply List.Pairwise.map _ _ regular.distinct
    intro first second apart
    split <;> split <;> exact apart
  · intro other member moment due
    obtain ⟨original, listed, rfl⟩ := List.mem_map.mp member
    split at due
    · next same =>
        have sought := regular.task?_eq listed
        rw [same, found] at sought
        cases sought
        rw [if_pos rfl, periodic]
        exact fun zero => positive (Option.some.inj zero)
    · next other =>
        rw [if_neg other]
        exact regular.positive original listed moment due

end Scheduler

namespace Clockwork

variable {ω β : Type}

/-- From world to world by time that passes and tasks whose time has come, in keeping with the rule
of the clock. -/
inductive Reaches (clockwork : Clockwork ω β) : ω → ω → Prop where
  | refl (world : ω) : clockwork.Reaches world world
  | pass {world later : ω} (seconds : Nat)
      (mayPass : (clockwork.scheduler world).MayPass seconds)
      (next : clockwork.Reaches (clockwork.timeline.pass seconds world) later) :
      clockwork.Reaches world later
  | fire {world later : ω} (id : TaskId) (isDue : (clockwork.scheduler world).IsDue id)
      (next : clockwork.Reaches (clockwork.fire world id) later) : clockwork.Reaches world later

theorem Reaches.trans {clockwork : Clockwork ω β} {first second third : ω}
    (reaches : clockwork.Reaches first second) (next : clockwork.Reaches second third) :
    clockwork.Reaches first third := by
  induction reaches with
  | refl => exact next
  | pass seconds mayPass _ inductionHypothesis =>
      exact .pass seconds mayPass (inductionHypothesis next)
  | fire id isDue _ inductionHypothesis => exact .fire id isDue (inductionHypothesis next)

/-- The bodies with the property leave the clock and the waiting tasks alone. -/
structure Modest (clockwork : Clockwork ω β) (property : β → Prop) : Prop where
  tasks : ∀ id body world, property body →
    (clockwork.scheduler (clockwork.perform id body world).2).tasks =
      (clockwork.scheduler world).tasks
  now : ∀ id body world, property body →
    (clockwork.scheduler (clockwork.perform id body world).2).now = (clockwork.scheduler world).now

/-- What is kept while time passes. -/
structure Steady (clockwork : Clockwork ω β) (property : β → Prop) (world : ω) : Prop where
  regular : (clockwork.scheduler world).Regular
  bodies : (clockwork.scheduler world).Each property

/-- The due time of a task has come and gone: the other tasks are as they were, and the task itself is
due later if it waits again. -/
structure Served (before after : Scheduler β) (id : TaskId) : Prop where
  now : after.now = before.now
  others : ∀ other, other ≠ id → after.task? other = before.task? other
  tasks : ∀ task ∈ after.tasks, task ∈ before.tasks ∧ task.id ≠ id ∨
    ∀ moment, task.due = some moment → before.now < moment
  regular : after.Regular
  bodies : ∀ property, before.Each property → after.Each property

section Advance

variable {clockwork : Clockwork ω β} {property : β → Prop} {world : ω} {id : TaskId}

theorem served_retire {scheduler : Scheduler β} (regular : scheduler.Regular) (task : Task β) :
    Served scheduler (scheduler.retire task) task.id where
  now := scheduler.now_retire task
  others other apart := by rw [scheduler.task?_retire, if_neg (Ne.symm apart)]
  tasks kept member := by
    rw [scheduler.tasks_retire] at member
    obtain ⟨listed, apart⟩ := List.mem_filter.mp member
    exact .inl ⟨listed, of_decide_eq_true apart⟩
  regular := regular.retire task
  bodies _ each := each.retire task

theorem served_rearm {scheduler : Scheduler β} (regular : scheduler.Regular) {task : Task β}
    (found : scheduler.task? task.id = some task) {period : Nat}
    (periodic : task.timing.period? = some period) (positive : period ≠ 0) :
    Served scheduler (scheduler.rearm task.id period) task.id where
  now := rfl
  others other apart := by rw [scheduler.task?_rearm, if_neg (Ne.symm apart)]
  tasks kept member := by
    obtain ⟨original, listed, rfl⟩ := List.mem_map.mp member
    split
    · refine .inr ?_
      intro moment due
      cases due
      exact Nat.lt_add_of_pos_right (Nat.pos_of_ne_zero positive)
    · next apart => exact .inl ⟨listed, apart⟩
  regular := regular.rearm found periodic positive
  bodies _ each := each.rearm task.id period

/-- The due time of a task with a modest body. -/
theorem Steady.served (steady : clockwork.Steady property world)
    (modest : clockwork.Modest property) (isDue : (clockwork.scheduler world).IsDue id) :
    Served (clockwork.scheduler world) (clockwork.scheduler (clockwork.fire world id)) id := by
  obtain ⟨task, found, due⟩ := Option.bind_eq_some_iff.mp isDue
  have listed := Scheduler.mem_of_task? found
  obtain rfl := Scheduler.id_of_task? found
  cases stopped : (clockwork.scheduler world).isStopped task.id with
  | true =>
      rw [clockwork.fire_of_stopped found stopped, clockwork.scheduler_withScheduler]
      exact served_retire steady.regular task
  | false =>
      have sameTasks := modest.tasks task.id task.body world (steady.bodies task listed)
      have sameNow := modest.now task.id task.body world (steady.bodies task listed)
      rw [clockwork.fire_of_running found stopped, clockwork.scheduler_withScheduler]
      generalize clockwork.scheduler (clockwork.perform task.id task.body world).2 = ran
        at sameTasks sameNow ⊢
      have regular : ran.Regular := by
        constructor
        · exact sameTasks ▸ steady.regular.distinct
        · exact sameTasks ▸ steady.regular.positive
      have stillFound : ran.task? task.id = some task :=
        (Scheduler.task?_congr sameTasks task.id).trans found
      have served : Served ran (ran.finish task (clockwork.perform task.id task.body world).1)
          task.id := by
        rcases ran.finish_cases task (clockwork.perform task.id task.body world).1 with
          ⟨retired, -⟩ | ⟨period, periodic, -, -, rearmed⟩
        · rw [retired]
          exact served_retire regular task
        · rw [rearmed]
          have positive : period ≠ 0 := by
            rintro rfl
            exact steady.regular.positive task listed _ due periodic
          exact served_rearm regular stillFound periodic positive
      refine ⟨served.now.trans sameNow, ?_, ?_, served.regular, ?_⟩
      · intro other apart
        rw [served.others other apart, Scheduler.task?_congr sameTasks]
      · rw [← sameTasks, ← sameNow]
        exact served.tasks
      · intro kept each
        apply served.bodies
        unfold Scheduler.Each
        rwa [sameTasks]

theorem Steady.fire (steady : clockwork.Steady property world) (modest : clockwork.Modest property)
    (isDue : (clockwork.scheduler world).IsDue id) :
    clockwork.Steady property (clockwork.fire world id) where
  regular := (steady.served modest isDue).regular
  bodies := (steady.served modest isDue).bodies property steady.bodies

theorem Steady.pass (steady : clockwork.Steady property world) (seconds : Nat) :
    clockwork.Steady property (clockwork.timeline.pass seconds world) := by
  constructor
  · rw [show clockwork.timeline.pass seconds world = clockwork.withScheduler world
      ((clockwork.scheduler world).pass seconds) from rfl, clockwork.scheduler_withScheduler]
    exact ⟨steady.regular.distinct, steady.regular.positive⟩
  · rw [show clockwork.timeline.pass seconds world = clockwork.withScheduler world
      ((clockwork.scheduler world).pass seconds) from rfl, clockwork.scheduler_withScheduler]
    exact steady.bodies.pass seconds

/-! ## One moment -/

/-- Firing the tasks that are due, each once, leaves nothing that is due. -/
theorem reaches_foldl_fire (modest : clockwork.Modest property) {ids : List TaskId}
    (steady : clockwork.Steady property world) (once : ids.Nodup)
    (due : ∀ id ∈ ids, (clockwork.scheduler world).IsDue id)
    (complete : ∀ task ∈ (clockwork.scheduler world).tasks, ∀ moment, task.due = some moment →
      (clockwork.scheduler world).now < moment ∨ task.id ∈ ids) :
    clockwork.Reaches world (ids.foldl clockwork.fire world) ∧
      clockwork.Steady property (ids.foldl clockwork.fire world) ∧
      (clockwork.scheduler (ids.foldl clockwork.fire world)).Settled := by
  induction ids generalizing world with
  | nil =>
      refine ⟨.refl world, steady, ?_⟩
      intro moment member
      obtain ⟨task, listed, due⟩ := List.mem_filterMap.mp member
      exact (complete task listed moment due).resolve_right (fun none => nomatch none)
  | cons id rest inductionHypothesis =>
      obtain ⟨single, others⟩ := List.nodup_cons.mp once
      have isDue := due id List.mem_cons_self
      have served := steady.served modest isDue
      have dueLater : ∀ other ∈ rest, (clockwork.scheduler (clockwork.fire world id)).IsDue other := by
        intro other member
        have apart : other ≠ id := fun same => single (same ▸ member)
        unfold Scheduler.IsDue
        rw [served.others other apart, served.now]
        exact due other (List.mem_cons_of_mem id member)
      have completeLater : ∀ task ∈ (clockwork.scheduler (clockwork.fire world id)).tasks,
          ∀ moment, task.due = some moment →
            (clockwork.scheduler (clockwork.fire world id)).now < moment ∨ task.id ∈ rest := by
        intro task listed moment dueAt
        rw [served.now]
        rcases served.tasks task listed with ⟨before, apart⟩ | later
        · exact (complete task before moment dueAt).imp_right
            fun member => (List.mem_cons.mp member).resolve_left apart
        · exact .inl (later moment dueAt)
      obtain ⟨reaches, result⟩ :=
        inductionHypothesis (steady.fire modest isDue) others dueLater completeLater
      exact ⟨.fire id isDue reaches, result⟩

theorem mem_dueNow {scheduler : Scheduler β} {id : TaskId} :
    id ∈ scheduler.dueNow ↔
      ∃ task ∈ scheduler.tasks, task.due = some scheduler.now ∧ task.id = id := by
  unfold Scheduler.dueNow
  simp only [List.mem_map, List.mem_filter, decide_eq_true_eq, and_assoc]

theorem reaches_round (modest : clockwork.Modest property)
    (steady : clockwork.Steady property world)
    (current : (clockwork.scheduler world).MayPass 0) :
    clockwork.Reaches world (clockwork.round world) ∧
      clockwork.Steady property (clockwork.round world) ∧
      (clockwork.scheduler (clockwork.round world)).Settled := by
  apply reaches_foldl_fire modest steady
  · unfold Scheduler.dueNow
    exact (steady.regular.distinct.filter _).map Task.id fun _ _ apart => apart
  · intro id member
    obtain ⟨task, listed, due, rfl⟩ := mem_dueNow.mp member
    unfold Scheduler.IsDue
    rw [steady.regular.task?_eq listed]
    exact due
  · intro task listed moment due
    have ahead := current moment (Scheduler.mem_moments listed due)
    rcases Nat.lt_or_eq_of_le ahead with later | now
    · exact .inl later
    · cases now
      exact .inr (mem_dueNow.mpr ⟨task, listed, due, rfl⟩)

theorem dueNow_of_not_mem_moments {scheduler : Scheduler β}
    (nothing : scheduler.now ∉ scheduler.moments) : scheduler.dueNow = [] := by
  apply List.eq_nil_iff_forall_not_mem.mpr
  intro id member
  obtain ⟨task, listed, due, -⟩ := mem_dueNow.mp member
  exact nothing (Scheduler.mem_moments listed due)

theorem rounds_of_dueNow (nothing : (clockwork.scheduler world).dueNow = []) (bound : Nat) :
    clockwork.rounds bound world = world := by
  cases bound with
  | zero => rfl
  | succ bound =>
      unfold rounds
      rw [nothing]
      rfl

theorem rounds_of_settled (settled : (clockwork.scheduler world).Settled) (bound : Nat) :
    clockwork.rounds bound world = world :=
  rounds_of_dueNow (dueNow_of_not_mem_moments fun member => Nat.lt_irrefl _ (settled _ member)) bound

/-- At every moment there may be a first round. -/
theorem settle_eq_rounds (world : ω) :
    clockwork.settle world = clockwork.rounds (roundLimit - 1) (clockwork.round world) := by
  have unfolded : clockwork.settle world =
      if (clockwork.scheduler world).dueNow.isEmpty then world
      else clockwork.rounds (roundLimit - 1) (clockwork.round world) := rfl
  rw [unfolded]
  split
  · next empty =>
      have nothing := List.isEmpty_iff.mp empty
      unfold round
      rw [nothing, List.foldl_nil, rounds_of_dueNow nothing]
  · rfl

/-- One round of modest bodies settles a moment. -/
theorem reaches_settle (modest : clockwork.Modest property)
    (steady : clockwork.Steady property world)
    (current : (clockwork.scheduler world).MayPass 0) :
    clockwork.Reaches world (clockwork.settle world) ∧
      clockwork.Steady property (clockwork.settle world) ∧
      (clockwork.scheduler (clockwork.settle world)).Settled := by
  have round := reaches_round modest steady current
  rw [settle_eq_rounds, rounds_of_settled round.2.2]
  exact round

/-! ## A span of time -/

theorem scheduler_pass (seconds : Nat) (world : ω) :
    clockwork.scheduler (clockwork.timeline.pass seconds world) =
      (clockwork.scheduler world).pass seconds :=
  clockwork.scheduler_withScheduler _ _

/-- The passing of time keeps to the rule of the clock. -/
theorem reaches_advance (modest : clockwork.Modest property)
    (steady : clockwork.Steady property world) (settled : (clockwork.scheduler world).Settled)
    (seconds : Nat) :
    clockwork.Reaches world (clockwork.advance seconds world) ∧
      clockwork.Steady property (clockwork.advance seconds world) ∧
      (clockwork.scheduler (clockwork.advance seconds world)).Settled := by
  have silent : ∀ {seconds : Nat} {world : ω}, clockwork.Steady property world →
      (clockwork.scheduler world).Settled → clockwork.timeline.Quiet seconds world →
      clockwork.Reaches world (clockwork.timeline.pass seconds world) ∧
        clockwork.Steady property (clockwork.timeline.pass seconds world) ∧
        (clockwork.scheduler (clockwork.timeline.pass seconds world)).Settled := by
    intro seconds world steady settled quiet
    refine ⟨.pass seconds ?_ (.refl _), steady.pass seconds, ?_⟩
    · exact fun moment member => Nat.le_of_lt (quiet moment member (settled moment member))
    · rw [scheduler_pass]
      exact fun moment member => quiet moment member (settled moment member)
  unfold advance
  induction seconds using Nat.strongRecOn generalizing world with
  | ind seconds inductionHypothesis =>
      cases next : clockwork.timeline.nextMoment? world with
      | none =>
          have quiet := clockwork.timeline.quiet_of_nextMoment?_eq_none next seconds
          rw [clockwork.timeline.advance_of_quiet quiet]
          exact silent steady settled quiet
      | some moment =>
          have later := clockwork.timeline.lt_nextMoment? next
          by_cases reached : moment ≤ clockwork.timeline.now world + seconds
          · rw [clockwork.timeline.advance_of_nextMoment?_le next reached]
            have first : ∀ other ∈ (clockwork.scheduler world).moments,
                (clockwork.scheduler world).now + (moment - (clockwork.scheduler world).now) ≤
                  other := by
              intro other member
              have ahead := (List.min?_eq_some_iff.mp next).2 other
                (List.mem_filter.mpr ⟨member, decide_eq_true (settled other member)⟩)
              exact Nat.le_trans (Nat.le_of_eq (Nat.add_sub_of_le (Nat.le_of_lt later))) ahead
            have current : (clockwork.scheduler (clockwork.timeline.pass
                (moment - clockwork.timeline.now world) world)).MayPass 0 := by
              rw [scheduler_pass]
              exact first
            obtain ⟨settles, steadyThen, settledThen⟩ :=
              reaches_settle modest (steady.pass (moment - clockwork.timeline.now world)) current
            obtain ⟨goesOn, result⟩ := inductionHypothesis
              (seconds - (moment - clockwork.timeline.now world)) (by omega) steadyThen settledThen
            exact ⟨(Reaches.pass _ first settles).trans goesOn, result⟩
          · have quiet := clockwork.timeline.quiet_of_lt_nextMoment? next (Nat.lt_of_not_le reached)
            rw [clockwork.timeline.advance_of_quiet quiet]
            exact silent steady settled quiet

end Advance

end Clockwork

end SessionServer
