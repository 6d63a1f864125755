import SessionServer.Proofs.Machine
import SessionServer.Proofs.Scheduler.Clock

/-!
Contract: a scheduler in simulated time, with everything that can happen to it.

Owns:
- `Scheduler.Order`, what the holder of a handle or a running task tells the scheduler;
- `Scheduler.Move` and `Scheduler.machine`: scheduling, orders, time that passes, and the due time
  of a task with what its body does if it runs;
- `Event.Timely`, whether a move keeps to the rule of the clock;
- `runs` and `Halted`, what a history tells about a task;
- what orders and the moves that concern other tasks do to a task.

Bodies of any kind are covered: a run of a body is told by the orders that it gave and by its
ending.
-/

namespace SessionServer.Scheduler

variable {β : Type}

/-! ## Orders -/

/-- What the holder of a handle, or a task that runs, tells the scheduler. -/
inductive Order where
  | cancel (id : TaskId)
  | cancelSession (connection : ConnectionId)
  | shutDown
deriving DecidableEq

/-- Whether the order ends a task that is tracked under the given connection, if under any. -/
def Order.Halts (id : TaskId) (connection? : Option ConnectionId) : Order → Prop
  | .cancel other => other = id
  | .cancelSession connection => connection? = some connection
  | .shutDown => True

def obey (scheduler : Scheduler β) : Order → Scheduler β
  | .cancel id => scheduler.cancel id
  | .cancelSession connection => (scheduler.cancelSession connection).2
  | .shutDown => scheduler.shutDown

/-- Carries out orders one after the other. -/
def obeyAll (scheduler : Scheduler β) (orders : List Order) : Scheduler β :=
  orders.foldl obey scheduler

/-! ## Moves -/

/-- A scheduler that is a world of its own. The body that runs gives the orders and ends as told. -/
def stage (orders : List Order) (ending : Ending) : Clockwork (Scheduler β) β where
  scheduler scheduler := scheduler
  withScheduler _ new := new
  perform _ _ scheduler := (ending, scheduler.obeyAll orders)

/-- What can happen to a scheduler. -/
inductive Move (β : Type) where
  | schedule (timing : Timing) (body : β)
  | order (order : Order)
  /-- Seconds go by. -/
  | pass (seconds : Nat)
  /-- The time of a task has come. If it runs, its body gives the orders and ends so. -/
  | fire (id : TaskId) (orders : List Order) (ending : Ending)

def perform (scheduler : Scheduler β) : Move β → Scheduler β
  | .schedule timing body => (scheduler.schedule timing body).2
  | .order order => scheduler.obey order
  | .pass seconds => scheduler.pass seconds
  | .fire id orders ending => (stage orders ending).fire scheduler id

def machine : Machine (Scheduler β) (Move β) := ⟨perform⟩

/-- A move with the schedulers before and after it. -/
abbrev Event (β : Type) := Occurrence (Scheduler β) (Move β)

/-- One run of a task. -/
structure TaskRun where
  time : Nat
  ending : Ending
deriving DecidableEq, Repr

/-- Whether the task runs when its time has come. -/
def mayRun (scheduler : Scheduler β) (id : TaskId) : Bool :=
  (scheduler.task? id).isSome && !scheduler.isStopped id

namespace Event

/-- The move keeps to the rule of the clock. -/
def Timely (event : Event β) : Prop :=
  match event.step with
  | .fire id _ _ => event.before.IsDue id
  | .pass seconds => event.before.MayPass seconds
  | _ => True

instance (event : Event β) : Decidable (Timely event) := by
  unfold Timely
  split <;> infer_instance

/-- The orders that are carried out. -/
def orders (event : Event β) : List Order :=
  match event.step with
  | .order order => [order]
  | .fire id orders _ => if event.before.mayRun id then orders else []
  | _ => []

/-- The run of a task, if it runs. -/
def run? (id : TaskId) (event : Event β) : Option TaskRun :=
  match event.step with
  | .fire fired _ ending =>
      if fired = id ∧ event.before.mayRun id = true then some ⟨event.before.now, ending⟩ else none
  | _ => none

end Event

section Orders

variable {scheduler : Scheduler β} {id : TaskId}

theorem orders_fire_of_mayRun (runs : scheduler.mayRun id = true) (orders : List Order)
    (ending : Ending) (after : Scheduler β) :
    Event.orders ⟨scheduler, .fire id orders ending, after⟩ = orders :=
  if_pos runs

theorem orders_fire_of_refused (refused : scheduler.mayRun id = false) (orders : List Order)
    (ending : Ending) (after : Scheduler β) :
    Event.orders ⟨scheduler, .fire id orders ending, after⟩ = [] :=
  if_neg (Bool.eq_false_iff.mp refused)

end Orders

/-- The runs of a task. -/
def runs (id : TaskId) (history : List (Event β)) : List TaskRun :=
  history.filterMap (Event.run? id)

/-- The handle of a task has been cancelled, alone or with its connection, or the scheduler has been
shut down. -/
def Halted (id : TaskId) (connection? : Option ConnectionId) (history : List (Event β)) : Prop :=
  ∃ event ∈ history, ∃ order ∈ Event.orders event, order.Halts id connection?

section Histories

variable {id : TaskId} {connection? : Option ConnectionId} {first second : List (Event β)}

theorem runs_append :
    runs id (first ++ second) = runs id first ++ runs id second :=
  List.filterMap_append

theorem runs_snoc (history : List (Event β)) (event : Event β) :
    runs id (history ++ [event]) = runs id history ++ (Event.run? id event).toList := by
  rw [runs_append]
  congr 1

theorem halted_append :
    Halted id connection? (first ++ second) ↔
      Halted id connection? first ∨ Halted id connection? second := by
  unfold Halted
  constructor
  · rintro ⟨event, member, halts⟩
    exact (List.mem_append.mp member).imp (⟨event, ·, halts⟩) (⟨event, ·, halts⟩)
  · rintro (⟨event, member, halts⟩ | ⟨event, member, halts⟩)
    · exact ⟨event, List.mem_append_left _ member, halts⟩
    · exact ⟨event, List.mem_append_right _ member, halts⟩

theorem halted_singleton {event : Event β} :
    Halted id connection? [event] ↔
      ∃ order ∈ Event.orders event, order.Halts id connection? := by
  constructor
  · rintro ⟨other, member, halts⟩
    rwa [List.mem_singleton.mp member] at halts
  · exact fun halts => ⟨event, List.mem_singleton_self event, halts⟩

end Histories

/-! ## What orders do -/

section Orders

variable {scheduler : Scheduler β} {id : TaskId} {connection? : Option ConnectionId}

/-- A task that has not been stopped is tracked under its connection, if it has one, and nothing is
tracked anywhere else. -/
structure Tracked (scheduler : Scheduler β) (id : TaskId) (connection? : Option ConnectionId) :
    Prop where
  only : ∀ connection, id ∈ scheduler.trackedUnder connection → connection? = some connection
  always : ∀ connection, connection? = some connection → scheduler.isStopped id = false →
    id ∈ scheduler.trackedUnder connection

theorem Tracked.obey (tracked : scheduler.Tracked id connection?) (order : Order) :
    (scheduler.obey order).Tracked id connection? := by
  cases order with
  | cancel other =>
      refine ⟨tracked.only, ?_⟩
      intro connection own running
      rw [Scheduler.obey, isStopped_cancel, Bool.or_eq_false_iff] at running
      exact tracked.always connection own running.2
  | cancelSession closed =>
      constructor
      · intro connection member
        exact tracked.only connection (mem_trackedUnder_cancelSession scheduler |>.mp member).2
      · intro connection own running
        rw [Scheduler.obey, isStopped_cancelSession, Bool.or_eq_false_iff] at running
        have member := tracked.always connection own running.2
        apply (mem_trackedUnder_cancelSession scheduler).mpr
        refine ⟨?_, member⟩
        rintro rfl
        rw [List.contains_iff_mem.mpr member] at running
        cases running.1
  | shutDown =>
      constructor
      · intro connection member
        cases member
      · intro connection _ running
        rw [Scheduler.obey, isStopped_shutDown] at running
        cases running

theorem isStopped_obey (tracked : scheduler.Tracked id connection?) (order : Order) :
    (scheduler.obey order).isStopped id = true ↔
      scheduler.isStopped id = true ∨ order.Halts id connection? := by
  cases order with
  | cancel other =>
      rw [obey, isStopped_cancel, Bool.or_eq_true, decide_eq_true_eq, Or.comm]
      rfl
  | cancelSession closed =>
      rw [obey, isStopped_cancelSession, Bool.or_eq_true, List.contains_iff_mem]
      constructor
      · rintro (member | stopped)
        · exact .inr (tracked.only closed member)
        · exact .inl stopped
      · rintro (stopped | own)
        · exact .inr stopped
        · cases running : scheduler.isStopped id with
          | true => exact .inr rfl
          | false => exact .inl (tracked.always closed own running)
  | shutDown => exact iff_of_true (isStopped_shutDown scheduler id) (.inr trivial)

theorem Tracked.obeyAll (tracked : scheduler.Tracked id connection?) (orders : List Order) :
    (scheduler.obeyAll orders).Tracked id connection? := by
  unfold Scheduler.obeyAll
  induction orders generalizing scheduler with
  | nil => exact tracked
  | cons first rest inductionHypothesis => exact inductionHypothesis (tracked.obey first)

theorem isStopped_obeyAll (tracked : scheduler.Tracked id connection?) (orders : List Order) :
    (scheduler.obeyAll orders).isStopped id = true ↔
      scheduler.isStopped id = true ∨ ∃ order ∈ orders, order.Halts id connection? := by
  unfold obeyAll
  induction orders generalizing scheduler with
  | nil => simp
  | cons first rest inductionHypothesis =>
      rw [List.foldl_cons, inductionHypothesis (tracked.obey first), isStopped_obey tracked,
        or_assoc]
      simp only [List.mem_cons, exists_eq_or_imp]

theorem obeyAll_eq (orders : List Order) :
    scheduler.obeyAll orders = { scheduler.obeyAll orders with
      now := scheduler.now
      tasks := scheduler.tasks
      nextId := scheduler.nextId } := by
  unfold obeyAll
  induction orders generalizing scheduler with
  | nil => rfl
  | cons first rest inductionHypothesis =>
      have same := @inductionHypothesis (scheduler.obey first)
      cases first <;> exact same

theorem now_obeyAll (orders : List Order) : (scheduler.obeyAll orders).now = scheduler.now :=
  (congrArg now (obeyAll_eq orders)).trans rfl

theorem task?_obeyAll (orders : List Order) (other : TaskId) :
    (scheduler.obeyAll orders).task? other = scheduler.task? other :=
  (congrArg (task? · other) (obeyAll_eq orders)).trans rfl

theorem nextId_obeyAll (orders : List Order) :
    (scheduler.obeyAll orders).nextId = scheduler.nextId :=
  (congrArg nextId (obeyAll_eq orders)).trans rfl

end Orders

/-! ## What the due time of a task does -/

section Firing

variable (scheduler : Scheduler β)

theorem perform_fire_of_missing {id : TaskId} (missing : scheduler.task? id = none)
    (orders : List Order) (ending : Ending) :
    scheduler.perform (.fire id orders ending) = scheduler :=
  (stage orders ending).fire_of_missing missing

theorem perform_fire_of_stopped {id : TaskId} {task : Task β}
    (found : scheduler.task? id = some task) (stopped : scheduler.isStopped id = true)
    (orders : List Order) (ending : Ending) :
    scheduler.perform (.fire id orders ending) = scheduler.retire task :=
  (stage orders ending).fire_of_stopped found (by rwa [id_of_task? found])

theorem perform_fire_of_running {id : TaskId} {task : Task β}
    (found : scheduler.task? id = some task) (running : scheduler.isStopped id = false)
    (orders : List Order) (ending : Ending) :
    scheduler.perform (.fire id orders ending) =
      (scheduler.obeyAll orders).finish task ending :=
  (stage orders ending).fire_of_running found (by rwa [id_of_task? found])

theorem mayRun_of_task? {id : TaskId} {task : Task β} (found : scheduler.task? id = some task) :
    scheduler.mayRun id = !scheduler.isStopped id := by
  rw [mayRun, found]
  rfl

end Firing

/-! ## The clock and the numbers -/

section Clock

variable (scheduler : Scheduler β)

/-- How many seconds a move takes. -/
def Move.seconds : Move β → Nat
  | .pass seconds => seconds
  | _ => 0

theorem now_finish (task : Task β) (ending : Ending) :
    (scheduler.finish task ending).now = scheduler.now := by
  rcases scheduler.finish_cases task ending with ⟨retired, -⟩ | ⟨period, -, -, -, rearmed⟩
  · rw [retired, now_retire]
  · rw [rearmed]
    rfl

theorem nextId_finish (task : Task β) (ending : Ending) :
    (scheduler.finish task ending).nextId = scheduler.nextId := by
  rcases scheduler.finish_cases task ending with ⟨retired, -⟩ | ⟨period, -, -, -, rearmed⟩
  · rw [retired, nextId_retire]
  · rw [rearmed]
    rfl

theorem now_perform (move : Move β) :
    (scheduler.perform move).now = scheduler.now + move.seconds := by
  cases move with
  | schedule timing body => exact now_schedule timing body
  | order order => exact now_obeyAll [order]
  | pass seconds => rfl
  | fire id orders ending =>
      cases found : scheduler.task? id with
      | none => rw [scheduler.perform_fire_of_missing found]; rfl
      | some task =>
          cases stopped : scheduler.isStopped id with
          | true => rw [scheduler.perform_fire_of_stopped found stopped, now_retire]; rfl
          | false =>
              rw [scheduler.perform_fire_of_running found stopped, now_finish, now_obeyAll]
              rfl

theorem nextId_perform (move : Move β) :
    (scheduler.perform move).nextId =
      match move with
      | .schedule _ _ => scheduler.nextId + 1
      | _ => scheduler.nextId := by
  cases move with
  | schedule timing body => exact nextId_schedule scheduler timing body
  | order order => exact nextId_obeyAll [order]
  | pass seconds => rfl
  | fire id orders ending =>
      cases found : scheduler.task? id with
      | none => rw [scheduler.perform_fire_of_missing found]
      | some task =>
          cases stopped : scheduler.isStopped id with
          | true => rw [scheduler.perform_fire_of_stopped found stopped, nextId_retire]
          | false =>
              rw [scheduler.perform_fire_of_running found stopped, nextId_finish, nextId_obeyAll]

theorem nextId_le_perform (move : Move β) : scheduler.nextId ≤ (scheduler.perform move).nextId := by
  rw [nextId_perform]
  split
  · exact Nat.le_succ _
  · exact Nat.le_refl _

end Clock

/-! ## Moves that concern other tasks -/

section Frame

variable {scheduler : Scheduler β} {id : TaskId} {connection? : Option ConnectionId}
  {move : Move β}

/-- The move schedules the task, or is its due time. -/
def Move.Concerns (scheduler : Scheduler β) (id : TaskId) : Move β → Prop
  | .schedule _ _ => scheduler.nextId = id
  | .fire fired _ _ => fired = id
  | _ => False

theorem Tracked.retire (tracked : scheduler.Tracked id connection?) {task : Task β}
    (other : task.id ≠ id) : (scheduler.retire task).Tracked id connection? := by
  constructor
  · intro connection member
    exact tracked.only connection ((mem_trackedUnder_retire scheduler).mp member).1
  · intro connection own running
    rw [isStopped_retire] at running
    apply (mem_trackedUnder_retire scheduler).mpr
    exact ⟨tracked.always connection own running, fun same => other same.2.symm⟩

theorem task?_finish {task : Task β} (other : task.id ≠ id) (ending : Ending) :
    (scheduler.finish task ending).task? id = scheduler.task? id := by
  rcases scheduler.finish_cases task ending with ⟨retired, -⟩ | ⟨period, -, -, -, rearmed⟩
  · rw [retired, task?_retire, if_neg other]
  · rw [rearmed, task?_rearm, if_neg other]

theorem Tracked.finish (tracked : scheduler.Tracked id connection?) {task : Task β}
    (other : task.id ≠ id) (ending : Ending) :
    (scheduler.finish task ending).Tracked id connection? := by
  rcases scheduler.finish_cases task ending with ⟨retired, -⟩ | ⟨period, -, -, -, rearmed⟩
  · rw [retired]
    exact tracked.retire other
  · rw [rearmed]
    exact ⟨tracked.only, tracked.always⟩

theorem isStopped_finish (task : Task β) (ending : Ending) (id : TaskId) :
    (scheduler.finish task ending).isStopped id = scheduler.isStopped id := by
  rcases scheduler.finish_cases task ending with ⟨retired, -⟩ | ⟨period, -, -, -, rearmed⟩
  · rw [retired, isStopped_retire]
  · rw [rearmed]
    rfl

theorem task?_perform (other : ¬move.Concerns scheduler id) :
    (scheduler.perform move).task? id = scheduler.task? id := by
  cases move with
  | schedule timing body =>
      have apart : scheduler.nextId ≠ id := other
      rw [perform, task?_schedule, if_neg apart, Option.or_none]
  | order order => exact task?_obeyAll [order] id
  | pass seconds => rfl
  | fire fired orders ending =>
      cases found : scheduler.task? fired with
      | none => rw [scheduler.perform_fire_of_missing found]
      | some task =>
          have apart : task.id ≠ id := id_of_task? found ▸ other
          cases stopped : scheduler.isStopped fired with
          | true => rw [scheduler.perform_fire_of_stopped found stopped, task?_retire, if_neg apart]
          | false =>
              rw [scheduler.perform_fire_of_running found stopped, task?_finish apart,
                task?_obeyAll]

/-- For a task that it does not concern, a move does what its orders do. -/
theorem Tracked.perform (tracked : scheduler.Tracked id connection?)
    (other : ¬move.Concerns scheduler id) :
    (scheduler.perform move).Tracked id connection? ∧
      ((scheduler.perform move).isStopped id = true ↔ scheduler.isStopped id = true ∨
        Halted id connection? [⟨scheduler, move, scheduler.perform move⟩]) := by
  rw [halted_singleton]
  cases move with
  | schedule timing body =>
      have apart : scheduler.nextId ≠ id := other
      refine ⟨⟨?_, ?_⟩, ?_⟩
      · intro connection member
        rcases (mem_trackedUnder_schedule scheduler).mp member with old | ⟨-, new⟩
        · exact tracked.only connection old
        · exact absurd new.symm apart
      · intro connection own running
        rw [Scheduler.perform, isStopped_schedule] at running
        exact (mem_trackedUnder_schedule scheduler).mpr
          (.inl (tracked.always connection own running))
      · rw [Scheduler.perform, isStopped_schedule]
        exact isStopped_obeyAll tracked []
  | order order => exact ⟨tracked.obey order, isStopped_obeyAll tracked [order]⟩
  | pass seconds => exact ⟨⟨tracked.only, tracked.always⟩, isStopped_obeyAll tracked []⟩
  | fire fired orders ending =>
      cases found : scheduler.task? fired with
      | none =>
          have refused : scheduler.mayRun fired = false := by
            unfold mayRun
            rw [found]
            rfl
          rw [orders_fire_of_refused refused, scheduler.perform_fire_of_missing found]
          exact ⟨tracked, isStopped_obeyAll tracked []⟩
      | some task =>
          have apart : task.id ≠ id := id_of_task? found ▸ other
          have mayRun := scheduler.mayRun_of_task? found
          cases stopped : scheduler.isStopped fired with
          | true =>
              rw [stopped] at mayRun
              rw [orders_fire_of_refused mayRun, scheduler.perform_fire_of_stopped found stopped,
                isStopped_retire]
              exact ⟨tracked.retire apart, isStopped_obeyAll tracked []⟩
          | false =>
              rw [stopped] at mayRun
              rw [orders_fire_of_mayRun mayRun, scheduler.perform_fire_of_running found stopped,
                isStopped_finish]
              exact ⟨(tracked.obeyAll orders).finish apart ending,
                isStopped_obeyAll tracked orders⟩

theorem run?_of_not_concerns (other : ¬move.Concerns scheduler id) (after : Scheduler β) :
    Event.run? id ⟨scheduler, move, after⟩ = none := by
  cases move with
  | fire fired orders ending => exact if_neg fun runs => other runs.1
  | _ => rfl

end Frame

end SessionServer.Scheduler
