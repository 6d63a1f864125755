import SessionServer.Proofs.Scheduler.Timetable
import SessionServer.Scheduler.Rehearsal

/-!
Contract: the time of a clockwork, seen from its scheduler.

Owns:
- `Clockwork.Obedient`, that bodies give orders and do nothing else to the scheduler;
- the proof that to the scheduler of such a clockwork time passes in timely moves;
- the same for rehearsals, whatever is asked of them.
-/

namespace SessionServer

open Scheduler

/-! ## Timely moves -/

namespace Scheduler

variable {β : Type} {first second third : Scheduler β}

/-- Timely moves lead from scheduler to scheduler. -/
def TimelyFrom (first second : Scheduler β) : Prop :=
  ∃ moves, second = machine.run first moves ∧
    ∀ event ∈ machine.trace first moves, Event.Timely event

theorem TimelyFrom.refl (scheduler : Scheduler β) : TimelyFrom scheduler scheduler :=
  Machine.Leads.refl scheduler

theorem TimelyFrom.trans (start : TimelyFrom first second) (next : TimelyFrom second third) :
    TimelyFrom first third :=
  Machine.Leads.trans start next

theorem TimelyFrom.move {scheduler : Scheduler β} (move : Move β)
    (timely : Event.Timely ⟨scheduler, move, scheduler.perform move⟩) :
    TimelyFrom scheduler (scheduler.perform move) :=
  show machine.Leads Event.Timely scheduler (machine.apply scheduler move) from .step move timely

theorem TimelyFrom.orders {scheduler : Scheduler β} (orders : List Order) :
    TimelyFrom scheduler (scheduler.obeyAll orders) := by
  unfold obeyAll
  induction orders generalizing scheduler with
  | nil => exact .refl scheduler
  | cons first rest inductionHypothesis =>
      exact (TimelyFrom.move (.order first) trivial).trans inductionHypothesis

end Scheduler

/-! ## Clockworks whose bodies give orders -/

namespace Clockwork

variable {ω β : Type}

/-- To its scheduler a body does nothing but give orders. -/
def Obedient (clockwork : Clockwork ω β) : Prop :=
  ∀ id body world, ∃ orders, clockwork.scheduler (clockwork.perform id body world).2 =
    (clockwork.scheduler world).obeyAll orders

variable {clockwork : Clockwork ω β}

theorem Obedient.modest (obedient : clockwork.Obedient) : clockwork.Modest fun _ => True where
  tasks id body world _ := by
    obtain ⟨orders, ran⟩ := obedient id body world
    rw [ran, obeyAll_eq]
  now id body world _ := by
    obtain ⟨orders, ran⟩ := obedient id body world
    rw [ran, now_obeyAll]

/-- To the scheduler the due time of a task is a move. -/
theorem Obedient.scheduler_fire (obedient : clockwork.Obedient) (world : ω) (id : TaskId) :
    ∃ orders ending, clockwork.scheduler (clockwork.fire world id) =
      (clockwork.scheduler world).perform (.fire id orders ending) := by
  cases found : (clockwork.scheduler world).task? id with
  | none =>
      rw [clockwork.fire_of_missing found]
      exact ⟨[], .again, (perform_fire_of_missing _ found [] .again).symm⟩
  | some task =>
      have named := id_of_task? found
      cases stopped : (clockwork.scheduler world).isStopped id with
      | true =>
          rw [clockwork.fire_of_stopped found (named ▸ stopped), clockwork.scheduler_withScheduler]
          exact ⟨[], .again, (perform_fire_of_stopped _ found stopped [] .again).symm⟩
      | false =>
          obtain ⟨orders, ran⟩ := obedient id task.body world
          rw [clockwork.fire_of_running found (named ▸ stopped),
            clockwork.scheduler_withScheduler, ran]
          exact ⟨orders, _, (perform_fire_of_running _ found stopped orders _).symm⟩

/-- To the scheduler of an obedient clockwork time passes in timely moves. -/
theorem Obedient.timelyFrom_of_reaches (obedient : clockwork.Obedient) {world later : ω}
    (reaches : clockwork.Reaches world later) :
    TimelyFrom (clockwork.scheduler world) (clockwork.scheduler later) := by
  induction reaches with
  | refl world => exact .refl _
  | @pass world later seconds mayPass _ inductionHypothesis =>
      rw [scheduler_pass] at inductionHypothesis
      exact TimelyFrom.trans (.move (.pass seconds) mayPass) inductionHypothesis
  | @fire world later id isDue _ inductionHypothesis =>
      obtain ⟨orders, ending, fired⟩ := obedient.scheduler_fire world id
      rw [fired] at inductionHypothesis
      exact TimelyFrom.trans (.move (.fire id orders ending) isDue) inductionHypothesis

end Clockwork

/-! ## Rehearsals -/

namespace Rehearsal

theorem scheduler_obey (rehearsal : Rehearsal) (command : Command) :
    ∃ orders, (rehearsal.obey command).scheduler = rehearsal.scheduler.obeyAll orders := by
  cases command with
  | cancel name =>
      rw [obey, cancel]
      cases rehearsal.handles.get? name with
      | none => exact ⟨[], rfl⟩
      | some id => exact ⟨[.cancel id], rfl⟩
  | cancelSession connection => exact ⟨[.cancelSession connection], rfl⟩
  | shutDown => exact ⟨[.shutDown], rfl⟩

theorem scheduler_foldl_obey (commands : List Command) (rehearsal : Rehearsal) :
    ∃ orders, (commands.foldl obey rehearsal).scheduler =
      rehearsal.scheduler.obeyAll orders := by
  induction commands generalizing rehearsal with
  | nil => exact ⟨[], rfl⟩
  | cons first rest inductionHypothesis =>
      obtain ⟨orders, one⟩ := rehearsal.scheduler_obey first
      obtain ⟨later, others⟩ := inductionHypothesis (rehearsal.obey first)
      refine ⟨orders ++ later, ?_⟩
      rw [List.foldl_cons, others, one]
      exact List.foldl_append.symm

/-- The tasks of a rehearsal give orders and do nothing else to the scheduler. -/
theorem obedient : clockwork.Obedient := fun _ _ _ => scheduler_foldl_obey _ _

/-- What can be asked of a rehearsal. -/
inductive Request where
  | schedule (timing : Timing) (task : PlannedTask)
  | command (command : Command)
  | advance (seconds : Nat)

def serve (rehearsal : Rehearsal) : Request → Rehearsal
  | .schedule timing task => rehearsal.schedule timing task
  | .command command => rehearsal.obey command
  | .advance seconds => rehearsal.advance seconds

/-- What is kept from request to request: timely moves have led to the scheduler, and nothing is left
that is due. -/
structure InTime (rehearsal : Rehearsal) : Prop where
  reached : TimelyFrom .fresh rehearsal.scheduler
  regular : rehearsal.scheduler.Regular
  settled : rehearsal.scheduler.Settled

theorem InTime.serve {rehearsal : Rehearsal} (inTime : rehearsal.InTime) (request : Request) :
    (rehearsal.serve request).InTime := by
  cases request with
  | schedule timing task =>
      have free : rehearsal.scheduler.task? rehearsal.scheduler.nextId = none := by
        obtain ⟨moves, reached, -⟩ := inTime.reached
        rw [reached]
        exact (unknown_run moves _ (Nat.le_refl _)).missing
      let enlarged : Rehearsal := { rehearsal with
        scheduler := (rehearsal.scheduler.schedule timing task).2
        handles := rehearsal.handles.insert task.name (rehearsal.scheduler.schedule timing task).1
        runs := rehearsal.runs.insert task.name (rehearsal.runsOf task.name) }
      have ready : clockwork.Steady (fun _ => True) enlarged :=
        ⟨inTime.regular.schedule free timing task, fun _ _ => trivial⟩
      obtain ⟨reaches, steady, settled⟩ := Clockwork.reaches_settle obedient.modest ready
        (inTime.settled.schedule timing task)
      have scheduled := inTime.reached.trans (.move (.schedule timing task) trivial)
      exact ⟨scheduled.trans (obedient.timelyFrom_of_reaches reaches), steady.regular, settled⟩
  | command command =>
      obtain ⟨orders, obeyed⟩ := rehearsal.scheduler_obey command
      refine ⟨inTime.reached.trans ?_, ?_, ?_⟩
      · rw [Rehearsal.serve, obeyed]
        exact .orders orders
      · rw [Rehearsal.serve, obeyed, obeyAll_eq]
        exact ⟨inTime.regular.distinct, inTime.regular.positive⟩
      · rw [Rehearsal.serve, obeyed, obeyAll_eq]
        exact inTime.settled
  | advance seconds =>
      obtain ⟨reaches, steady, settled⟩ := Clockwork.reaches_advance obedient.modest
        ⟨inTime.regular, fun _ _ => trivial⟩ inTime.settled seconds
      exact ⟨inTime.reached.trans (obedient.timelyFrom_of_reaches reaches), steady.regular, settled⟩

/-- Whatever is asked of a rehearsal, timely moves lead to its scheduler. -/
theorem timelyFrom_fresh (requests : List Request) :
    TimelyFrom .fresh (requests.foldl serve .fresh).scheduler := by
  have kept : ∀ rehearsal : Rehearsal, rehearsal.InTime → (requests.foldl serve rehearsal).InTime := by
    induction requests with
    | nil => exact fun _ inTime => inTime
    | cons first rest inductionHypothesis =>
        exact fun rehearsal inTime => inductionHypothesis _ (inTime.serve first)
  have start : InTime .fresh :=
    ⟨.refl _, ⟨List.Pairwise.nil, fun _ member => nomatch member⟩, fun _ member => nomatch member⟩
  exact (kept .fresh start).reached

end Rehearsal

end SessionServer
