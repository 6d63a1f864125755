import SessionServer.Proofs.Scheduler.Obedience

/-!
Contract: a scheduler with the runs that are in progress.

Owns:
- `Workshop`, whose runs have a beginning and an end, so that anything may happen to the scheduler
  while a task runs: other tasks run, tasks are scheduled and handles are cancelled;
- `Workshop.Move` and `Workshop.machine`, everything that can happen to it, and `Event.Timely`, the
  rule of the clock;
- what the moves that concern other tasks leave of a task;
- the proof that a scheduler whose runs are single moves is such a workshop between two runs, hence
  that every rehearsal leads to one.

A run takes no time on the clock: as long as its task has not been armed anew it is due now, and the
rule of the clock lets no time pass over it.
-/

namespace SessionServer

open Scheduler

/-- A scheduler and the runs that are in progress. -/
structure Workshop (β : Type) where
  scheduler : Scheduler β := .fresh
  /-- The tasks that run at present. -/
  running : List (Task β) := []

namespace Workshop

variable {β : Type}

def fresh : Workshop β := {}

/-- The run of a task that is in progress. -/
def running? (workshop : Workshop β) (id : TaskId) : Option (Task β) :=
  workshop.running.find? fun task => task.id = id

def isRunning (workshop : Workshop β) (id : TaskId) : Bool := (workshop.running? id).isSome

/-- Whether the task waits for its next turn. -/
def awaits (workshop : Workshop β) (id : TaskId) : Bool :=
  (workshop.scheduler.task? id).isSome && !workshop.isRunning id

/-- The turn of a task that waits: it begins to run, or it ends because it may not run any more. -/
def start (workshop : Workshop β) (id : TaskId) : Workshop β :=
  match workshop.running? id, workshop.scheduler.task? id with
  | none, some task =>
      match workshop.scheduler.start? task with
      | .error retired => { workshop with scheduler := retired }
      | .ok _ => { workshop with running := workshop.running ++ [task] }
  | _, _ => workshop

/-- The end of the run of a task. -/
def finish (workshop : Workshop β) (id : TaskId) (ending : Ending) : Workshop β :=
  match workshop.running? id with
  | none => workshop
  | some task => {
      scheduler := workshop.scheduler.finish task ending
      running := workshop.running.filter (·.id ≠ id) }

/-! ## Moves -/

/-- What can happen to a workshop. What a body does while it runs are moves of their own. -/
inductive Move (β : Type) where
  | schedule (timing : Timing) (body : β)
  | order (order : Order)
  /-- Seconds go by. -/
  | pass (seconds : Nat)
  | start (id : TaskId)
  | finish (id : TaskId) (ending : Ending)

def perform (workshop : Workshop β) : Move β → Workshop β
  | .schedule timing body =>
      { workshop with scheduler := (workshop.scheduler.schedule timing body).2 }
  | .order order => { workshop with scheduler := workshop.scheduler.obey order }
  | .pass seconds => { workshop with scheduler := workshop.scheduler.pass seconds }
  | .start id => workshop.start id
  | .finish id ending => workshop.finish id ending

def machine : Machine (Workshop β) (Move β) := ⟨perform⟩

/-- A move with the workshops before and after it. -/
abbrev Event (β : Type) := Occurrence (Workshop β) (Move β)

/-- The move keeps to the rule of the clock: a turn comes when the task is due, runs of a task do not
overlap, and no due time is passed over. -/
def Event.Timely (event : Event β) : Prop :=
  match event.step with
  | .start id => event.before.scheduler.IsDue id ∧ event.before.isRunning id = false
  | .pass seconds => event.before.scheduler.MayPass seconds
  | _ => True

instance (event : Event β) : Decidable (Event.Timely event) := by
  unfold Event.Timely
  split <;> infer_instance

namespace Event

/-- The task begins to run. -/
def starts (id : TaskId) (event : Event β) : Bool :=
  match event.step with
  | .start turn =>
      turn = id && (event.before.awaits turn && !event.before.scheduler.isStopped turn)
  | _ => false

/-- The task ends: its turn finds that it may not run any more, or its last run is over. -/
def ends (id : TaskId) (event : Event β) : Bool :=
  match event.step with
  | .start turn =>
      turn = id && (event.before.awaits turn && event.before.scheduler.isStopped turn)
  | .finish ran ending =>
      ran = id && (event.before.running? ran).any (event.before.scheduler.isLast ending)
  | _ => false

end Event

/-! ## The two ends of a run -/

section Runs

variable {workshop : Workshop β} {id : TaskId} {task : Task β}

theorem isRunning_eq_false_iff : workshop.isRunning id = false ↔ workshop.running? id = none :=
  Option.isSome_eq_false_iff.trans Option.isNone_iff_eq_none

theorem id_of_running? (found : workshop.running? id = some task) : task.id = id := by
  have chosen := List.find?_some found
  exact of_decide_eq_true chosen

theorem awaits_iff :
    workshop.awaits id = true ↔
      ∃ task, workshop.scheduler.task? id = some task ∧ workshop.running? id = none := by
  rw [awaits, Bool.and_eq_true, Bool.not_eq_true', isRunning_eq_false_iff,
    Option.isSome_iff_exists, exists_and_right]

theorem start_of_not_awaits (absent : workshop.awaits id = false) :
    workshop.start id = workshop := by
  unfold start
  split
  · next idle found =>
      rw [awaits_iff.mpr ⟨_, found, idle⟩] at absent
      cases absent
  · rfl

theorem start_of_stopped (idle : workshop.running? id = none)
    (found : workshop.scheduler.task? id = some task)
    (stopped : workshop.scheduler.isStopped id = true) :
    workshop.start id = { workshop with scheduler := workshop.scheduler.retire task } := by
  unfold start
  rw [idle, found]
  dsimp only [Scheduler.start?]
  rw [id_of_task? found, if_pos stopped]

theorem start_of_running (idle : workshop.running? id = none)
    (found : workshop.scheduler.task? id = some task)
    (running : workshop.scheduler.isStopped id = false) :
    workshop.start id = { workshop with running := workshop.running ++ [task] } := by
  unfold start
  rw [idle, found]
  dsimp only [Scheduler.start?]
  rw [id_of_task? found, if_neg (Bool.eq_false_iff.mp running)]

/-- The turn of a task: there is none, or the task ends, or it begins to run. -/
theorem start_cases (workshop : Workshop β) (id : TaskId) :
    workshop.awaits id = false ∧ workshop.start id = workshop ∨
      ∃ task, workshop.running? id = none ∧ workshop.scheduler.task? id = some task ∧
        (workshop.scheduler.isStopped id = true ∧
            workshop.start id = { workshop with scheduler := workshop.scheduler.retire task } ∨
          workshop.scheduler.isStopped id = false ∧
            workshop.start id = { workshop with running := workshop.running ++ [task] }) := by
  cases waits : workshop.awaits id with
  | false => exact .inl ⟨rfl, start_of_not_awaits waits⟩
  | true =>
      obtain ⟨task, found, idle⟩ := awaits_iff.mp waits
      refine .inr ⟨task, idle, found, ?_⟩
      cases stopped : workshop.scheduler.isStopped id with
      | true => exact .inl ⟨rfl, start_of_stopped idle found stopped⟩
      | false => exact .inr ⟨rfl, start_of_running idle found stopped⟩

/-- A run that has begun is in progress. -/
theorem running?_begun (idle : workshop.running? id = none) (named : task.id = id) :
    ({ workshop with running := workshop.running ++ [task] } : Workshop β).running? id =
      some task := by
  rw [running?, List.find?_append, List.find?_singleton, if_pos (decide_eq_true named)]
  exact congrArg (Option.or · _) idle

theorem finish_of_idle (idle : workshop.running? id = none) (ending : Ending) :
    workshop.finish id ending = workshop := by
  unfold finish
  rw [idle]

theorem finish_of_running (found : workshop.running? id = some task) (ending : Ending) :
    workshop.finish id ending = {
      scheduler := workshop.scheduler.finish task ending
      running := workshop.running.filter (·.id ≠ id) } := by
  unfold finish
  rw [found]

/-- A run that has ended is in progress no more. -/
theorem running?_finish (workshop : Workshop β) (id : TaskId) (ending : Ending) :
    (workshop.finish id ending).running? id = none := by
  cases run : workshop.running? id with
  | none => rw [finish_of_idle run, run]
  | some task =>
      rw [finish_of_running run, running?, List.find?_filter, List.find?_eq_none]
      intro candidate _
      simp

/-- The move is the turn of a task or the end of a run. -/
def Move.IsTurn : Move β → Prop
  | .start _ | .finish _ _ => True
  | _ => False

/-- What the turn of a task or the end of its run leaves of the scheduler: no task ends, and at most
one is armed anew, or one task ends and is retired. -/
theorem turn_cases (workshop : Workshop β) {move : Move β} (turn : move.IsTurn)
    (after : Workshop β) :
    (∀ id, Event.ends id ⟨workshop, move, after⟩ = false) ∧
        ((workshop.perform move).scheduler = workshop.scheduler ∨
          ∃ task period, workshop.running? task.id = some task ∧
            task.timing.period? = some period ∧
            (workshop.perform move).scheduler = workshop.scheduler.rearm task.id period) ∨
      ∃ task, (workshop.scheduler.task? task.id = some task ∨
          workshop.running? task.id = some task) ∧
        (∀ id, Event.ends id ⟨workshop, move, after⟩ = decide (task.id = id)) ∧
        (workshop.perform move).scheduler = workshop.scheduler.retire task := by
  cases move with
  | start id =>
      rw [perform]
      rcases workshop.start_cases id with
        ⟨absent, same⟩ | ⟨task, idle, found, ⟨stopped, retired⟩ | ⟨runs, begun⟩⟩
      · refine .inl ⟨fun other => ?_, .inl (by rw [same])⟩
        simp [Event.ends, absent]
      · have named := id_of_task? found
        have waits : workshop.awaits id = true := awaits_iff.mpr ⟨task, found, idle⟩
        refine .inr ⟨task, .inl (named ▸ found), fun other => ?_, by rw [retired]⟩
        simp [Event.ends, waits, stopped, named]
      · refine .inl ⟨fun other => ?_, .inl (by rw [begun])⟩
        simp [Event.ends, runs]
  | finish id ending =>
      rw [perform]
      cases run : workshop.running? id with
      | none =>
          refine .inl ⟨fun other => ?_, .inl (by rw [finish_of_idle run])⟩
          simp [Event.ends, run]
      | some task =>
          have named := id_of_running? run
          rw [finish_of_running run]
          cases last : workshop.scheduler.isLast ending task with
          | true =>
              refine .inr ⟨task, .inr (named ▸ run), fun other => ?_,
                workshop.scheduler.finish_of_last last⟩
              simp [Event.ends, run, last, named]
          | false =>
              obtain ⟨period, periodic, rearmed⟩ := workshop.scheduler.finish_of_not_last last
              refine .inl ⟨fun other => ?_,
                .inr ⟨task, period, named ▸ run, periodic, rearmed⟩⟩
              simp [Event.ends, run, last]
  | _ => exact turn.elim

theorem ends_of_not_turn {move : Move β} (other : ¬move.IsTurn) (after : Workshop β) :
    Event.ends id ⟨workshop, move, after⟩ = false := by
  cases move with
  | start _ | finish _ _ => exact absurd trivial other
  | _ => rfl

end Runs

/-! ## Moves that concern other tasks -/

section Frame

variable {workshop : Workshop β} {move : Move β} {id : TaskId}

/-- The move schedules the task, or is its turn or the end of its run. -/
def Move.Concerns (workshop : Workshop β) (id : TaskId) : Move β → Prop
  | .schedule _ _ => workshop.scheduler.nextId = id
  | .start turn => turn = id
  | .finish ended _ => ended = id
  | _ => False

theorem task?_perform (other : ¬move.Concerns workshop id) :
    (workshop.perform move).scheduler.task? id = workshop.scheduler.task? id := by
  cases move with
  | schedule timing body =>
      have apart : workshop.scheduler.nextId ≠ id := other
      rw [perform, Scheduler.task?_schedule, if_neg apart, Option.or_none]
  | order order => exact task?_obeyAll [order] id
  | pass seconds => rfl
  | start turn =>
      rw [perform]
      rcases workshop.start_cases turn with
        ⟨-, same⟩ | ⟨task, -, found, ⟨-, retired⟩ | ⟨-, begun⟩⟩
      · rw [same]
      · rw [retired, Scheduler.task?_retire, if_neg (id_of_task? found ▸ other)]
      · rw [begun]
  | finish ended ending =>
      rw [perform]
      cases run : workshop.running? ended with
      | none => rw [finish_of_idle run]
      | some task => rw [finish_of_running run, task?_finish (id_of_running? run ▸ other)]

theorem running?_perform (other : ¬move.Concerns workshop id) :
    (workshop.perform move).running? id = workshop.running? id := by
  cases move with
  | start turn =>
      rw [perform]
      rcases workshop.start_cases turn with
        ⟨-, same⟩ | ⟨task, -, found, ⟨-, retired⟩ | ⟨-, begun⟩⟩
      · rw [same]
      · rw [retired]
        rfl
      · have apart : ¬decide (task.id = id) = true :=
          fun same => other ((id_of_task? found).symm.trans (of_decide_eq_true same))
        rw [begun, running?, List.find?_append, List.find?_singleton, if_neg apart,
          Option.or_none]
        rfl
  | finish ended ending =>
      rw [perform]
      cases run : workshop.running? ended with
      | none => rw [finish_of_idle run]
      | some task =>
          rw [finish_of_running run, running?, List.find?_filter]
          apply congrArg (List.find? · workshop.running)
          funext candidate
          by_cases hit : candidate.id = id
          · have apart : id ≠ ended := fun same => other same.symm
            simp [hit, apart]
          · simp [hit]
  | _ => rfl

/-- A task that may not run any more never may again. -/
theorem isStopped_perform (stopped : workshop.scheduler.isStopped id = true) :
    (workshop.perform move).scheduler.isStopped id = true := by
  by_cases turn : move.IsTurn
  · rcases workshop.turn_cases turn workshop with
      ⟨-, same | ⟨task, period, -, -, rearmed⟩⟩ | ⟨task, -, -, retired⟩
    · rwa [same]
    · rwa [rearmed]
    · rwa [retired, isStopped_retire]
  · cases move with
    | schedule timing body => rw [perform, isStopped_schedule, stopped]
    | order order =>
        cases order with
        | cancel other => rw [perform, Scheduler.obey, isStopped_cancel, stopped, Bool.or_true]
        | cancelSession closed =>
            rw [perform, Scheduler.obey, isStopped_cancelSession, stopped, Bool.or_true]
        | shutDown => exact isStopped_shutDown _ id
    | pass seconds => exact stopped
    | start _ | finish _ _ => exact absurd trivial turn

theorem nextId_perform (workshop : Workshop β) (move : Move β) :
    (workshop.perform move).scheduler.nextId =
      match move with
      | .schedule _ _ => workshop.scheduler.nextId + 1
      | _ => workshop.scheduler.nextId := by
  by_cases turn : move.IsTurn
  · have same : (workshop.perform move).scheduler.nextId = workshop.scheduler.nextId := by
      rcases workshop.turn_cases turn workshop with
        ⟨-, same | ⟨task, period, -, -, rearmed⟩⟩ | ⟨task, -, -, retired⟩
      · rw [same]
      · rw [rearmed]
        rfl
      · rw [retired, nextId_retire]
    cases move with
    | start _ | finish _ _ => exact same
    | _ => exact turn.elim
  · cases move with
    | schedule timing body => exact nextId_schedule workshop.scheduler timing body
    | order order => exact nextId_obeyAll [order]
    | pass seconds => rfl
    | start _ | finish _ _ => exact absurd trivial turn

theorem nextId_le_perform (workshop : Workshop β) (move : Move β) :
    workshop.scheduler.nextId ≤ (workshop.perform move).scheduler.nextId := by
  rw [nextId_perform]
  split
  · exact Nat.le_succ _
  · exact Nat.le_refl _

end Frame

/-! ## Runs that are single moves -/

section Single

variable {first second : Scheduler β}

/-- A workshop in which no task runs. -/
def idle (scheduler : Scheduler β) : Workshop β := { scheduler }

theorem leads_perform (workshop : Workshop β) (move : Move β)
    (timely : Event.Timely ⟨workshop, move, workshop.perform move⟩) :
    machine.Leads Event.Timely workshop (workshop.perform move) :=
  show machine.Leads Event.Timely workshop (machine.apply workshop move) from .step move timely

/-- The orders of a body, given while it runs. -/
theorem leads_orders (workshop : Workshop β) (orders : List Order) :
    machine.Leads Event.Timely workshop
      { workshop with scheduler := workshop.scheduler.obeyAll orders } := by
  induction orders generalizing workshop with
  | nil => exact .refl workshop
  | cons first rest inductionHypothesis =>
      exact (workshop.leads_perform (.order first) trivial).trans (inductionHypothesis _)

/-- A run that is a single move, taken apart: the turn of the task, its orders and its ending. -/
theorem leads_fire {scheduler : Scheduler β} {id : TaskId} (isDue : scheduler.IsDue id)
    (orders : List Order) (ending : Ending) :
    machine.Leads Event.Timely (idle scheduler)
      (idle (scheduler.perform (.fire id orders ending))) := by
  obtain ⟨task, found, -⟩ := Option.bind_eq_some_iff.mp isDue
  have turn := (idle scheduler).leads_perform (.start id) ⟨isDue, rfl⟩
  rw [perform] at turn
  cases stopped : scheduler.isStopped id with
  | true =>
      rw [start_of_stopped rfl found stopped] at turn
      rw [scheduler.perform_fire_of_stopped found stopped]
      exact turn
  | false =>
      rw [start_of_running rfl found stopped] at turn
      rw [scheduler.perform_fire_of_running found stopped]
      have named : task.id = id := id_of_task? found
      let ran : Workshop β := ⟨scheduler.obeyAll orders, [task]⟩
      have found : ran.running? id = some task := List.find?_cons_of_pos (decide_eq_true named)
      have none : ran.running.filter (·.id ≠ id) = [] :=
        List.filter_cons_of_neg (by simpa using named)
      have ended := ran.leads_perform (.finish id ending) trivial
      rw [perform, finish_of_running found, none] at ended
      exact (turn.trans (leads_orders _ orders)).trans ended

/-- A scheduler whose runs are single moves goes from one idle workshop to the next. -/
theorem leads_of_timelyFrom (timely : Scheduler.TimelyFrom first second) :
    machine.Leads Event.Timely (idle first) (idle second) := by
  obtain ⟨moves, rfl, timely⟩ := timely
  induction moves generalizing first with
  | nil => exact .refl _
  | cons move rest inductionHypothesis =>
      obtain ⟨here, later⟩ := List.forall_mem_cons.mp timely
      refine Machine.Leads.trans ?_ (inductionHypothesis later)
      cases move with
      | schedule timing body => exact (idle first).leads_perform (.schedule timing body) trivial
      | order order => exact (idle first).leads_perform (.order order) trivial
      | pass seconds => exact (idle first).leads_perform (.pass seconds) here
      | fire id orders ending => exact leads_fire here orders ending

/-- Whatever is asked of a rehearsal, its scheduler is that of a workshop. -/
theorem leads_rehearsal (requests : List Rehearsal.Request) :
    machine.Leads Event.Timely fresh
      (idle (requests.foldl Rehearsal.serve .fresh).scheduler) :=
  leads_of_timelyFrom (Rehearsal.timelyFrom_fresh requests)

end Single

end Workshop

end SessionServer
