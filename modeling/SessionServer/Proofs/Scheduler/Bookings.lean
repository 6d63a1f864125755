import Mathlib.Data.List.Nodup
import SessionServer.Proofs.Scheduler.Workshop

/-!
Contract: what every move of a workshop keeps of the tracking, and what it makes of it.

Owns:
- `Scheduler.Booked`, what the operations of a scheduler keep of the tracking;
- `Workshop.Orderly`, the same with the runs that are in progress;
- `Event.scheduled?` and `Event.clears`, the events that add to the tasks tracked under a connection
  and that drop them all;
- `Orderly.trackedUnder_perform`, what a move makes of the tasks tracked under a connection, and
  `mem_trackedUnder_run`, what a run makes of one of them.

One move tells everything: it drops the tasks of a connection that are cancelled together, or it drops
a task that ends, or it adds a task that is scheduled. Who removes a task, and whether the task runs
at that time, makes no difference to the others.
-/

namespace SessionServer

/-! ## What every operation keeps -/

namespace Scheduler

variable {β : Type} {scheduler : Scheduler β} {task : Task β}

/-- What every operation keeps of the tracking: a task that is tracked waits, once and under its own
connection, and no connection is tracked for nothing. -/
structure Booked (scheduler : Scheduler β) : Prop where
  numbered : ∀ {id task}, scheduler.task? id = some task → id < scheduler.nextId
  owned : ∀ {connection id}, id ∈ scheduler.trackedUnder connection →
    ∃ task, scheduler.task? id = some task ∧ task.timing.connection? = some connection
  once : ∀ connection, (scheduler.trackedUnder connection).Nodup
  nonempty : ∀ connection, scheduler.tracked.get? connection ≠ some []

theorem Booked.lt_nextId (booked : scheduler.Booked) {connection : ConnectionId} {id : TaskId}
    (tracked : id ∈ scheduler.trackedUnder connection) : id < scheduler.nextId := by
  obtain ⟨task, found, -⟩ := booked.owned tracked
  exact booked.numbered found

/-- The next number is the number of no task. -/
theorem Booked.free (booked : scheduler.Booked) : scheduler.task? scheduler.nextId = none :=
  Option.eq_none_iff_forall_ne_some.mpr fun _ found => Nat.lt_irrefl _ (booked.numbered found)

theorem booked_fresh : (fresh : Scheduler β).Booked where
  numbered found := nomatch found
  owned tracked := nomatch tracked
  once _ := List.nodup_nil
  nonempty _ := nofun

theorem Booked.schedule (booked : scheduler.Booked) (timing : Timing) (body : β) :
    (scheduler.schedule timing body).2.Booked := by
  constructor
  · intro id task found
    rw [nextId_schedule]
    rw [task?_schedule, Option.or_eq_some_iff] at found
    rcases found with old | ⟨-, new⟩
    · exact Nat.lt_succ_of_lt (booked.numbered old)
    · split at new
      · next same => exact same ▸ Nat.lt_succ_self _
      · cases new
  · intro connection id tracked
    rw [task?_schedule]
    rcases (mem_trackedUnder_schedule scheduler).mp tracked with old | ⟨own, rfl⟩
    · obtain ⟨task, found, timing⟩ := booked.owned old
      exact ⟨task, by rw [found, Option.some_or], timing⟩
    · exact ⟨_, by rw [booked.free, Option.none_or, if_pos rfl], own⟩
  · intro connection
    rw [trackedUnder_schedule]
    split
    · refine (booked.once connection).append (List.nodup_singleton _) ?_
      rw [List.disjoint_singleton]
      exact fun tracked => Nat.lt_irrefl _ (booked.lt_nextId tracked)
    · rw [List.append_nil]
      exact booked.once connection
  · intro connection
    rw [get?_tracked_schedule]
    split
    · simp
    · exact booked.nonempty connection

theorem Booked.obey (booked : scheduler.Booked) (order : Order) :
    (scheduler.obey order).Booked := by
  cases order with
  | cancel id => exact ⟨booked.numbered, booked.owned, booked.once, booked.nonempty⟩
  | cancelSession closed =>
      refine ⟨booked.numbered, ?_, ?_, ?_⟩
      · intro connection id tracked
        exact booked.owned ((mem_trackedUnder_cancelSession scheduler).mp tracked).2
      · intro connection
        rw [Scheduler.obey, trackedUnder_cancelSession]
        split
        · exact List.nodup_nil
        · exact booked.once connection
      · intro connection
        rw [Scheduler.obey, get?_tracked_cancelSession]
        split
        · exact (Option.some_ne_none _).symm
        · exact booked.nonempty connection
  | shutDown =>
      refine ⟨booked.numbered, ?_, fun _ => List.nodup_nil, ?_⟩
      · intro connection id tracked
        cases tracked
      · intro connection untracked
        cases untracked

/-- A waiting task that is retired is tracked no more, under whatever connection. -/
theorem Booked.trackedUnder_retire (booked : scheduler.Booked)
    (found : scheduler.task? task.id = some task) (connection : ConnectionId) :
    (scheduler.retire task).trackedUnder connection =
      (scheduler.trackedUnder connection).filter (· ≠ task.id) := by
  rw [Scheduler.trackedUnder_retire]
  split
  · rfl
  · next other =>
      symm
      apply List.filter_eq_self.mpr
      intro id tracked
      apply decide_eq_true
      rintro rfl
      obtain ⟨owner, known, own⟩ := booked.owned tracked
      cases found.symm.trans known
      exact other own

theorem Booked.retire (booked : scheduler.Booked)
    (found : scheduler.task? task.id = some task) : (scheduler.retire task).Booked := by
  have tracking := booked.trackedUnder_retire found
  constructor
  · intro id other known
    rw [task?_retire] at known
    rw [nextId_retire]
    split at known
    · cases known
    · exact booked.numbered known
  · intro connection id tracked
    rw [tracking] at tracked
    obtain ⟨before, apart⟩ := List.mem_filter.mp tracked
    rw [task?_retire, if_neg (Ne.symm (of_decide_eq_true apart))]
    exact booked.owned before
  · intro connection
    rw [tracking]
    exact (booked.once connection).filter _
  · intro connection
    rw [get?_tracked_retire]
    split
    · intro empty
      cases (Option.filter_eq_some_iff.mp empty).2
    · exact booked.nonempty connection

theorem Booked.rearm (booked : scheduler.Booked) (armed : TaskId) (period : Nat) :
    (scheduler.rearm armed period).Booked := by
  refine ⟨?_, ?_, booked.once, booked.nonempty⟩
  · intro id task found
    rw [task?_rearm] at found
    split at found
    · obtain ⟨before, known, -⟩ := Option.map_eq_some_iff.mp found
      exact booked.numbered known
    · exact booked.numbered found
  · intro connection id tracked
    obtain ⟨task, found, own⟩ := booked.owned tracked
    rw [task?_rearm, found]
    split
    · exact ⟨_, rfl, own⟩
    · exact ⟨task, rfl, own⟩

end Scheduler

namespace Workshop

open Scheduler

variable {β : Type}

/-! ## Events that change the tracking -/

namespace Event

/-- The session task that is scheduled under the connection. -/
def scheduled? (connection : ConnectionId) (event : Event β) : Option TaskId :=
  match event.step with
  | .schedule timing _ =>
      if timing.connection? = some connection then some event.before.scheduler.nextId else none
  | _ => none

/-- The tasks of the connection are cancelled together, or the scheduler is shut down. -/
def clears (connection : ConnectionId) (event : Event β) : Bool :=
  match event.step with
  | .order (.cancelSession closed) => closed = connection
  | .order .shutDown => true
  | _ => false

end Event

theorem eq_nextId_of_scheduled? {connection : ConnectionId} {id : TaskId} {event : Event β}
    (new : Event.scheduled? connection event = some id) :
    id = event.before.scheduler.nextId := by
  unfold Event.scheduled? at new
  split at new
  · split at new
    · exact (Option.some.inj new).symm
    · cases new
  · cases new

/-! ## One move -/

/-- What every move keeps: the scheduler is booked, and a task that runs waits for its next turn. -/
structure Orderly (workshop : Workshop β) : Prop where
  booked : workshop.scheduler.Booked
  held : ∀ {id task}, workshop.running? id = some task → workshop.scheduler.task? id = some task

theorem orderly_fresh : (fresh : Workshop β).Orderly where
  booked := booked_fresh
  held run := nomatch run

section Moves

variable {workshop : Workshop β} {move : Move β} {id : TaskId} {connection : ConnectionId}

/-- A task that ends is found under its own number. -/
theorem Orderly.found (orderly : workshop.Orderly) {task : Task β}
    (listed : workshop.scheduler.task? task.id = some task ∨
      workshop.running? task.id = some task) : workshop.scheduler.task? task.id = some task :=
  listed.elim id orderly.held

theorem Orderly.booked_perform (orderly : workshop.Orderly) (move : Move β) :
    (workshop.perform move).scheduler.Booked := by
  by_cases turn : move.IsTurn
  · rcases workshop.turn_cases turn workshop with
      ⟨-, same | ⟨task, period, -, -, rearmed⟩⟩ | ⟨task, listed, -, retired⟩
    · rw [same]
      exact orderly.booked
    · rw [rearmed]
      exact orderly.booked.rearm task.id period
    · rw [retired]
      exact orderly.booked.retire (orderly.found listed)
  · cases move with
    | schedule timing body => exact orderly.booked.schedule timing body
    | order order => exact orderly.booked.obey order
    | pass seconds =>
        exact ⟨orderly.booked.numbered, orderly.booked.owned, orderly.booked.once,
          orderly.booked.nonempty⟩
    | start _ | finish _ _ => exact absurd trivial turn

theorem Orderly.perform (orderly : workshop.Orderly) (move : Move β) :
    (workshop.perform move).Orderly := by
  refine ⟨orderly.booked_perform move, ?_⟩
  intro id task run
  by_cases concerns : move.Concerns workshop id
  · cases move with
    | schedule timing body =>
        cases (concerns : workshop.scheduler.nextId = id)
        exact absurd (orderly.booked.numbered (orderly.held run)) (Nat.lt_irrefl _)
    | order order => cases concerns
    | pass seconds => cases concerns
    | start turn =>
        cases (concerns : turn = id)
        rw [Workshop.perform] at run ⊢
        rcases workshop.start_cases id with
          ⟨-, same⟩ | ⟨waiting, idle, found, ⟨-, retired⟩ | ⟨-, begun⟩⟩
        · rw [same] at run ⊢
          exact orderly.held run
        · rw [retired] at run
          cases idle.symm.trans run
        · rw [begun, running?_begun idle (id_of_task? found)] at run
          cases run
          rwa [begun]
    | finish ended ending =>
        cases (concerns : ended = id)
        rw [Workshop.perform, running?_finish] at run
        cases run
  · rw [running?_perform concerns] at run
    rw [task?_perform concerns]
    exact orderly.held run

/-- Of the tasks that have been given a number, a move lets those go that end. -/
theorem task?_eq_none_perform (known : id < workshop.scheduler.nextId) (move : Move β) :
    (workshop.perform move).scheduler.task? id = none ↔
      workshop.scheduler.task? id = none ∨
        Event.ends id ⟨workshop, move, workshop.perform move⟩ = true := by
  by_cases turn : move.IsTurn
  · rcases workshop.turn_cases turn (workshop.perform move) with
      ⟨none, same | ⟨task, period, -, -, rearmed⟩⟩ | ⟨task, -, ends, retired⟩
    · rw [same, none, or_iff_left Bool.false_ne_true]
    · rw [rearmed, none, or_iff_left Bool.false_ne_true, task?_rearm]
      split
      · exact Option.map_eq_none_iff
      · rfl
    · rw [retired, ends, decide_eq_true_eq, task?_retire]
      split
      · next ended => exact iff_of_true rfl (.inr ended)
      · next other => exact (or_iff_left other).symm
  · have other : ¬move.Concerns workshop id := by
      cases move with
      | schedule timing body => exact Nat.ne_of_gt known
      | start _ | finish _ _ => exact absurd trivial turn
      | _ => exact not_false
    rw [task?_perform other, ends_of_not_turn turn, or_iff_left Bool.false_ne_true]

/-- What a move makes of the tasks tracked under a connection: it drops them all if it cancels them
together; else it drops the one that ends and adds the one that is scheduled. -/
theorem Orderly.trackedUnder_perform (orderly : workshop.Orderly) (move : Move β)
    (connection : ConnectionId) {event : Event β}
    (here : event = ⟨workshop, move, workshop.perform move⟩) :
    (workshop.perform move).scheduler.trackedUnder connection =
      if Event.clears connection event = true then []
      else (workshop.scheduler.trackedUnder connection).filter (fun id => !Event.ends id event) ++
        (Event.scheduled? connection event).toList := by
  subst here
  by_cases turn : move.IsTurn
  · have keeps : Event.clears connection ⟨workshop, move, workshop.perform move⟩ = false := by
      cases move with
      | start _ | finish _ _ => rfl
      | _ => exact turn.elim
    have adds : Event.scheduled? connection ⟨workshop, move, workshop.perform move⟩ = none := by
      cases move with
      | start _ | finish _ _ => rfl
      | _ => exact turn.elim
    rw [keeps, if_neg Bool.false_ne_true, adds, Option.toList_none, List.append_nil]
    rcases workshop.turn_cases turn (workshop.perform move) with
      ⟨none, same | ⟨task, period, -, -, rearmed⟩⟩ | ⟨task, listed, ends, retired⟩
    · rw [same]
      exact (List.filter_eq_self.mpr fun id _ => by rw [none, Bool.not_false]).symm
    · rw [rearmed]
      exact (List.filter_eq_self.mpr fun id _ => by rw [none, Bool.not_false]).symm
    · rw [retired, orderly.booked.trackedUnder_retire (orderly.found listed)]
      apply List.filter_congr
      intro id _
      rw [ends, ← decide_not, decide_eq_decide]
      exact ne_comm
  · have kept : (workshop.scheduler.trackedUnder connection).filter
        (fun id => !Event.ends id ⟨workshop, move, workshop.perform move⟩) =
          workshop.scheduler.trackedUnder connection :=
      List.filter_eq_self.mpr fun id _ => by rw [ends_of_not_turn turn, Bool.not_false]
    rw [kept]
    cases move with
    | schedule timing body =>
        rw [Workshop.perform, trackedUnder_schedule]
        show _ = _ ++ (if timing.connection? = some connection then
          some workshop.scheduler.nextId else Option.none).toList
        split <;> rfl
    | order order =>
        cases order with
        | cancel other => exact (List.append_nil _).symm
        | cancelSession closed =>
            rw [Workshop.perform, Scheduler.obey, trackedUnder_cancelSession]
            show _ = if decide (closed = connection) = true then _ else _ ++ []
            rw [List.append_nil]
            simp only [decide_eq_true_eq]
        | shutDown => rfl
    | pass seconds => exact (List.append_nil _).symm
    | start _ | finish _ _ => exact absurd trivial turn

/-- A task stays tracked under its connection until the tasks of the connection are cancelled together
or it ends. -/
theorem Orderly.mem_trackedUnder_perform (orderly : workshop.Orderly)
    (known : id < workshop.scheduler.nextId) (connection : ConnectionId) {event : Event β}
    (here : event = ⟨workshop, move, workshop.perform move⟩) :
    id ∈ (workshop.perform move).scheduler.trackedUnder connection ↔
      Event.clears connection event = false ∧
        id ∈ workshop.scheduler.trackedUnder connection ∧ Event.ends id event = false := by
  have old : Event.scheduled? connection event ≠ some id := by
    intro new
    rw [eq_nextId_of_scheduled? new, here] at known
    exact Nat.lt_irrefl _ known
  rw [orderly.trackedUnder_perform move connection here]
  split
  · next clears => simp [clears]
  · next keeps =>
      rw [List.mem_append, Option.mem_toList, or_iff_left old, List.mem_filter, Bool.not_eq_true',
        and_iff_right (Bool.eq_false_iff.mpr keeps)]

/-- A task ends only if it has been scheduled. -/
theorem Orderly.lt_nextId_of_ends (orderly : workshop.Orderly) {move : Move β}
    (ends : Event.ends id ⟨workshop, move, workshop.perform move⟩ = true) :
    id < workshop.scheduler.nextId := by
  by_cases turn : move.IsTurn
  · rcases workshop.turn_cases turn (workshop.perform move) with
      ⟨none, -⟩ | ⟨task, listed, only, -⟩
    · rw [none] at ends
      cases ends
    · rw [only, decide_eq_true_eq] at ends
      exact ends ▸ orderly.booked.numbered (orderly.found listed)
  · rw [ends_of_not_turn turn] at ends
    cases ends

/-- A number that a move gives out is the number of a waiting task. -/
theorem task?_perform_of_new {move : Move β} (free : ¬id < workshop.scheduler.nextId)
    (given : id < (workshop.perform move).scheduler.nextId) :
    (workshop.perform move).scheduler.task? id ≠ none := by
  rw [nextId_perform] at given
  cases move with
  | schedule timing body =>
      have same : workshop.scheduler.nextId = id :=
        Nat.le_antisymm (Nat.not_lt.mp free) (Nat.le_of_lt_succ given)
      rw [perform, task?_schedule, if_pos same, Ne, Option.or_eq_none_iff]
      exact fun missing => Option.some_ne_none _ missing.2
  | _ => exact absurd given free

/-! ## Runs of a workshop -/

theorem orderly_run {start : Workshop β} (orderly : start.Orderly) (moves : List (Move β)) :
    (machine.run start moves).Orderly :=
  machine.run_invariant Orderly orderly (fun _ move orderly => orderly.perform move) moves

/-- However a run goes on, a task that is tracked stays so as long as the tasks of its connection are
not cancelled together and it has not ended. -/
theorem mem_trackedUnder_run {start : Workshop β} (orderly : start.Orderly)
    (tracked : id ∈ start.scheduler.trackedUnder connection) (moves : List (Move β)) :
    id ∈ (machine.run start moves).scheduler.trackedUnder connection ↔
      (∀ event ∈ machine.trace start moves, Event.clears connection event = false) ∧
        (machine.run start moves).scheduler.task? id ≠ none := by
  obtain ⟨task, found, -⟩ := orderly.booked.owned tracked
  refine (machine.run_induction (fun history state => state.Orderly ∧
    id < state.scheduler.nextId ∧ (id ∈ state.scheduler.trackedUnder connection ↔
      (∀ event ∈ history, Event.clears connection event = false) ∧
        state.scheduler.task? id ≠ none)) ?_ ?_ moves).2.2
  · exact ⟨orderly, orderly.booked.numbered found, iff_of_true tracked
      ⟨nofun, fun missing => nomatch found.symm.trans missing⟩⟩
  · intro history state move ⟨orderly, known, listed⟩
    refine ⟨orderly.perform move, Nat.lt_of_lt_of_le known (state.nextId_le_perform move), ?_⟩
    rw [show machine.apply state move = state.perform move from rfl,
      orderly.mem_trackedUnder_perform known connection rfl, listed, List.forall_mem_append,
      List.forall_mem_singleton]
    simp only [ne_eq, task?_eq_none_perform known, not_or, Bool.not_eq_true]
    tauto

end Moves

end Workshop

end SessionServer
