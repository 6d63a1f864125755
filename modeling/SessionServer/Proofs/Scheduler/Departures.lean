import SessionServer.Proofs.Scheduler.Bookings

/-!
Contract: how a task leaves that may not run any more.

Owns:
- `Move.Closes`, the next turn of a task that waits and the end of the run of a task that runs;
- `Workshop.Leaving`, what every move keeps of a stopped task: it is there until such a move and gone
  after it;
- `Workshop.Punctual`: by the rule of the clock no waiting task is overdue, hence a stopped task that
  waits leaves when it is due, and one that is never due stays.
-/

namespace SessionServer.Workshop

open Scheduler

variable {β : Type}

/-! ## A task that may not run any more -/

/-- The move is the next turn of a task that waits, or the end of its run if it runs. -/
def Move.Closes (id : TaskId) (running : Bool) : Move β → Prop
  | .start turn => running = false ∧ turn = id
  | .finish ran _ => running = true ∧ ran = id
  | _ => False

section Leaving

variable {history : List (Event β)} {workshop : Workshop β} {id : TaskId} {running : Bool}
  {task : Task β} {move : Move β}

theorem Orderly.not_isRunning (orderly : workshop.Orderly)
    (missing : workshop.scheduler.task? id = none) : workshop.isRunning id = false := by
  rw [isRunning_eq_false_iff, Option.eq_none_iff_forall_ne_some]
  exact fun task run => nomatch missing.symm.trans (orderly.held run)

/-- The next turn of a task that may not run any more, or the end of its run, is its end. -/
theorem ends_of_closes (stopped : workshop.scheduler.isStopped id = true)
    (found : workshop.scheduler.task? id = some task) (runs : workshop.isRunning id = running)
    (closes : move.Closes id running) (after : Workshop β) :
    Event.ends id ⟨workshop, move, after⟩ = true := by
  cases move with
  | start turn =>
      obtain ⟨rfl, rfl⟩ := closes
      have waits := awaits_iff.mpr ⟨task, found, isRunning_eq_false_iff.mp runs⟩
      simp [Event.ends, waits, stopped]
  | finish ran ending =>
      obtain ⟨rfl, rfl⟩ := closes
      obtain ⟨running, run⟩ := Option.isSome_iff_exists.mp runs
      have last : workshop.scheduler.isLast ending running = true := by
        rw [isLast, id_of_running? run, stopped, Bool.or_true]
      simp [Event.ends, run, last]
  | _ => exact closes.elim

/-- Until then the task waits or runs on as it did. -/
theorem Orderly.keeps_of_not_closes (orderly : workshop.Orderly)
    (found : workshop.scheduler.task? id = some task) (runs : workshop.isRunning id = running)
    (other : ¬move.Closes id running) :
    (workshop.perform move).scheduler.task? id = some task ∧
      (workshop.perform move).isRunning id = running := by
  by_cases concerns : move.Concerns workshop id
  · have same : workshop.perform move = workshop := by
      cases move with
      | schedule timing body =>
          cases (concerns : workshop.scheduler.nextId = id)
          exact absurd (orderly.booked.numbered found) (Nat.lt_irrefl _)
      | start turn =>
          cases (concerns : turn = id)
          have busy : workshop.isRunning id = true := by
            rw [runs, ← Bool.not_eq_false]
            exact fun waits => other ⟨waits, rfl⟩
          apply start_of_not_awaits
          rw [awaits, busy, Bool.not_true, Bool.and_false]
      | finish ran ending =>
          cases (concerns : ran = id)
          apply finish_of_idle
          rw [← isRunning_eq_false_iff, runs, ← Bool.not_eq_true]
          exact fun busy => other ⟨busy, rfl⟩
      | _ => exact concerns.elim
    rw [same]
    exact ⟨found, runs⟩
  · rw [task?_perform concerns, isRunning, running?_perform concerns]
    exact ⟨found, runs⟩

/-- What is kept of a task that may not run any more: it waits for its next turn, or runs to the end
of its run, and is gone after that. -/
structure Leaving (id : TaskId) (running : Bool) (task : Task β) (history : List (Event β))
    (workshop : Workshop β) : Prop where
  orderly : workshop.Orderly
  known : id < workshop.scheduler.nextId
  stopped : workshop.scheduler.isStopped id = true
  phase : (∀ event ∈ history, ¬event.step.Closes id running) ∧
      workshop.scheduler.task? id = some task ∧ workshop.isRunning id = running ∨
    (∃ event ∈ history, event.step.Closes id running) ∧ workshop.scheduler.task? id = none

theorem Leaving.perform (leaving : Leaving id running task history workshop) (move : Move β) :
    Leaving id running task (history ++ [⟨workshop, move, workshop.perform move⟩])
      (workshop.perform move) := by
  refine ⟨leaving.orderly.perform move,
    Nat.lt_of_lt_of_le leaving.known (workshop.nextId_le_perform move),
    isStopped_perform leaving.stopped, ?_⟩
  have gone := task?_eq_none_perform leaving.known move
  rcases leaving.phase with ⟨pending, found, runs⟩ | ⟨⟨event, member, closed⟩, missing⟩
  · by_cases closes : move.Closes id running
    · refine .inr ⟨⟨_, List.mem_append_right _ List.mem_cons_self, closes⟩, gone.mpr (.inr ?_)⟩
      exact ends_of_closes leaving.stopped found runs closes _
    · refine .inl ⟨?_, leaving.orderly.keeps_of_not_closes found runs closes⟩
      exact List.forall_mem_append.mpr ⟨pending, List.forall_mem_singleton.mpr closes⟩
  · exact .inr ⟨⟨event, List.mem_append_left _ member, closed⟩, gone.mpr (.inl missing)⟩

theorem Leaving.run (leaving : Leaving id running task [] workshop) (moves : List (Move β)) :
    Leaving id running task (machine.trace workshop moves) (machine.run workshop moves) :=
  machine.run_induction (Leaving id running task) leaving
    (fun _ _ move leaving => leaving.perform move) moves

theorem isStopped_perform_cancel (workshop : Workshop β) :
    (workshop.perform (.order (.cancel id))).scheduler.isStopped id = true := by
  rw [Workshop.perform, Scheduler.obey, isStopped_cancel, decide_eq_true rfl, Bool.true_or]

/-- A task whose handle has just been cancelled is on its way out. -/
theorem Orderly.leaving_cancel (orderly : workshop.Orderly)
    (found : workshop.scheduler.task? id = some task) :
    Leaving id (workshop.isRunning id) task [] (workshop.perform (.order (.cancel id))) where
  orderly := orderly.perform _
  known := orderly.booked.numbered found
  stopped := workshop.isStopped_perform_cancel
  phase := .inl ⟨nofun, found, rfl⟩

/-- A tracked task whose own handle has just been cancelled stays tracked until its next turn, or the
end of its run, unless the tasks of its connection are cancelled together. -/
theorem Orderly.leaves (orderly : workshop.Orderly) {connection : ConnectionId}
    (tracked : id ∈ workshop.scheduler.trackedUnder connection) {moves : List (Move β)}
    (kept : ∀ event ∈ machine.trace (workshop.perform (.order (.cancel id))) moves,
      Event.clears connection event = false) :
    id ∈ (machine.run (workshop.perform (.order (.cancel id))) moves).scheduler.trackedUnder
        connection ↔
      ∀ event ∈ machine.trace (workshop.perform (.order (.cancel id))) moves,
        ¬event.step.Closes id (workshop.isRunning id) := by
  obtain ⟨task, found, -⟩ := orderly.booked.owned tracked
  have still : id ∈
      (workshop.perform (.order (.cancel id))).scheduler.trackedUnder connection := tracked
  rw [mem_trackedUnder_run (orderly.perform _) still, and_iff_right kept]
  rcases ((orderly.leaving_cancel found).run moves).phase with
    ⟨pending, found, -⟩ | ⟨⟨event, member, closes⟩, missing⟩
  · rw [found]
    exact iff_of_true nofun pending
  · exact iff_of_false (fun present => present missing) fun pending => pending event member closes

/-- No run of a task begins that may not run any more. -/
theorem starts_of_isStopped (stopped : workshop.scheduler.isStopped id = true)
    {moves : List (Move β)} {event : Event β} (member : event ∈ machine.trace workshop moves) :
    Event.starts id event = false := by
  have still := (Machine.trace_invariant
    (fun state : Workshop β => state.scheduler.isStopped id = true) stopped
    (fun _ _ => isStopped_perform) member).1
  unfold Event.starts
  split
  · next turn _ =>
      by_cases same : turn = id
      · rw [same, still, Bool.not_true, Bool.and_false, Bool.and_false]
      · rw [decide_eq_false same, Bool.false_and]
  · rfl

end Leaving

/-! ## The clock -/

section Clock

variable {history : List (Event β)} {workshop : Workshop β} {id : TaskId} {task : Task β}
  {move : Move β}

/-- No waiting task is overdue. -/
def Punctual (workshop : Workshop β) : Prop :=
  ∀ id task moment, workshop.scheduler.task? id = some task → task.due = some moment →
    workshop.scheduler.now ≤ moment

theorem Punctual.perform (punctual : workshop.Punctual)
    (timely : Event.Timely ⟨workshop, move, workshop.perform move⟩) :
    (workshop.perform move).Punctual := by
  intro id task moment found due
  by_cases turn : move.IsTurn
  · rcases workshop.turn_cases turn workshop with
      ⟨-, same | ⟨armed, period, -, -, rearmed⟩⟩ | ⟨ended, -, -, retired⟩
    · rw [same] at found ⊢
      exact punctual id task moment found due
    · rw [rearmed, task?_rearm] at found
      rw [rearmed]
      split at found
      · obtain ⟨before, -, rfl⟩ := Option.map_eq_some_iff.mp found
        cases due
        exact Nat.le_add_right _ _
      · exact punctual id task moment found due
    · rw [retired, task?_retire] at found
      rw [retired, now_retire]
      split at found
      · cases found
      · exact punctual id task moment found due
  · cases move with
    | schedule timing body =>
        rw [Workshop.perform, task?_schedule, Option.or_eq_some_iff] at found
        rw [Workshop.perform, now_schedule]
        rcases found with old | ⟨-, new⟩
        · exact punctual id task moment old due
        · split at new
          · cases new
            obtain ⟨delay, -, rfl⟩ := Option.map_eq_some_iff.mp due
            exact Nat.le_add_right _ _
          · cases new
    | order order =>
        have same : (workshop.perform (.order order)).scheduler =
            workshop.scheduler.obeyAll [order] := rfl
        rw [same, task?_obeyAll] at found
        rw [same, now_obeyAll]
        exact punctual id task moment found due
    | pass seconds => exact timely moment (mem_moments (mem_of_task? found) due)
    | start _ | finish _ _ => exact absurd trivial turn

theorem punctual_fresh : (fresh : Workshop β).Punctual := by
  intro id task moment found
  cases found

theorem punctual_run {moves : List (Move β)}
    (timely : ∀ event ∈ machine.trace fresh moves, Event.Timely event) :
    (machine.run (fresh : Workshop β) moves).Punctual :=
  Machine.run_invariant_of_rule Punctual punctual_fresh
    (fun _ _ timely punctual => punctual.perform timely) timely

variable {moves : List (Move β)}

/-- A task that waits and may not run any more has its last turn when it is due. -/
theorem Leaving.due_of_turn (leaving : Leaving id false task [] workshop)
    (timely : ∀ event ∈ machine.trace workshop moves, Event.Timely event) {event : Event β}
    (member : event ∈ machine.trace workshop moves) (turn : event.step = .start id) :
    task.due = some event.before.scheduler.now := by
  have here := timely event member
  rw [Event.Timely, turn] at here
  obtain ⟨waiting, found, due⟩ := Option.bind_eq_some_iff.mp here.1
  obtain ⟨earlier, later, split⟩ := List.append_of_mem member
  obtain ⟨before, -, reached, -⟩ := Machine.trace_eq_append_cons split
  rcases (leaving.run before).phase with ⟨-, still, -⟩ | ⟨-, missing⟩
  · rw [← reached, found] at still
    cases still
    exact due
  · rw [← reached, found] at missing
    cases missing

/-- Its due time does not go by without its turn. -/
theorem Leaving.exists_turn (leaving : Leaving id false task [] workshop)
    (punctual : (machine.run workshop moves).Punctual) {moment : Nat}
    (due : task.due = some moment) (passed : moment < (machine.run workshop moves).scheduler.now) :
    ∃ event ∈ machine.trace workshop moves, event.step = .start id := by
  rcases (leaving.run moves).phase with ⟨-, still, -⟩ | ⟨⟨event, member, closes⟩, -⟩
  · exact absurd passed (Nat.not_lt.mpr (punctual id task moment still due))
  · refine ⟨event, member, ?_⟩
    cases step : event.step with
    | start turn =>
        rw [step] at closes
        exact congrArg Move.start closes.2
    | finish ran ending =>
        rw [step] at closes
        cases closes.1
    | _ =>
        rw [step] at closes
        exact closes.elim

/-- A task that is never due waits for ever. -/
theorem Orderly.task?_run_of_undue (orderly : workshop.Orderly)
    (found : workshop.scheduler.task? id = some task) (undue : task.due = none)
    (waits : workshop.isRunning id = false)
    (timely : ∀ event ∈ machine.trace workshop moves, Event.Timely event) :
    (machine.run workshop moves).scheduler.task? id = some task := by
  refine (Machine.run_invariant_of_rule (fun state : Workshop β => state.Orderly ∧
    state.scheduler.task? id = some task ∧ state.isRunning id = false) ⟨orderly, found, waits⟩
    ?_ timely).2.1
  rintro state move timely ⟨orderly, found, waits⟩
  refine ⟨orderly.perform move, orderly.keeps_of_not_closes found waits ?_⟩
  intro closes
  cases move with
  | start turn =>
      obtain ⟨-, rfl⟩ := closes
      have due : state.scheduler.IsDue turn := timely.1
      rw [Scheduler.IsDue, found, Option.bind_some, undue] at due
      cases due
  | finish ran ending => cases closes.1
  | _ => exact closes.elim

/-- Hence a session task of period zero stays tracked until the tasks of its connection are cancelled
together. -/
theorem Orderly.tracked_of_period_zero (orderly : workshop.Orderly) {connection : ConnectionId}
    {body : β} (timely : ∀ event ∈ machine.trace
      (workshop.perform (.schedule (.session connection 0) body)) moves, Event.Timely event) :
    workshop.scheduler.nextId ∈ (machine.run (workshop.perform
        (.schedule (.session connection 0) body)) moves).scheduler.trackedUnder connection ↔
      ∀ event ∈ machine.trace (workshop.perform (.schedule (.session connection 0) body)) moves,
        Event.clears connection event = false := by
  have scheduled := orderly.perform (.schedule (.session connection 0) body)
  have found : (workshop.perform (.schedule (.session connection 0) body)).scheduler.task?
      workshop.scheduler.nextId =
        some ⟨workshop.scheduler.nextId, .session connection 0, none, body⟩ := by
    rw [Workshop.perform, task?_schedule, orderly.booked.free, if_pos rfl]
    rfl
  have tracked : workshop.scheduler.nextId ∈ (workshop.perform
      (.schedule (.session connection 0) body)).scheduler.trackedUnder connection := by
    rw [Workshop.perform, mem_trackedUnder_schedule]
    exact .inr ⟨rfl, rfl⟩
  have waits : (workshop.perform (.schedule (.session connection 0) body)).isRunning
      workshop.scheduler.nextId = false := orderly.not_isRunning orderly.booked.free
  rw [mem_trackedUnder_run scheduled tracked, scheduled.task?_run_of_undue found rfl waits timely]
  exact and_iff_left (Option.some_ne_none _)

end Clock

end SessionServer.Workshop
