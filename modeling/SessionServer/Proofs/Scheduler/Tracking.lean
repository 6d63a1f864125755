import Mathlib.Data.List.DropRight
import SessionServer.Proofs.Data.OrderedMap
import SessionServer.Proofs.Scheduler.Departures

/-!
Contract: which tasks are tracked under a connection, told exactly from what has happened.

Owns:
- `Workshop.live`, the session tasks that were scheduled under a connection since its tasks were last
  cancelled together and that have not ended;
- `Workshop.Told`: in every state that a run leads to, these are the tracked ones;
- `Workshop.TracksExactly` and `Workshop.KeepsTime`, and the theorem that every run of a workshop does
  the first, and the second if it keeps to the rule of the clock.
-/

namespace SessionServer.Workshop

open Scheduler

variable {β : Type}

/-! ## What a history says about the tracking -/

/-- Whether the task has ended. -/
def ended (id : TaskId) (history : List (Event β)) : Bool := history.any (Event.ends id)

/-- The session tasks scheduled under a connection since its tasks were last cancelled together, in
the order in which they were scheduled. -/
def scheduledSince (connection : ConnectionId) (history : List (Event β)) : List TaskId :=
  (history.rtakeWhile fun event => !Event.clears connection event).filterMap
    (Event.scheduled? connection)

/-- Those of them that have not ended. -/
def live (connection : ConnectionId) (history : List (Event β)) : List TaskId :=
  (scheduledSince connection history).filter fun id => !ended id history

section Histories

variable {connection : ConnectionId} {id : TaskId} {history : List (Event β)} {event : Event β}
  {workshop : Workshop β}

theorem ended_snoc :
    ended id (history ++ [event]) = (ended id history || Event.ends id event) := by
  unfold ended
  rw [List.any_append, List.any_cons, List.any_nil, Bool.or_false]

theorem scheduledSince_snoc :
    scheduledSince connection (history ++ [event]) =
      if Event.clears connection event = true then []
      else scheduledSince connection history ++ (Event.scheduled? connection event).toList := by
  unfold scheduledSince
  cases clears : Event.clears connection event with
  | true => rw [List.rtakeWhile_concat_neg _ _ _ (by simp [clears]), if_pos rfl, List.filterMap_nil]
  | false =>
      rw [List.rtakeWhile_concat_pos _ _ _ (by simp [clears]), if_neg Bool.false_ne_true,
        List.filterMap_append]
      congr 1

theorem live_snoc
    (new : ∀ id, Event.scheduled? connection event = some id → ended id (history ++ [event]) = false) :
    live connection (history ++ [event]) =
      if Event.clears connection event = true then []
      else (live connection history).filter (fun id => !Event.ends id event) ++
        (Event.scheduled? connection event).toList := by
  unfold live
  rw [scheduledSince_snoc]
  split
  · rfl
  · rw [List.filter_append, List.filter_filter]
    congr 1
    · apply List.filter_congr
      intro id _
      rw [ended_snoc, Bool.not_or, Bool.and_comm]
    · apply List.filter_eq_self.mpr
      intro id member
      rw [new id (Option.mem_toList.mp member), Bool.not_false]

/-! ## What every move keeps -/

/-- A history tells which tasks have ended and which are tracked. -/
structure Told (history : List (Event β)) (workshop : Workshop β) : Prop where
  orderly : workshop.Orderly
  ended : ∀ id, Workshop.ended id history = true ↔
    id < workshop.scheduler.nextId ∧ workshop.scheduler.task? id = none
  tokens : ∀ connection, workshop.scheduler.trackedUnder connection = live connection history

theorem told_fresh : Told [] (fresh : Workshop β) where
  orderly := orderly_fresh
  ended _ := iff_of_false Bool.false_ne_true fun ⟨given, _⟩ => Nat.not_lt_zero _ given
  tokens _ := rfl

theorem Told.ended_perform (told : Told history workshop) (move : Move β) (id : TaskId) :
    Workshop.ended id (history ++ [⟨workshop, move, workshop.perform move⟩]) = true ↔
      id < (workshop.perform move).scheduler.nextId ∧
        (workshop.perform move).scheduler.task? id = none := by
  rw [ended_snoc, Bool.or_eq_true, told.ended]
  by_cases known : id < workshop.scheduler.nextId
  · have later := Nat.lt_of_lt_of_le known (workshop.nextId_le_perform move)
    rw [task?_eq_none_perform known, and_iff_right known, and_iff_right later]
  · refine iff_of_false ?_ fun ⟨given, missing⟩ => task?_perform_of_new known given missing
    rintro (⟨before, -⟩ | ends)
    · exact known before
    · exact known (told.orderly.lt_nextId_of_ends ends)

theorem Told.perform (told : Told history workshop) (move : Move β) :
    Told (history ++ [⟨workshop, move, workshop.perform move⟩]) (workshop.perform move) := by
  refine ⟨told.orderly.perform move, told.ended_perform move, ?_⟩
  intro connection
  rw [told.orderly.trackedUnder_perform move connection rfl, told.tokens]
  symm
  apply live_snoc
  intro id new
  rw [Bool.eq_false_iff]
  intro ended
  obtain ⟨given, missing⟩ := (told.ended_perform move id).mp ended
  have free : ¬id < workshop.scheduler.nextId := by
    rw [eq_nextId_of_scheduled? new]
    exact Nat.lt_irrefl _
  exact task?_perform_of_new free given missing

theorem told_run (moves : List (Move β)) :
    Told (machine.trace fresh moves) (machine.run fresh moves) :=
  machine.run_induction Told told_fresh (fun _ _ move told => told.perform move) moves

end Histories

/-! ## The tracking of session tasks -/

/-- The tasks tracked under the connections, told from everything that has happened. -/
structure TracksExactly (history : List (Event β)) (final : Workshop β) : Prop where
  /-- Tracked under a connection are the session tasks that were scheduled under it since its tasks
  were last cancelled together and that have not ended, in the order in which they were scheduled. -/
  tokens : ∀ connection, final.scheduler.trackedUnder connection = live connection history
  once : ∀ connection, (live connection history).Nodup
  /-- A task has ended if it has been scheduled and is not there any more. -/
  ended : ∀ id, ended id history = true ↔
    id < final.scheduler.nextId ∧ final.scheduler.task? id = none
  /-- A tracked task whose own handle is cancelled stays tracked until its next turn, or until its run
  is over if it runs at that time, and not longer. -/
  leaves : ∀ earlier event later id connection, history = earlier ++ event :: later →
    event.step = .order (.cancel id) → id ∈ event.before.scheduler.trackedUnder connection →
      (∀ next ∈ later, Event.clears connection next = false) →
        (id ∈ final.scheduler.trackedUnder connection ↔
          ∀ next ∈ later, ¬next.step.Closes id (event.before.isRunning id))
  /-- It does not run again. -/
  halted : ∀ earlier event later id, history = earlier ++ event :: later →
    event.step = .order (.cancel id) → ∀ next ∈ later, Event.starts id next = false
  /-- No connection is tracked with an empty list. -/
  nonempty : ∀ connection, final.scheduler.tracked.get? connection ≠ some []
  count : final.scheduler.trackedSessions = {connection | live connection history ≠ []}.ncard
  /-- To cancel the tasks of a connection counts them and marks them and no others. -/
  cancels : ∀ connection,
    (final.scheduler.cancelSession connection).1 = (live connection history).length ∧
      ∀ id, (final.scheduler.cancelSession connection).2.isCancelled id = true ↔
        final.scheduler.isCancelled id = true ∨ id ∈ live connection history

/-- When tracked tasks leave, told for a history that keeps to the rule of the clock. -/
structure KeepsTime (history : List (Event β)) (final : Workshop β) : Prop where
  /-- A task whose own handle is cancelled while it waits has its last turn when it is due, and its due
  time does not go by without that turn. -/
  turn : ∀ earlier event later id, history = earlier ++ event :: later →
    event.step = .order (.cancel id) → event.before.awaits id = true →
      (∀ next ∈ later, next.step = .start id →
        (event.before.scheduler.task? id).bind Task.due = some next.before.scheduler.now) ∧
      ∀ moment, (event.before.scheduler.task? id).bind Task.due = some moment →
        moment < final.scheduler.now → ∃ next ∈ later, next.step = .start id
  /-- A session task of period zero stays until the tasks of its connection are cancelled together,
  whatever becomes of its own handle. -/
  idle : ∀ earlier event later connection body, history = earlier ++ event :: later →
    event.step = .schedule (.session connection 0) body →
      (event.before.scheduler.nextId ∈ final.scheduler.trackedUnder connection ↔
        ∀ next ∈ later, Event.clears connection next = false)

section Theorem

variable {history : List (Event β)} {final : Workshop β} {moves : List (Move β)}

theorem Told.trackedSessions_eq (told : Told history final) :
    final.scheduler.trackedSessions = {connection | live connection history ≠ []}.ncard := by
  symm
  apply OrderedMap.ncard_keys
  intro connection
  rw [Set.mem_ofPred_eq, ← told.tokens, trackedUnder]
  cases tracked : final.scheduler.tracked.get? connection with
  | none => simp
  | some ids =>
      have nonempty : ids ≠ [] := by
        rintro rfl
        exact told.orderly.booked.nonempty connection tracked
      simpa using nonempty

theorem Told.cancelSession (told : Told history final) (connection : ConnectionId) :
    (final.scheduler.cancelSession connection).1 = (live connection history).length ∧
      ∀ id, (final.scheduler.cancelSession connection).2.isCancelled id = true ↔
        final.scheduler.isCancelled id = true ∨ id ∈ live connection history := by
  rw [← told.tokens]
  refine ⟨rfl, fun id => ?_⟩
  show (OrderedMap.contains (OrderedSet.addAll final.scheduler.cancelled _) id) = true ↔ _
  rw [OrderedSet.contains_addAll, Bool.or_eq_true, List.contains_iff_mem, Or.comm]
  rfl

/-- After every event of a run it goes on from an orderly workshop and the move that was made. -/
theorem resume {earlier later : List (Event β)} {event : Event β}
    (split : machine.trace fresh moves = earlier ++ event :: later) :
    event.before.Orderly ∧
      ∃ after, later = machine.trace (event.before.perform event.step) after ∧
        machine.run fresh moves = machine.run (event.before.perform event.step) after := by
  obtain ⟨before, after, reached, applied, ahead, final⟩ := Machine.resume_of_trace split
  rw [applied] at ahead final
  exact ⟨reached ▸ orderly_run orderly_fresh before, after, ahead, final⟩

theorem tracksExactly_run (moves : List (Move β)) :
    TracksExactly (machine.trace fresh moves) (machine.run fresh moves) := by
  have told := told_run moves
  constructor
  · exact told.tokens
  · intro connection
    rw [← told.tokens]
    exact told.orderly.booked.once connection
  · exact told.ended
  · intro earlier event later id connection split cancels tracked kept
    obtain ⟨orderly, after, ahead, final⟩ := resume split
    rw [cancels] at ahead final
    rw [final]
    subst ahead
    exact orderly.leaves tracked kept
  · intro earlier event later id split cancels next member
    obtain ⟨-, after, ahead, -⟩ := resume split
    rw [cancels] at ahead
    subst ahead
    exact starts_of_isStopped event.before.isStopped_perform_cancel member
  · exact told.orderly.booked.nonempty
  · exact told.trackedSessions_eq
  · exact told.cancelSession

theorem keepsTime_run (timely : ∀ event ∈ machine.trace fresh moves, Event.Timely event) :
    KeepsTime (machine.trace fresh moves) (machine.run fresh moves) := by
  have punctual := punctual_run timely
  constructor
  · intro earlier event later id split cancels waits
    obtain ⟨orderly, after, ahead, final⟩ := resume split
    rw [split] at timely
    have laterTimely := (List.forall_mem_cons.mp (List.forall_mem_append.mp timely).2).2
    rw [cancels] at ahead final
    subst ahead
    obtain ⟨task, found, idle⟩ := awaits_iff.mp waits
    have leaving := orderly.leaving_cancel found
    rw [isRunning_eq_false_iff.mpr idle] at leaving
    rw [final] at punctual ⊢
    rw [found, Option.bind_some]
    refine ⟨?_, ?_⟩
    · intro next member turn
      exact leaving.due_of_turn laterTimely member turn
    · intro moment due passed
      exact leaving.exists_turn punctual due passed
  · intro earlier event later connection body split schedules
    obtain ⟨orderly, after, ahead, final⟩ := resume split
    rw [split] at timely
    have laterTimely := (List.forall_mem_cons.mp (List.forall_mem_append.mp timely).2).2
    rw [schedules] at ahead final
    subst ahead
    rw [final]
    exact orderly.tracked_of_period_zero laterTimely

/-- Whatever is scheduled, ordered and run, exactly the session tasks are tracked that were scheduled
under their connection since its tasks were last cancelled together and that have not ended; and
those that leave, leave in time. -/
theorem session_tracking_exact (moves : List (Move β)) :
    TracksExactly (machine.trace fresh moves) (machine.run fresh moves) ∧
      ((∀ event ∈ machine.trace fresh moves, Event.Timely event) →
        KeepsTime (machine.trace fresh moves) (machine.run fresh moves)) :=
  ⟨tracksExactly_run moves, keepsTime_run⟩

/-- Two runs overlap. During its own run the handle of the first task is cancelled; the tasks of the
connection of the other one are cancelled together while it runs, and another task is scheduled for
that connection before the run is over. The handle of a third task is cancelled while it waits. -/
theorem session_tracking_exact_overlapping :
    let moves : List (Move Unit) :=
      [.schedule (.session ⟨1⟩ 2) (), .schedule (.session ⟨1⟩ 3) (),
        .schedule (.session ⟨1⟩ 0) (), .schedule (.session ⟨2⟩ 2) (), .pass 2, .start 0, .start 3,
        .order (.cancel 0), .order (.cancel 1), .order (.cancelSession ⟨2⟩),
        .schedule (.session ⟨2⟩ 5) (), .finish 3 .again, .finish 0 .again, .pass 1, .start 1]
    let final := machine.run fresh moves
    (∀ event ∈ machine.trace fresh moves, Event.Timely event) ∧
      final.scheduler.trackedUnder ⟨1⟩ = [2] ∧ final.scheduler.trackedUnder ⟨2⟩ = [4] ∧
      TracksExactly (machine.trace fresh moves) final ∧
      KeepsTime (machine.trace fresh moves) final := by
  intro moves final
  obtain ⟨exactly, onTime⟩ := session_tracking_exact moves
  have timely : ∀ event ∈ machine.trace fresh moves, Event.Timely event := by decide
  exact ⟨timely, by decide, by decide, exactly, onTime timely⟩

end Theorem

end SessionServer.Workshop
