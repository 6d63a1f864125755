import SessionServer.Proofs.Scheduler.Moves

/-!
Contract: when a task runs, told exactly from what has been asked of its scheduler.

Owns:
- `Timing.moment?`, the timetable of a task;
- `Scheduler.Undisturbed`, that nothing in a history keeps a task from running on;
- `Scheduler.Kept`, what every move keeps of a task that was scheduled, and of one that has ended;
- `Scheduler.FollowsTimetable` and the theorem that every task does so in every run of a scheduler in
  simulated time.

A task either waits for the next moment of its timetable, and then it is stopped exactly if its
handle has been cancelled or the scheduler shut down, or it has ended for a reason that the history
shows. Everything else follows from that.
-/

namespace SessionServer

/-! ## The timetable -/

namespace Timing

/-- The moment of the run with so many runs before it, for a task scheduled at `start`. -/
def moment? (timing : Timing) (start count : Nat) : Option Nat :=
  match timing with
  | .once delay => if count = 0 then some (start + delay) else none
  | .repeating period | .session _ period =>
      if period = 0 then none else some (start + (count + 1) * period)

theorem moment?_zero (timing : Timing) (start : Nat) :
    timing.moment? start 0 = timing.firstDelay?.map (start + ·) := by
  cases timing with
  | once delay => rfl
  | repeating period | session connection period =>
      simp only [moment?, firstDelay?, Nat.zero_add, Nat.one_mul]
      split <;> rfl

theorem moment?_succ {timing : Timing} {start count moment period : Nat}
    (periodic : timing.period? = some period) (here : timing.moment? start count = some moment) :
    timing.moment? start (count + 1) = some (moment + period) := by
  cases timing with
  | once delay => cases periodic
  | repeating seconds | session connection seconds =>
      cases periodic
      simp only [moment?] at here ⊢
      split at here
      · cases here
      · next positive =>
          cases here
          rw [if_neg positive, Nat.add_one_mul (count + 1), Nat.add_assoc]

theorem moment?_of_single {timing : Timing} (single : timing.period? = none) (start count : Nat) :
    timing.moment? start (count + 1) = none := by
  cases timing with
  | once delay => rfl
  | _ => cases single

theorem moment?_lt {timing : Timing} {start first second early late : Nat}
    (firstMoment : timing.moment? start first = some early)
    (secondMoment : timing.moment? start second = some late) (before : first < second) :
    early < late := by
  cases timing with
  | once delay =>
      rw [moment?, if_neg (Nat.ne_of_gt (Nat.zero_lt_of_lt before))] at secondMoment
      cases secondMoment
  | repeating period | session connection period =>
      simp only [moment?] at firstMoment secondMoment
      split at firstMoment
      · cases firstMoment
      · next positive =>
          rw [if_neg positive] at secondMoment
          cases firstMoment
          cases secondMoment
          apply Nat.add_lt_add_left
          exact Nat.mul_lt_mul_of_pos_right (Nat.succ_lt_succ before) (Nat.pos_of_ne_zero positive)

/-- No two runs share a moment. -/
theorem moment?_injective {timing : Timing} {start first second moment : Nat}
    (firstMoment : timing.moment? start first = some moment)
    (secondMoment : timing.moment? start second = some moment) : first = second := by
  rcases Nat.lt_trichotomy first second with before | same | behind
  · exact absurd (moment?_lt firstMoment secondMoment before) (Nat.lt_irrefl moment)
  · exact same
  · exact absurd (moment?_lt secondMoment firstMoment behind) (Nat.lt_irrefl moment)

end Timing

namespace Scheduler

variable {β : Type}

/-! ## What a history says about a task -/

/-- Nothing keeps a task from running on: all its runs wanted to run again, and neither before nor
after it was scheduled its handle was cancelled or the scheduler shut down. -/
structure Undisturbed (id : TaskId) (connection? : Option ConnectionId)
    (earlier later : List (Event β)) : Prop where
  again : ∀ run ∈ runs id later, run.ending = .again
  earlier : ¬Halted id none earlier
  later : ¬Halted id connection? later

/-- Whether an event is earlier than a moment, or belongs to it and is no run of the task. -/
def Event.precedes (id : TaskId) (moment : Nat) (event : Event β) : Bool :=
  event.before.now < moment || (event.before.now = moment && (run? id event).isNone)

/-- What happened before the turn of a task at a moment: everything before the moment, and of the
moment itself what came before the run, or all of it if the task did not run. -/
def upTo (id : TaskId) (moment : Nat) (history : List (Event β)) : List (Event β) :=
  history.takeWhile (Event.precedes id moment)

section Kept

variable {id : TaskId} {timing : Timing} {start : Nat} {earlier later first rest : List (Event β)}
  {scheduler : Scheduler β} {task : Task β} {event : Event β}

theorem Undisturbed.of_append {connection? : Option ConnectionId}
    (undisturbed : Undisturbed id connection? earlier (later ++ rest)) :
    Undisturbed id connection? earlier later where
  again run member := by
    apply undisturbed.again
    rw [runs_append]
    exact List.mem_append_left _ member
  earlier := undisturbed.earlier
  later halted := undisturbed.later (halted_append.mpr (.inl halted))

/-- The task waits for the next moment of its timetable. -/
structure Waits (id : TaskId) (timing : Timing) (start : Nat) (earlier later : List (Event β))
    (scheduler : Scheduler β) (task : Task β) : Prop where
  found : scheduler.task? id = some task
  kind : task.timing = timing
  due : task.due = timing.moment? start (runs id later).length
  ahead : ∀ moment, task.due = some moment → scheduler.now ≤ moment
  again : ∀ run ∈ runs id later, run.ending = .again
  tracked : scheduler.Tracked id timing.connection?
  stopped : scheduler.isStopped id = true ↔
    Halted id none earlier ∨ Halted id timing.connection? later

/-- What every move keeps of a task: its runs have followed the timetable, and it waits or has ended
for a reason. -/
structure Kept (id : TaskId) (timing : Timing) (start : Nat) (earlier later : List (Event β))
    (scheduler : Scheduler β) : Prop where
  known : id < scheduler.nextId
  times : (runs id later).map (fun run => some run.time) =
    (List.range (runs id later).length).map (timing.moment? start)
  phase : (∃ task, Waits id timing start earlier later scheduler task) ∨
    scheduler.task? id = none ∧
      (Undisturbed id timing.connection? earlier later →
        timing.moment? start (runs id later).length = none)

theorem Kept.waits (kept : Kept id timing start earlier later scheduler)
    (found : scheduler.task? id = some task) :
    Waits id timing start earlier later scheduler task := by
  rcases kept.phase with ⟨other, waits⟩ | ⟨missing, -⟩
  · rw [waits.found] at found
    cases found
    exact waits
  · rw [missing] at found
    cases found

theorem Waits.undisturbed (waits : Waits id timing start earlier later scheduler task)
    (running : scheduler.isStopped id = false) :
    Undisturbed id timing.connection? earlier later where
  again := waits.again
  earlier halted := by
    rw [waits.stopped.mpr (.inl halted)] at running
    cases running
  later halted := by
    rw [waits.stopped.mpr (.inr halted)] at running
    cases running

/-- A task that nothing has disturbed waits for the next moment of its timetable, if there is one. -/
theorem Kept.waits_of_undisturbed (kept : Kept id timing start earlier later scheduler)
    (undisturbed : Undisturbed id timing.connection? earlier later) {moment : Nat}
    (next : timing.moment? start (runs id later).length = some moment) :
    scheduler.now ≤ moment ∧ (scheduler.task? id).bind Task.due = some moment := by
  rcases kept.phase with ⟨task, waits⟩ | ⟨-, ended⟩
  · have due := waits.due.trans next
    rw [waits.found]
    exact ⟨waits.ahead moment due, due⟩
  · rw [ended undisturbed] at next
    cases next

/-! ## One move -/

/-- Time does not pass over the due time of a waiting task. -/
theorem now_perform_le {move : Move β} {after : Scheduler β}
    (timely : Event.Timely ⟨scheduler, move, after⟩) (found : scheduler.task? id = some task)
    {moment : Nat} (due : task.due = some moment) (ahead : scheduler.now ≤ moment) :
    (scheduler.perform move).now ≤ moment := by
  rw [now_perform]
  cases move with
  | pass seconds => exact timely moment (mem_moments (mem_of_task? found) due)
  | _ => exact ahead

theorem Waits.other {move : Move β}
    (waits : Waits id timing start earlier later scheduler task)
    (timely : Event.Timely ⟨scheduler, move, scheduler.perform move⟩)
    (other : ¬move.Concerns scheduler id) :
    Waits id timing start earlier (later ++ [⟨scheduler, move, scheduler.perform move⟩])
      (scheduler.perform move) task := by
  obtain ⟨tracked, stopped⟩ := waits.tracked.perform other
  have sameRuns : runs id (later ++ [⟨scheduler, move, scheduler.perform move⟩]) =
      runs id later := by
    rw [runs_snoc, run?_of_not_concerns other, Option.toList_none, List.append_nil]
  refine ⟨(task?_perform other).trans waits.found, waits.kind, sameRuns ▸ waits.due, ?_,
    sameRuns ▸ waits.again, tracked, ?_⟩
  · exact fun moment due => now_perform_le timely waits.found due (waits.ahead moment due)
  · rw [stopped, waits.stopped, halted_append, or_assoc]

theorem Kept.other {move : Move β} (kept : Kept id timing start earlier later scheduler)
    (timely : Event.Timely ⟨scheduler, move, scheduler.perform move⟩)
    (other : ¬move.Concerns scheduler id) :
    Kept id timing start earlier (later ++ [⟨scheduler, move, scheduler.perform move⟩])
      (scheduler.perform move) := by
  have sameRuns : runs id (later ++ [⟨scheduler, move, scheduler.perform move⟩]) =
      runs id later := by
    rw [runs_snoc, run?_of_not_concerns other, Option.toList_none, List.append_nil]
  refine ⟨Nat.lt_of_lt_of_le kept.known (scheduler.nextId_le_perform move),
    sameRuns ▸ kept.times, ?_⟩
  rcases kept.phase with ⟨task, waits⟩ | ⟨missing, ended⟩
  · exact .inl ⟨task, waits.other timely other⟩
  · exact .inr ⟨(task?_perform other).trans missing,
      fun undisturbed => sameRuns ▸ ended undisturbed.of_append⟩

/-- The due time of the task when it may not run any more. -/
theorem Kept.fire_stopped (kept : Kept id timing start earlier later scheduler)
    (waits : Waits id timing start earlier later scheduler task)
    (stopped : scheduler.isStopped id = true) (orders : List Order) (ending : Ending) :
    Kept id timing start earlier
      (later ++ [⟨scheduler, .fire id orders ending, scheduler.perform (.fire id orders ending)⟩])
      (scheduler.perform (.fire id orders ending)) := by
  have refused : scheduler.mayRun id = false := by
    rw [scheduler.mayRun_of_task? waits.found, stopped]
    rfl
  have noRun (after : Scheduler β) :
      Event.run? id ⟨scheduler, .fire id orders ending, after⟩ = none :=
    if_neg fun runs => Bool.false_ne_true (refused.symm.trans runs.2)
  refine ⟨Nat.lt_of_lt_of_le kept.known (scheduler.nextId_le_perform _), ?_, .inr ⟨?_, ?_⟩⟩
  · rw [runs_snoc, noRun, Option.toList_none, List.append_nil]
    exact kept.times
  · rw [scheduler.perform_fire_of_stopped waits.found stopped, task?_retire,
      if_pos (id_of_task? waits.found)]
  · intro undisturbed
    have before := undisturbed.of_append
    rcases waits.stopped.mp stopped with halted | halted
    · exact absurd halted before.earlier
    · exact absurd halted before.later

/-- The due time of the task when it runs. -/
theorem Kept.fire_running (kept : Kept id timing start earlier later scheduler)
    (waits : Waits id timing start earlier later scheduler task)
    (running : scheduler.isStopped id = false) (due : task.due = some scheduler.now)
    (orders : List Order) (ending : Ending) :
    Kept id timing start earlier
      (later ++ [⟨scheduler, .fire id orders ending, scheduler.perform (.fire id orders ending)⟩])
      (scheduler.perform (.fire id orders ending)) := by
  have mayRun : scheduler.mayRun id = true := by
    rw [scheduler.mayRun_of_task? waits.found, running]
    rfl
  have named : task.id = id := id_of_task? waits.found
  have here : timing.moment? start (runs id later).length = some scheduler.now :=
    waits.due.symm.trans due
  have known := Nat.lt_of_lt_of_le kept.known
    (scheduler.nextId_le_perform (.fire id orders ending))
  have stopped := isStopped_obeyAll waits.tracked orders
  have finished := scheduler.perform_fire_of_running waits.found running orders ending
  generalize scheduler.perform (.fire id orders ending) = after at known finished ⊢
  have extended : runs id (later ++ [⟨scheduler, .fire id orders ending, after⟩]) =
      runs id later ++ [⟨scheduler.now, ending⟩] := by
    rw [runs_snoc]
    exact congrArg (runs id later ++ Option.toList ·) (if_pos ⟨rfl, mayRun⟩)
  have halted : Halted id timing.connection?
      (later ++ [⟨scheduler, .fire id orders ending, after⟩]) ↔
        Halted id timing.connection? later ∨ ∃ order ∈ orders, order.Halts id timing.connection? := by
    rw [halted_append, halted_singleton, orders_fire_of_mayRun mayRun]
  refine ⟨known, ?_, ?_⟩
  · rw [extended, List.map_append, kept.times, List.length_append, List.length_singleton,
      List.range_succ, List.map_append, List.map_singleton, List.map_singleton, here]
  · rcases (scheduler.obeyAll orders).finish_cases task ending with
      ⟨retired, reason⟩ | ⟨period, periodic, wanted, runsOn, rearmed⟩
    · refine .inr ⟨?_, ?_⟩
      · rw [finished, retired, task?_retire, if_pos named]
      · intro undisturbed
        rcases reason with single | refused | refused
        · rw [extended, List.length_append]
          exact Timing.moment?_of_single (waits.kind ▸ single) start _
        · have last : (⟨scheduler.now, ending⟩ : TaskRun) ∈
              runs id (later ++ [⟨scheduler, .fire id orders ending, after⟩]) := by
            rw [extended]
            exact List.mem_append_right _ List.mem_cons_self
          exact absurd (undisturbed.again _ last) refused
        · rw [named] at refused
          rcases stopped.mp refused with before | ordered
          · rw [running] at before
            cases before
          · exact absurd (halted.mpr (.inr ordered)) undisturbed.later
    · refine .inl ⟨{ task with due := some (scheduler.now + period) }, ?_⟩
      constructor
      · rw [finished, rearmed, task?_rearm, if_pos named, task?_obeyAll, waits.found, now_obeyAll]
        rfl
      · exact waits.kind
      · rw [extended, List.length_append]
        exact (Timing.moment?_succ (waits.kind ▸ periodic) here).symm
      · intro moment ahead
        cases ahead
        rw [finished, rearmed]
        exact Nat.le_add_right_of_le (Nat.le_of_eq (now_obeyAll orders))
      · rw [extended]
        intro run member
        rcases List.mem_append.mp member with before | last
        · exact waits.again run before
        · rw [List.mem_singleton.mp last]
          exact wanted
      · rw [finished, rearmed]
        exact ⟨(waits.tracked.obeyAll orders).only, (waits.tracked.obeyAll orders).always⟩
      · rw [halted, ← or_assoc, ← waits.stopped, finished, rearmed]
        exact stopped

theorem Kept.perform {move : Move β} (kept : Kept id timing start earlier later scheduler)
    (timely : Event.Timely ⟨scheduler, move, scheduler.perform move⟩) :
    Kept id timing start earlier (later ++ [⟨scheduler, move, scheduler.perform move⟩])
      (scheduler.perform move) := by
  by_cases concerns : move.Concerns scheduler id
  · cases move with
    | schedule timing body => exact absurd concerns (Nat.ne_of_gt kept.known)
    | order order => cases concerns
    | pass seconds => cases concerns
    | fire fired orders ending =>
        cases (concerns : fired = id)
        have due : (scheduler.task? id).bind Task.due = some scheduler.now := timely
        obtain ⟨task, found, due⟩ := Option.bind_eq_some_iff.mp due
        have waits := kept.waits found
        cases stopped : scheduler.isStopped id with
        | true => exact kept.fire_stopped waits stopped orders ending
        | false => exact kept.fire_running waits stopped due orders ending
  · exact kept.other timely concerns

/-! ## Runs of the scheduler -/

variable {moves : List (Move β)}

theorem Kept.run (initial : Kept id timing start earlier [] scheduler)
    (timely : ∀ event ∈ machine.trace scheduler moves, Event.Timely event) :
    Kept id timing start earlier (machine.trace scheduler moves) (machine.run scheduler moves) := by
  revert timely
  apply machine.run_induction (fun history state =>
    (∀ event ∈ history, Event.Timely event) → Kept id timing start earlier history state)
  · exact fun _ => initial
  · intro history state move inductionHypothesis timely
    have kept := inductionHypothesis fun event member => timely event (List.mem_append_left _ member)
    exact kept.perform (timely _ (List.mem_append_right _ List.mem_cons_self))

/-- What is kept holds also in front of every event. -/
theorem Kept.at_event (initial : Kept id timing start earlier [] scheduler)
    (timely : ∀ event ∈ machine.trace scheduler moves, Event.Timely event)
    (split : machine.trace scheduler moves = first ++ event :: rest) :
    Kept id timing start earlier first event.before := by
  obtain ⟨before, traced, reached, -⟩ := Machine.trace_eq_append_cons split
  rw [traced, reached]
  apply initial.run
  intro other member
  apply timely
  rw [split, traced]
  exact List.mem_append_left _ member

/-- A run finds its task undisturbed and takes place at the next moment of the timetable. -/
theorem Kept.undisturbed_of_run (kept : Kept id timing start earlier first event.before)
    (timely : Event.Timely event) {run : TaskRun} (ran : Event.run? id event = some run) :
    Undisturbed id timing.connection? earlier first ∧ run.time = event.before.now ∧
      timing.moment? start (runs id first).length = some run.time := by
  obtain ⟨before, step, after⟩ := event
  cases step with
  | fire fired orders ending =>
      unfold Event.run? at ran
      dsimp only at ran
      split at ran
      · next runs =>
          obtain ⟨rfl, mayRun⟩ := runs
          cases ran
          have due : (before.task? fired).bind Task.due = some before.now := timely
          obtain ⟨task, found, due⟩ := Option.bind_eq_some_iff.mp due
          have waits := kept.waits found
          rw [before.mayRun_of_task? found, Bool.not_eq_true'] at mayRun
          exact ⟨waits.undisturbed mayRun, rfl, waits.due.symm.trans due⟩
      · cases ran
  | _ => cases ran

theorem before_now_le (member : event ∈ machine.trace scheduler moves) :
    event.before.now ≤ (machine.run scheduler moves).now := by
  revert event
  apply machine.run_induction
    (fun history state => ∀ event ∈ history, event.before.now ≤ state.now)
  · exact fun event member => nomatch member
  · intro history state move inductionHypothesis event member
    have later : state.now ≤ (machine.apply state move).now := by
      rw [show machine.apply state move = state.perform move from rfl, now_perform]
      exact Nat.le_add_right _ _
    rcases List.mem_append.mp member with old | new
    · exact Nat.le_trans (inductionHypothesis event old) later
    · rw [List.mem_singleton.mp new]
      exact later

/-- Of two runs the earlier one stands at an earlier moment. -/
theorem Kept.time_lt_of_runs (initial : Kept id timing start earlier [] scheduler)
    (timely : ∀ event ∈ machine.trace scheduler moves, Event.Timely event)
    {between : List (Event β)} {early : Event β}
    (split : machine.trace scheduler moves = first ++ early :: (between ++ event :: rest))
    {earlyRun run : TaskRun} (earlyRan : Event.run? id early = some earlyRun)
    (ran : Event.run? id event = some run) : earlyRun.time < run.time := by
  have regrouped : machine.trace scheduler moves = (first ++ early :: between) ++ event :: rest := by
    rw [split, List.append_assoc, List.cons_append]
  have earlyTimely := timely early (split ▸ List.mem_append_right _ List.mem_cons_self)
  have lateTimely := timely event (regrouped ▸ List.mem_append_right _ List.mem_cons_self)
  obtain ⟨-, -, earlyMoment⟩ :=
    (initial.at_event timely split).undisturbed_of_run earlyTimely earlyRan
  obtain ⟨-, -, moment⟩ := (initial.at_event timely regrouped).undisturbed_of_run lateTimely ran
  apply Timing.moment?_lt earlyMoment moment
  rw [runs_append, List.length_append, runs, runs, List.filterMap_cons_some earlyRan,
    List.length_cons]
  omega

/-- Up to the run of a moment is what stands in front of that run. -/
theorem Kept.upTo_eq_of_run (initial : Kept id timing start earlier [] scheduler)
    (timely : ∀ event ∈ machine.trace scheduler moves, Event.Timely event)
    (split : machine.trace scheduler moves = first ++ event :: rest) {run : TaskRun}
    (ran : Event.run? id event = some run) :
    upTo id run.time (machine.trace scheduler moves) = first := by
  have eventTimely := timely event (split ▸ List.mem_append_right _ List.mem_cons_self)
  obtain ⟨-, now, -⟩ := (initial.at_event timely split).undisturbed_of_run eventTimely ran
  have ends : ¬Event.precedes id run.time event = true := by
    rw [Event.precedes, ran, now]
    simp
  have before : ∀ other ∈ first, Event.precedes id run.time other = true := by
    intro other member
    obtain ⟨front, between, rfl⟩ := List.append_of_mem member
    obtain ⟨steps, traced, reached, -⟩ := Machine.trace_eq_append_cons split
    have order : other.before.now ≤ run.time := by
      rw [now, reached]
      apply before_now_le
      rw [← traced]
      exact member
    rw [List.append_assoc, List.cons_append] at split
    unfold Event.precedes
    cases otherRan : Event.run? id other with
    | none =>
        rw [Option.isNone_none, Bool.and_true, Bool.or_eq_true, decide_eq_true_eq,
          decide_eq_true_eq]
        exact Nat.lt_or_eq_of_le order
    | some otherRun =>
        have otherTimely := timely other (split ▸ List.mem_append_right _ List.mem_cons_self)
        obtain ⟨-, otherNow, -⟩ :=
          (initial.at_event timely split).undisturbed_of_run otherTimely otherRan
        have sooner := initial.time_lt_of_runs timely split otherRan ran
        rw [← otherNow, decide_eq_true sooner, Bool.true_or]
  unfold upTo
  rw [split, List.takeWhile_append_of_pos before, List.takeWhile_cons_of_neg ends,
    List.append_nil]

/-! ## Before a task is scheduled -/

/-- What is known of a number that has not been given out. -/
structure Unknown (id : TaskId) (history : List (Event β)) (scheduler : Scheduler β) : Prop where
  missing : scheduler.task? id = none
  tracked : scheduler.Tracked id none
  stopped : scheduler.isStopped id = true ↔ Halted id none history

theorem unknown_fresh (id : TaskId) : Unknown id [] (fresh : Scheduler β) where
  missing := rfl
  tracked := ⟨fun _ member => (nomatch member), fun _ own => (nomatch own)⟩
  stopped := iff_of_false Bool.false_ne_true fun ⟨_, member, _⟩ => nomatch member

theorem Unknown.perform {move : Move β} (unknown : Unknown id earlier scheduler)
    (free : (scheduler.perform move).nextId ≤ id) :
    Unknown id (earlier ++ [⟨scheduler, move, scheduler.perform move⟩])
      (scheduler.perform move) := by
  by_cases concerns : move.Concerns scheduler id
  · cases move with
    | schedule timing body =>
        rw [nextId_perform] at free
        exact absurd (concerns : scheduler.nextId = id) (Nat.ne_of_lt free)
    | order order => cases concerns
    | pass seconds => cases concerns
    | fire fired orders ending =>
        cases (concerns : fired = id)
        have refused : scheduler.mayRun id = false := by
          unfold mayRun
          rw [unknown.missing]
          rfl
        rw [scheduler.perform_fire_of_missing unknown.missing]
        refine ⟨unknown.missing, unknown.tracked, ?_⟩
        rw [halted_append, halted_singleton, orders_fire_of_refused refused, unknown.stopped]
        exact (or_iff_left fun ⟨_, member, _⟩ => nomatch member).symm
  · obtain ⟨tracked, stopped⟩ := unknown.tracked.perform concerns
    refine ⟨(task?_perform concerns).trans unknown.missing, tracked, ?_⟩
    rw [stopped, unknown.stopped, halted_append]

theorem unknown_run (moves : List (Move β)) :
    ∀ id, (machine.run fresh moves).nextId ≤ id →
      Unknown id (machine.trace fresh moves) (machine.run fresh moves) := by
  apply machine.run_induction (fun history state =>
    ∀ id, state.nextId ≤ id → Unknown id history state)
  · exact fun id _ => unknown_fresh id
  · intro history state move inductionHypothesis id free
    have before := inductionHypothesis id (Nat.le_trans (state.nextId_le_perform move) free)
    exact before.perform free

/-- A task that has just been scheduled waits for the first moment of its timetable. -/
theorem Unknown.schedule (unknown : Unknown scheduler.nextId earlier scheduler) (timing : Timing)
    (body : β) :
    Kept scheduler.nextId timing scheduler.now earlier [] (scheduler.schedule timing body).2 := by
  have due : timing.firstDelay?.map (scheduler.now + ·) = timing.moment? scheduler.now 0 :=
    (timing.moment?_zero scheduler.now).symm
  refine ⟨?_, rfl, .inl ⟨⟨scheduler.nextId, timing, timing.moment? scheduler.now 0, body⟩, ?_⟩⟩
  · rw [nextId_schedule]
    exact Nat.lt_succ_self _
  · constructor
    · rw [task?_schedule, unknown.missing, if_pos rfl, due]
      rfl
    · rfl
    · rfl
    · intro moment ahead
      rw [now_schedule]
      rw [← due] at ahead
      obtain ⟨delay, -, rfl⟩ := Option.map_eq_some_iff.mp ahead
      exact Nat.le_add_right _ _
    · exact fun _ member => nomatch member
    · constructor
      · intro connection member
        rcases (mem_trackedUnder_schedule scheduler).mp member with old | ⟨own, -⟩
        · cases unknown.tracked.only connection old
        · exact own
      · intro connection own _
        exact (mem_trackedUnder_schedule scheduler).mpr (.inr ⟨own, rfl⟩)
    · rw [isStopped_schedule, unknown.stopped]
      exact (or_iff_left fun ⟨_, member, _⟩ => nomatch member).symm

end Kept

/-! ## The timetable of a task -/

/-- The runs of a task, told from what happened before and after it was scheduled at `start`. -/
structure FollowsTimetable (id : TaskId) (timing : Timing) (start : Nat)
    (earlier later : List (Event β)) (final : Scheduler β) : Prop where
  /-- The runs take place at the first moments of the timetable, once each and without a gap. -/
  times : (runs id later).map (fun run => some run.time) =
    (List.range (runs id later).length).map (timing.moment? start)
  /-- When a moment has been reached, the turn of the task is still to come, or it ran at the moment
  exactly if all earlier runs took place and nothing disturbed it before its turn. -/
  exact : ∀ count moment, timing.moment? start count = some moment → moment ≤ final.now →
    final.now = moment ∧ (final.task? id).bind Task.due = some moment ∨
      ((∃ run ∈ runs id later, run.time = moment) ↔
        (runs id (upTo id moment later)).length = count ∧
          Undisturbed id timing.connection? earlier (upTo id moment later))
  /-- Once the handle is cancelled or the scheduler shut down, no run starts any more. -/
  halted : ∀ first event rest, later = first ++ event :: rest →
    Halted id none earlier ∨ Halted id timing.connection? first → Event.run? id event = none
  /-- What is scheduled after a shutdown never runs. -/
  never : Halted id none earlier → runs id later = []

section Theorem

variable {id : TaskId} {timing : Timing} {start : Nat} {earlier : List (Event β)}
  {scheduler : Scheduler β} {moves : List (Move β)}

theorem Kept.exact (initial : Kept id timing start earlier [] scheduler)
    (timely : ∀ event ∈ machine.trace scheduler moves, Event.Timely event) {count moment : Nat}
    (planned : timing.moment? start count = some moment) :
    (∃ run ∈ runs id (machine.trace scheduler moves), run.time = moment) →
      (runs id (upTo id moment (machine.trace scheduler moves))).length = count ∧
        Undisturbed id timing.connection? earlier
          (upTo id moment (machine.trace scheduler moves)) := by
  rintro ⟨run, member, rfl⟩
  obtain ⟨event, listed, ran⟩ := List.mem_filterMap.mp member
  obtain ⟨first, rest, split⟩ := List.append_of_mem listed
  obtain ⟨undisturbed, -, here⟩ :=
    (initial.at_event timely split).undisturbed_of_run (timely event listed) ran
  rw [initial.upTo_eq_of_run timely split ran]
  exact ⟨Timing.moment?_injective here planned, undisturbed⟩

/-- If nothing disturbs the task before its turn at a moment, it runs at the moment or its turn is
still to come. -/
theorem Kept.runs_of_undisturbed (initial : Kept id timing start earlier [] scheduler)
    (timely : ∀ event ∈ machine.trace scheduler moves, Event.Timely event) {count moment : Nat}
    (planned : timing.moment? start count = some moment)
    (reached : moment ≤ (machine.run scheduler moves).now)
    (complete : (runs id (upTo id moment (machine.trace scheduler moves))).length = count)
    (undisturbed : Undisturbed id timing.connection? earlier
      (upTo id moment (machine.trace scheduler moves))) :
    (machine.run scheduler moves).now = moment ∧
        ((machine.run scheduler moves).task? id).bind Task.due = some moment ∨
      ∃ run ∈ runs id (machine.trace scheduler moves), run.time = moment := by
  have parts : upTo id moment (machine.trace scheduler moves) ++
      (machine.trace scheduler moves).dropWhile (Event.precedes id moment) =
        machine.trace scheduler moves := List.takeWhile_append_dropWhile
  rw [← complete] at planned
  cases remaining : (machine.trace scheduler moves).dropWhile (Event.precedes id moment) with
  | nil =>
      rw [remaining, List.append_nil] at parts
      rw [parts] at planned undisturbed
      obtain ⟨ahead, due⟩ := (initial.run timely).waits_of_undisturbed undisturbed planned
      exact .inl ⟨Nat.le_antisymm ahead reached, due⟩
  | cons event rest =>
      rw [remaining] at parts
      have listed : event ∈ machine.trace scheduler moves :=
        parts ▸ List.mem_append_right _ List.mem_cons_self
      obtain ⟨ahead, -⟩ :=
        (initial.at_event timely parts.symm).waits_of_undisturbed undisturbed planned
      have stops : Event.precedes id moment event = false := by
        have first := List.head?_dropWhile_not (Event.precedes id moment)
          (machine.trace scheduler moves)
        rw [remaining] at first
        exact first
      rw [Event.precedes, Bool.or_eq_false_iff, decide_eq_false_iff_not] at stops
      obtain ⟨notEarlier, noOther⟩ := stops
      have now : event.before.now = moment := Nat.le_antisymm ahead (Nat.not_lt.mp notEarlier)
      rw [decide_eq_true now, Bool.true_and, Option.isNone_eq_false_iff,
        Option.isSome_iff_exists] at noOther
      obtain ⟨run, ran⟩ := noOther
      obtain ⟨-, time, -⟩ :=
        (initial.at_event timely parts.symm).undisturbed_of_run (timely event listed) ran
      exact .inr ⟨run, List.mem_filterMap.mpr ⟨event, listed, ran⟩, time.trans now⟩

theorem Kept.followsTimetable (initial : Kept id timing start earlier [] scheduler)
    (timely : ∀ event ∈ machine.trace scheduler moves, Event.Timely event) :
    FollowsTimetable id timing start earlier (machine.trace scheduler moves)
      (machine.run scheduler moves) := by
  have halted : ∀ first event rest, machine.trace scheduler moves = first ++ event :: rest →
      Halted id none earlier ∨ Halted id timing.connection? first → Event.run? id event = none := by
    intro first event rest split halted
    cases ran : Event.run? id event with
    | none => rfl
    | some run =>
        have listed := timely event (split ▸ List.mem_append_right _ List.mem_cons_self)
        obtain ⟨undisturbed, -, -⟩ := (initial.at_event timely split).undisturbed_of_run listed ran
        rcases halted with before | since
        · exact absurd before undisturbed.earlier
        · exact absurd since undisturbed.later
  constructor
  · exact (initial.run timely).times
  · intro count moment planned reached
    by_cases pending : (machine.run scheduler moves).now = moment ∧
        ((machine.run scheduler moves).task? id).bind Task.due = some moment
    · exact .inl pending
    · refine .inr ⟨initial.exact timely planned, ?_⟩
      rintro ⟨complete, undisturbed⟩
      exact (initial.runs_of_undisturbed timely planned reached complete undisturbed).resolve_left
        pending
  · exact halted
  · intro before
    apply List.filterMap_eq_nil_iff.mpr
    intro event member
    obtain ⟨first, rest, split⟩ := List.append_of_mem member
    exact halted first event rest split (.inl before)

/-- In simulated time every task runs exactly as its timetable and the history say: whatever was
scheduled, ordered and run before and after it, and whatever the bodies that ran have ordered. -/
theorem task_follows_timetable (before after : List (Move β)) (timing : Timing) (body : β)
    (timely : ∀ event ∈ machine.trace fresh (before ++ .schedule timing body :: after),
      Event.Timely event) :
    FollowsTimetable ((machine.run fresh before).schedule timing body).1 timing
      (machine.run fresh before).now (machine.trace fresh before)
      (machine.trace ((machine.run fresh before).schedule timing body).2 after)
      (machine.run fresh (before ++ .schedule timing body :: after)) := by
  have unknown := unknown_run before (machine.run fresh before).nextId (Nat.le_refl _)
  rw [Machine.run_append]
  apply (unknown.schedule timing body).followsTimetable
  intro event member
  apply timely
  rw [Machine.trace_append]
  exact List.mem_append_right _ (List.mem_cons_of_mem _ member)

/-- A session task that a one-shot task cancels together with its connection, at a moment at which
both are due: it has run once, and its second turn finds it cancelled. -/
theorem task_follows_timetable_cancelled :
    let before : List (Move Unit) := [.schedule (.once 4) ()]
    let after : List (Move Unit) :=
      [.pass 2, .fire 1 [] .again, .pass 2, .fire 0 [.cancelSession ⟨1⟩] .stop, .fire 1 [] .again,
        .pass 9]
    let scheduled := (machine.run fresh before).schedule (.session ⟨1⟩ 2) ()
    runs 1 (machine.trace scheduled.2 after) = [⟨2, .again⟩] ∧
      FollowsTimetable scheduled.1 (.session ⟨1⟩ 2) 0 (machine.trace fresh before)
        (machine.trace scheduled.2 after)
        (machine.run fresh (before ++ .schedule (.session ⟨1⟩ 2) () :: after)) :=
  ⟨by decide, task_follows_timetable [.schedule (.once 4) ()]
    [.pass 2, .fire 1 [] .again, .pass 2, .fire 0 [.cancelSession ⟨1⟩] .stop, .fire 1 [] .again,
      .pass 9] (.session ⟨1⟩ 2) () (by decide)⟩

end Theorem

end Scheduler

end SessionServer
