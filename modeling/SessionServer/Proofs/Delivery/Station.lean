import SessionServer.Delivery.Line
import SessionServer.Proofs.Scheduler.Moves
import SessionServer.Proofs.Timeline

/-!
Contract: tasks and delivery on one clock, and the time that may be cut into pieces for both.

Owns:
- `Outfit`, a world with tasks and with the queue to which their bodies may add, and `Station`, such
  a world with a transport, the loops that drain the queue, and a diary of every run of a body and
  every step of delivery;
- `Ties`, the order in which tasks and loops are served that are due at the same moment. It may be
  any that leaves tasks in the order in which they were scheduled and loops in that in which they
  were started;
- `Outfit.settle`, everything that is due at the present moment: the tasks and loops found due are
  served once, then the tasks that their bodies have added for the same moment;
- `Outfit.Elapsed`, what a span of time leaves of a station and adds to its diary.

Bodies may do anything but turn the clock: cancel tasks, those of whole sessions or all of them, add
tasks and frames, end for good or break off.

Main statements: `advance_eq_iterate`, a span is made of its seconds, none of them left out;
`advance_splits`, two spans come to the same as one, entry by entry of the diary.
-/

namespace SessionServer

/-! ## Stations -/

/-- A world with tasks and a queue. Tasks and queue can each be exchanged on their own, and no body
turns the clock. -/
structure Outfit (ω β : Type) extends Clockwork ω β where
  queue : ω → DeliveryQueue
  withQueue : ω → DeliveryQueue → ω
  scheduler_withQueue : ∀ world new, scheduler (withQueue world new) = scheduler world := by
    intros; rfl
  queue_withQueue : ∀ world new, queue (withQueue world new) = new := by
    intros; rfl
  queue_withScheduler : ∀ world new, queue (withScheduler world new) = queue world := by
    intros; rfl
  now_perform : ∀ id body world,
    (scheduler (perform id body world).2).now = (scheduler world).now

/-- What is done at a station. -/
inductive Deed where
  /-- The body of a task has run. -/
  | ran (task : TaskId) (ending : Ending)
  /-- A loop has made a step of delivery. -/
  | drained (period : Nat) (outcome : Except DeliveryError (Option Delivery))

/-- A deed with the moment at which it was done. -/
structure DiaryEntry where
  time : Nat
  deed : Deed

/-- A world with tasks and a queue, and the delivery of what is queued. -/
structure Station (ω τ : Type) where
  world : ω
  transport : τ
  loops : List DrainLoop := []
  diary : List DiaryEntry := []

/-- A task or a loop that is due. -/
inductive Due where
  | task (id : TaskId)
  | loop (drain : DrainLoop)

namespace Due

def task? : Due → Option TaskId
  | .task id => some id
  | .loop _ => none

def loop? : Due → Option DrainLoop
  | .task _ => none
  | .loop drain => some drain

end Due

/-- The order in which the tasks and the loops are served that are due at one moment. -/
structure Ties where
  order : Nat → List TaskId → List DrainLoop → List Due
  tasks_order : ∀ now tasks loops, (order now tasks loops).filterMap Due.task? = tasks
  loops_order : ∀ now tasks loops, (order now tasks loops).filterMap Due.loop? = loops

theorem Ties.order_nil (ties : Ties) (now : Nat) : ties.order now [] [] = [] := by
  rw [List.eq_nil_iff_forall_not_mem]
  intro due member
  have tasks := ties.tasks_order now [] []
  have loops := ties.loops_order now [] []
  rw [List.filterMap_eq_nil_iff] at tasks loops
  cases due with
  | task id => cases tasks _ member
  | loop drain => cases loops _ member

namespace Outfit

variable {ω β τ : Type} (outfit : Outfit ω β)

def now (station : Station ω τ) : Nat := (outfit.scheduler station.world).now

/-- The tasks of a station, whose runs go into the diary. -/
def tasks : Clockwork (Station ω τ) β where
  scheduler station := outfit.scheduler station.world
  withScheduler station new :=
    { station with world := outfit.withScheduler station.world new }
  perform id body station :=
    ((outfit.perform id body station.world).1,
      { station with
        world := (outfit.perform id body station.world).2
        diary := station.diary ++
          [⟨outfit.now station, .ran id (outfit.perform id body station.world).1⟩] })
  scheduler_withScheduler _ _ := outfit.scheduler_withScheduler _ _
  withScheduler_scheduler station := by rw [outfit.withScheduler_scheduler]
  withScheduler_withScheduler _ _ _ := by rw [outfit.withScheduler_withScheduler]

variable [Transport τ] (ties : Ties)

/-- A step of delivery by a loop. -/
def drain (station : Station ω τ) (loop : DrainLoop) : Station ω τ :=
  let step := drainOnce (outfit.queue station.world) station.transport
  { station with
    world := outfit.withQueue station.world step.queue
    transport := step.transport
    diary := station.diary ++ [⟨outfit.now station, .drained loop.period step.outcome⟩] }

def serve (station : Station ω τ) : Due → Station ω τ
  | .task id => outfit.tasks.fire station id
  | .loop drain => outfit.drain station drain

/-- Everything that is due at the present moment, in the order in which it is served. -/
def due (station : Station ω τ) : List Due :=
  ties.order (outfit.now station) (outfit.scheduler station.world).dueNow
    (station.loops.filter fun loop => loop.due = outfit.now station)

/-- Serves once everything that is found due at the present moment. -/
def serveDue (station : Station ω τ) : Station ω τ :=
  { (outfit.due ties station).foldl outfit.serve station with
    loops := DeliveryLine.rearm (outfit.now station) station.loops }

/-- Serves everything that is due at the present moment, tasks that are added for it included. -/
def settle (station : Station ω τ) : Station ω τ :=
  outfit.tasks.rounds (Clockwork.roundLimit - 1) (outfit.serveDue ties station)

/-- A station in time: it is busy when tasks or loops are due. -/
def timeline : Timeline (Station ω τ) where
  now := outfit.now
  moments station :=
    (outfit.scheduler station.world).moments ++ station.loops.map DrainLoop.due
  pass := outfit.tasks.timeline.pass
  settle := outfit.settle ties
  now_pass := outfit.tasks.timeline.now_pass
  moments_pass seconds station :=
    congrArg (· ++ station.loops.map DrainLoop.due)
      (outfit.tasks.timeline.moments_pass seconds station)
  pass_zero := outfit.tasks.timeline.pass_zero
  pass_add := outfit.tasks.timeline.pass_add

def advance (seconds : Nat) (station : Station ω τ) : Station ω τ :=
  (outfit.timeline ties).advance seconds station

end Outfit

/-! ## Idle moments -/

namespace Clockwork

variable {ω β : Type} (clockwork : Clockwork ω β)

theorem idles : clockwork.timeline.Idles :=
  fun _ nothing => rounds_of_dueNow (dueNow_of_not_mem_moments nothing) roundLimit

/-- What holds from before to after every due time holds from before to after the rounds of a
moment. -/
theorem rounds_of_fire (relation : ω → ω → Prop) (refl : ∀ world, relation world world)
    (trans : ∀ {first second third}, relation first second → relation second third →
      relation first third)
    (fire : ∀ world id, relation world (clockwork.fire world id)) (bound : Nat) (world : ω) :
    relation world (clockwork.rounds bound world) := by
  induction bound generalizing world with
  | zero => exact refl world
  | succ bound inductionHypothesis =>
      have round : relation world (clockwork.round world) :=
        List.foldlRecOn _ _ (refl world) fun later kept id _ => trans kept (fire later id)
      unfold rounds
      split
      · exact refl world
      · exact trans round (inductionHypothesis _)

end Clockwork

namespace DeliveryLine

variable {now : Nat} {loops : List DrainLoop}

theorem filter_due_of_not_mem (nothing : now ∉ loops.map DrainLoop.due) :
    (loops.filter fun loop => loop.due = now) = [] := by
  apply List.filter_eq_nil_iff.mpr
  intro loop member due
  exact nothing (List.mem_map.mpr ⟨loop, member, of_decide_eq_true due⟩)

theorem rearm_of_not_mem (nothing : now ∉ loops.map DrainLoop.due) : rearm now loops = loops := by
  refine (List.map_congr_left fun loop member => ?_).trans (List.map_id loops)
  exact if_neg fun due => nothing (List.mem_map.mpr ⟨loop, member, due⟩)

theorem idles {τ : Type} [Transport τ] : (timeline (τ := τ)).Idles := by
  intro line nothing
  change line.now ∉ line.loops.map DrainLoop.due at nothing
  change settle line = line
  unfold settle
  rw [filter_due_of_not_mem nothing, rearm_of_not_mem nothing]
  rfl

end DeliveryLine

theorem Outfit.idles {ω β τ : Type} [Transport τ] (outfit : Outfit ω β) (ties : Ties) :
    (outfit.timeline ties (τ := τ)).Idles := by
  intro station nothing
  obtain ⟨noTask, noLoop⟩ := not_or.mp (mt List.mem_append.mpr nothing)
  change outfit.now station ∉ station.loops.map DrainLoop.due at noLoop
  have tasks : (outfit.scheduler station.world).dueNow = [] :=
    Clockwork.dueNow_of_not_mem_moments noTask
  have served : outfit.serveDue ties station = station := by
    unfold serveDue due
    rw [tasks, DeliveryLine.filter_due_of_not_mem noLoop, ties.order_nil,
      DeliveryLine.rearm_of_not_mem noLoop]
    rfl
  change outfit.settle ties station = station
  unfold settle
  rw [served]
  exact outfit.tasks.rounds_of_dueNow tasks _

namespace Outfit

variable {ω β τ : Type}

/-! ## The diary of a moment -/

section Moments

/-- A part of a moment: no time goes by, and the diary goes on with what is done. -/
structure Within (outfit : Outfit ω β) (before after : Station ω τ) : Prop where
  now : outfit.now after = outfit.now before
  diary : ∃ entries, after.diary = before.diary ++ entries ∧
    ∀ entry ∈ entries, entry.time = outfit.now before

variable {outfit : Outfit ω β} {first second third : Station ω τ}

theorem Within.refl (station : Station ω τ) : outfit.Within station station :=
  ⟨rfl, [], (List.append_nil _).symm, fun _ member => nomatch member⟩

theorem Within.trans (start : outfit.Within first second) (next : outfit.Within second third) :
    outfit.Within first third := by
  obtain ⟨before, written, beforeTimes⟩ := start.diary
  obtain ⟨after, added, afterTimes⟩ := next.diary
  refine ⟨next.now.trans start.now, before ++ after, ?_, ?_⟩
  · rw [added, written, List.append_assoc]
  · rw [start.now] at afterTimes
    exact List.forall_mem_append.mpr ⟨beforeTimes, afterTimes⟩

variable (outfit) (station : Station ω τ)

theorem within_fire (id : TaskId) : outfit.Within station (outfit.tasks.fire station id) := by
  rcases outfit.tasks.fire_cases station id with same | ⟨task, -, retired | ran⟩
  · rw [same]
    exact .refl station
  · rw [retired]
    refine ⟨?_, [], (List.append_nil _).symm, fun _ member => nomatch member⟩
    exact (congrArg Scheduler.now (outfit.scheduler_withScheduler _ _)).trans
      (Scheduler.now_retire _ task)
  · rw [ran]
    refine ⟨?_, _, rfl, List.forall_mem_singleton.mpr rfl⟩
    exact (congrArg Scheduler.now (outfit.scheduler_withScheduler _ _)).trans
      ((Scheduler.now_finish _ task _).trans (outfit.now_perform id task.body station.world))

variable [Transport τ]

theorem within_drain (loop : DrainLoop) : outfit.Within station (outfit.drain station loop) :=
  ⟨congrArg Scheduler.now (outfit.scheduler_withQueue _ _), _, rfl,
    List.forall_mem_singleton.mpr rfl⟩

theorem within_serve (due : Due) : outfit.Within station (outfit.serve station due) := by
  cases due with
  | task id => exact outfit.within_fire station id
  | loop drain => exact outfit.within_drain station drain

theorem within_settle (ties : Ties) : outfit.Within station (outfit.settle ties station) := by
  have served : outfit.Within station ((outfit.due ties station).foldl outfit.serve station) :=
    List.foldlRecOn _ _ (.refl station) fun later kept due _ =>
      kept.trans (outfit.within_serve later due)
  have rearmed : outfit.Within station (outfit.serveDue ties station) := ⟨served.now, served.diary⟩
  have rounds := outfit.tasks.rounds_of_fire outfit.Within Within.refl Within.trans
    outfit.within_fire (Clockwork.roundLimit - 1) (outfit.serveDue ties station)
  exact rearmed.trans rounds

end Moments

/-! ## The diary of a span -/

section Spans

/-- So many seconds have gone by, and the diary goes on with what was done at the end of each, in
order of time. -/
structure Elapsed (outfit : Outfit ω β) (seconds : Nat) (before after : Station ω τ) : Prop where
  now : outfit.now after = outfit.now before + seconds
  diary : ∃ entries, after.diary = before.diary ++ entries ∧
    entries.Pairwise (fun earlier later => earlier.time ≤ later.time) ∧
    ∀ entry ∈ entries,
      outfit.now before < entry.time ∧ entry.time ≤ outfit.now before + seconds

variable {outfit : Outfit ω β} {first second third : Station ω τ} {before after : Nat}

theorem Elapsed.none (station : Station ω τ) : outfit.Elapsed 0 station station :=
  ⟨rfl, [], (List.append_nil _).symm, .nil, fun _ member => nomatch member⟩

theorem Elapsed.trans (start : outfit.Elapsed before first second)
    (next : outfit.Elapsed after second third) : outfit.Elapsed (before + after) first third := by
  obtain ⟨entries, written, ordered, times⟩ := start.diary
  obtain ⟨others, added, othersOrdered, otherTimes⟩ := next.diary
  rw [start.now] at otherTimes
  refine ⟨?_, entries ++ others, ?_, ?_, ?_⟩
  · rw [next.now, start.now, Nat.add_assoc]
  · rw [added, written, List.append_assoc]
  · refine List.pairwise_append.mpr ⟨ordered, othersOrdered, ?_⟩
    intro entry member other otherMember
    exact Nat.le_trans (times entry member).2 (Nat.le_of_lt (otherTimes other otherMember).1)
  · intro entry member
    rcases List.mem_append.mp member with early | late
    · have bounds := times entry early
      omega
    · have bounds := otherTimes entry late
      omega

variable (outfit) [Transport τ] (ties : Ties)

theorem elapsed_tick (station : Station ω τ) :
    outfit.Elapsed 1 station ((outfit.timeline ties).tick station) := by
  have passed := (outfit.timeline ties).now_pass 1 station
  have settled := outfit.within_settle ((outfit.timeline ties).pass 1 station) ties
  obtain ⟨entries, written, times⟩ := settled.diary
  refine ⟨settled.now.trans passed, entries, written, ?_, ?_⟩
  · apply List.pairwise_of_forall_mem_list
    intro entry member other otherMember
    exact Nat.le_of_eq ((times entry member).trans (times other otherMember).symm)
  · intro entry member
    have time := (times entry member).trans passed
    change entry.time = outfit.now station + 1 at time
    omega

/-- A span is made of its seconds. At the end of each everything is served that is then due. -/
theorem advance_eq_iterate (seconds : Nat) (station : Station ω τ) :
    outfit.advance ties seconds station = (outfit.timeline ties).tick^[seconds] station :=
  Timeline.advance_eq_iterate (outfit.idles ties) seconds station

theorem elapsed_advance (seconds : Nat) (station : Station ω τ) :
    outfit.Elapsed seconds station (outfit.advance ties seconds station) := by
  rw [advance_eq_iterate]
  induction seconds generalizing station with
  | zero => exact .none station
  | succ seconds inductionHypothesis =>
      rw [Function.iterate_succ_apply, Nat.add_comm]
      exact (outfit.elapsed_tick ties station).trans (inductionHypothesis _)

/-- Time may be cut into pieces at will. Two spans lead to the same station as one that lasts as
long. Second by second everything that is due is served, and by the diary what is done in the one
span is what is done in the first and then in the second. -/
theorem advance_splits (first second : Nat) (station : Station ω τ) :
    let early := outfit.advance ties first station
    let late := outfit.advance ties (first + second) station
    outfit.advance ties second early = late ∧
      early = (outfit.timeline ties).tick^[first] station ∧
      late = (outfit.timeline ties).tick^[second] early ∧
      outfit.Elapsed first station early ∧ outfit.Elapsed second early late := by
  intro early late
  have same : outfit.advance ties second early = late :=
    ((outfit.timeline ties).advance_add first second station).symm
  refine ⟨same, outfit.advance_eq_iterate ties first station, ?_,
    outfit.elapsed_advance ties first station, ?_⟩
  · rw [← same]
    exact outfit.advance_eq_iterate ties second early
  · rw [← same]
    exact outfit.elapsed_advance ties second early

end Spans

end Outfit

end SessionServer
