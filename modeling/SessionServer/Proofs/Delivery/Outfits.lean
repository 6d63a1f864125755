import SessionServer.Proofs.Delivery.Station
import SessionServer.Proofs.Scheduler.Obedience
import SessionServer.Proofs.Server.Lifetimes

/-!
Contract: what stations are made of.

Owns:
- `Clockwork.Shows`, that a part of a world runs the tasks as the world does, and
  `Clockwork.Spares`, that tasks do nothing in a part of it;
- `Outfit.advance_tasks` and `Outfit.Silent.advance_line`: the tasks of a station go as they would
  alone, and so does its delivery, where neither touches the other;
- `Outfit.drains_settle`, every loop in its turn, whatever tasks do;
- `Rehearsal.besideQueue`, the outfit of a rehearsal and a queue that know nothing of each other;
- `Server.outfit`, the outfit of a server, whose procedures add to its queue.
-/

namespace SessionServer

/-! ## Parts of clockworks -/

namespace Clockwork

variable {ω ν β : Type}

/-- A part of a world runs the tasks by itself as they are run in the world. -/
structure Shows (clockwork : Clockwork ω β) (other : Clockwork ν β) (part : ω → ν) : Prop where
  scheduler : ∀ world, other.scheduler (part world) = clockwork.scheduler world
  withScheduler : ∀ world new,
    other.withScheduler (part world) new = part (clockwork.withScheduler world new)
  perform : ∀ id body world, other.perform id body (part world) =
    ((clockwork.perform id body world).1, part (clockwork.perform id body world).2)

variable {clockwork : Clockwork ω β} {other : Clockwork ν β} {part : ω → ν}

theorem Shows.fire (shows : clockwork.Shows other part) (world : ω) (id : TaskId) :
    part (clockwork.fire world id) = other.fire (part world) id := by
  cases found : (clockwork.scheduler world).task? id with
  | none =>
      have otherFound : (other.scheduler (part world)).task? id = none := by
        rw [shows.scheduler, found]
      rw [clockwork.fire_of_missing found, other.fire_of_missing otherFound]
  | some task =>
      have otherFound : (other.scheduler (part world)).task? id = some task := by
        rw [shows.scheduler, found]
      cases stopped : (clockwork.scheduler world).isStopped task.id with
      | true =>
          have otherStopped : (other.scheduler (part world)).isStopped task.id = true := by
            rw [shows.scheduler, stopped]
          rw [clockwork.fire_of_stopped found stopped,
            other.fire_of_stopped otherFound otherStopped, shows.scheduler, shows.withScheduler]
      | false =>
          have otherRunning : (other.scheduler (part world)).isStopped task.id = false := by
            rw [shows.scheduler, stopped]
          rw [clockwork.fire_of_running found stopped,
            other.fire_of_running otherFound otherRunning, shows.perform, shows.scheduler,
            shows.withScheduler]

theorem Shows.rounds (shows : clockwork.Shows other part) (bound : Nat) (world : ω) :
    part (clockwork.rounds bound world) = other.rounds bound (part world) := by
  induction bound generalizing world with
  | zero => rfl
  | succ bound inductionHypothesis =>
      have round : part (clockwork.round world) = other.round (part world) := by
        unfold Clockwork.round
        rw [shows.scheduler]
        exact (List.foldl_hom part fun world id => (shows.fire world id).symm).symm
      unfold Clockwork.rounds
      rw [shows.scheduler, ← round]
      split
      · rfl
      · exact inductionHypothesis _

/-- A part of a world in which tasks and their bodies do nothing. -/
structure Spares {α : Type} (clockwork : Clockwork ω β) (part : ω → α) : Prop where
  withScheduler : ∀ world new, part (clockwork.withScheduler world new) = part world
  perform : ∀ id body world, part (clockwork.perform id body world).2 = part world

theorem Spares.fire {α : Type} {part : ω → α} (spares : clockwork.Spares part) (world : ω)
    (id : TaskId) : part (clockwork.fire world id) = part world := by
  rcases clockwork.fire_cases world id with same | ⟨task, -, retired | ran⟩
  · rw [same]
  · rw [retired, spares.withScheduler]
  · rw [ran, spares.withScheduler, spares.perform]

/-- What no due time changes is the same after the rounds of a moment. -/
theorem rounds_same {α : Type} {view : ω → α}
    (same : ∀ world id, view (clockwork.fire world id) = view world) (bound : Nat) (world : ω) :
    view (clockwork.rounds bound world) = view world :=
  clockwork.rounds_of_fire (fun before after => view after = view before) (fun _ => rfl)
    (fun first second => second.trans first) same bound world

end Clockwork

/-! ## Parts of stations -/

/-- A part of what is folded over is told from those items that concern it. -/
theorem foldl_filterMap_part {α β σ π : Type} (part : σ → π) (other : π → β → π)
    {step : σ → α → σ} {pick : α → Option β} {items : List α}
    (each : ∀ item ∈ items, ∀ state,
      part (step state item) = (pick item).elim (part state) (other (part state)))
    (state : σ) :
    part (items.foldl step state) = (items.filterMap pick).foldl other (part state) := by
  induction items generalizing state with
  | nil => rfl
  | cons item rest inductionHypothesis =>
      have one := each item List.mem_cons_self state
      have others := inductionHypothesis fun item member =>
        each item (List.mem_cons_of_mem _ member)
      rw [List.foldl_cons, others, one]
      cases picked : pick item with
      | none => rw [List.filterMap_cons_none picked, Option.elim_none]
      | some chosen => rw [List.filterMap_cons_some picked, Option.elim_some, List.foldl_cons]

namespace Outfit

variable {ω ν β τ : Type} (outfit : Outfit ω β) (ties : Ties) {station : Station ω τ}

theorem loop_of_mem_due {drain : DrainLoop} (member : .loop drain ∈ outfit.due ties station) :
    drain ∈ station.loops := by
  have served : drain ∈ (outfit.due ties station).filterMap Due.loop? :=
    List.mem_filterMap.mpr ⟨.loop drain, member, rfl⟩
  rw [due, ties.loops_order] at served
  exact (List.mem_filter.mp served).1

/-! ### Tasks -/

section Tasks

variable [Transport τ] {other : Clockwork ν β} {part : ω → ν}

theorem loops_settle (station : Station ω τ) :
    (outfit.settle ties station).loops = DeliveryLine.rearm (outfit.now station) station.loops := by
  have spares : outfit.tasks.Spares (Station.loops : Station ω τ → _) :=
    ⟨fun _ _ => rfl, fun _ _ _ => rfl⟩
  exact Clockwork.rounds_same spares.fire _ (outfit.serveDue ties station)

/-- Delivery leaves a part of the world alone, or there is none. -/
def Undisturbed (part : ω → ν) (station : Station ω τ) : Prop :=
  station.loops = [] ∨ ∀ world new, part (outfit.withQueue world new) = part world

theorem Undisturbed.tick (undisturbed : outfit.Undisturbed part station) :
    outfit.Undisturbed part ((outfit.timeline ties).tick station) := by
  refine undisturbed.imp_left fun none => (outfit.loops_settle ties _).trans ?_
  change DeliveryLine.rearm _ station.loops = []
  rw [none]
  rfl

theorem settle_tasks (shows : outfit.toClockwork.Shows other part) (station : Station ω τ)
    (undisturbed : outfit.Undisturbed part station) :
    part (outfit.settle ties station).world = other.settle (part station.world) := by
  have shown : outfit.tasks.Shows other fun station : Station ω τ => part station.world :=
    ⟨fun _ => shows.scheduler _, fun _ _ => shows.withScheduler _ _,
      fun _ _ _ => shows.perform _ _ _⟩
  have each : ∀ due ∈ outfit.due ties station, ∀ state : Station ω τ,
      part (outfit.serve state due).world =
        due.task?.elim (part state.world) (other.fire (part state.world)) := by
    intro due member state
    cases due with
    | task id => exact shown.fire state id
    | loop drain =>
        rcases undisturbed with none | apart
        · have listed := outfit.loop_of_mem_due ties member
          rw [none] at listed
          cases listed
        · exact apart state.world _
  have served : part (outfit.serveDue ties station).world = other.round (part station.world) := by
    refine (foldl_filterMap_part (fun station : Station ω τ => part station.world) other.fire each
      station).trans ?_
    rw [due, ties.tasks_order, ← shows.scheduler]
    rfl
  unfold settle
  rw [Clockwork.settle_eq_rounds, ← served]
  exact shown.rounds _ _

/-- Where delivery does not disturb them, the tasks of a station go as they would alone. -/
theorem advance_tasks (shows : outfit.toClockwork.Shows other part) (seconds : Nat)
    (undisturbed : outfit.Undisturbed part station) :
    part (outfit.advance ties seconds station).world =
      other.advance seconds (part station.world) := by
  refine Timeline.advance_map (outfit.idles ties) other.idles
    (fun station : Station ω τ => part station.world) (outfit.Undisturbed part)
    (fun _ kept => kept.tick outfit ties) (fun station undisturbed => ?_) seconds undisturbed
  have settled := outfit.settle_tasks ties shows ((outfit.timeline ties).pass 1 station) undisturbed
  have passed : part ((outfit.timeline ties).pass 1 station).world =
      other.timeline.pass 1 (part station.world) := by
    refine (shows.withScheduler station.world _).symm.trans ?_
    exact congrArg (fun scheduler => other.withScheduler (part station.world) (scheduler.pass 1))
      (shows.scheduler station.world).symm
  rw [passed] at settled
  exact settled

end Tasks

/-! ### Delivery -/

section Delivery

/-- The delivery line of a station. -/
def line (station : Station ω τ) : DeliveryLine τ where
  queue := outfit.queue station.world
  transport := station.transport
  now := outfit.now station
  loops := station.loops

/-- The bodies of tasks leave the queue alone. -/
def Silent : Prop :=
  ∀ id body world, outfit.queue (outfit.perform id body world).2 = outfit.queue world

variable {outfit}

theorem Silent.line_fire (silent : outfit.Silent) (station : Station ω τ) (id : TaskId) :
    outfit.line (outfit.tasks.fire station id) = outfit.line station := by
  have now := (outfit.within_fire station id).now
  have spares : outfit.tasks.Spares fun station : Station ω τ =>
      (outfit.queue station.world, station.transport, station.loops) := by
    constructor
    · intro station new
      exact congrArg (·, _) (outfit.queue_withScheduler station.world new)
    · intro id body station
      exact congrArg (·, _) (silent id body station.world)
  have others := spares.fire station id
  simp only [Prod.mk.injEq] at others
  unfold line
  rw [now, others.1, others.2.1, others.2.2]

variable (outfit) [Transport τ]

theorem line_drain (station : Station ω τ) (loop : DrainLoop) :
    outfit.line (outfit.drain station loop) = (outfit.line station).drain := by
  have now := (outfit.within_drain station loop).now
  have queue : outfit.queue (outfit.drain station loop).world =
      (drainOnce (outfit.queue station.world) station.transport).queue :=
    outfit.queue_withQueue _ _
  unfold line
  rw [now, queue]
  rfl

/-- The steps of delivery of which the diary tells, each by the period of its loop. -/
def drains (station : Station ω τ) : List Nat :=
  station.diary.filterMap fun entry =>
    match entry.deed with
    | .ran _ _ => none
    | .drained period _ => some period

/-- Whatever tasks do, every loop whose time has come makes one step, in its turn, and no other
does. -/
theorem drains_settle (station : Station ω τ) :
    drains (outfit.settle ties station) =
      drains station ++
        (station.loops.filter fun loop => loop.due = outfit.now station).map DrainLoop.period := by
  have spares : outfit.tasks.Spares (drains : Station ω τ → List Nat) := by
    refine ⟨fun _ _ => rfl, fun id body station => ?_⟩
    exact List.filterMap_append.trans (List.append_nil _)
  have each : ∀ due ∈ outfit.due ties station, ∀ state : Station ω τ,
      drains (outfit.serve state due) =
        due.loop?.elim (drains state) fun loop => drains state ++ [loop.period] := by
    intro due _ state
    cases due with
    | task id => exact spares.fire state id
    | loop drain => exact List.filterMap_append
  have folded := foldl_filterMap_part drains
    (fun periods (loop : DrainLoop) => periods ++ [loop.period]) each station
  rw [due, ties.loops_order, List.foldl_append_eq_append, ← List.flatMap_def,
    ← List.map_eq_flatMap] at folded
  exact (Clockwork.rounds_same spares.fire _ _).trans folded

variable {outfit}

theorem Silent.line_settle (silent : outfit.Silent) (station : Station ω τ) :
    outfit.line (outfit.settle ties station) = (outfit.line station).settle := by
  have each : ∀ due ∈ outfit.due ties station, ∀ state : Station ω τ,
      outfit.line (outfit.serve state due) =
        due.loop?.elim (outfit.line state) fun _ => (outfit.line state).drain := by
    intro due _ state
    cases due with
    | task id => exact silent.line_fire state id
    | loop drain => exact outfit.line_drain state drain
  have folded := foldl_filterMap_part outfit.line (fun line _ => line.drain) each station
  rw [due, ties.loops_order] at folded
  refine (Clockwork.rounds_same silent.line_fire _ _).trans ?_
  have rearmed : outfit.line (outfit.serveDue ties station) =
      { outfit.line ((outfit.due ties station).foldl outfit.serve station) with
        loops := DeliveryLine.rearm (outfit.now station) station.loops } := rfl
  rw [rearmed, due, folded]
  rfl

theorem line_pass (seconds : Nat) (station : Station ω τ) :
    outfit.line ((outfit.timeline ties).pass seconds station) =
      DeliveryLine.timeline.pass seconds (outfit.line station) := by
  have now := (outfit.timeline ties).now_pass seconds station
  have queue : outfit.queue ((outfit.timeline ties).pass seconds station).world =
      outfit.queue station.world := outfit.queue_withScheduler _ _
  unfold line
  rw [queue]
  exact congrArg (DeliveryLine.mk _ station.transport · station.loops) now

/-- Where bodies leave the queue alone, the delivery of a station goes as it would alone. -/
theorem Silent.advance_line (silent : outfit.Silent) (seconds : Nat) (station : Station ω τ) :
    outfit.line (outfit.advance ties seconds station) = (outfit.line station).advance seconds := by
  refine Timeline.advance_map (outfit.idles ties) DeliveryLine.idles outfit.line (fun _ => True)
    (fun _ _ => trivial) (fun station _ => ?_) seconds trivial
  refine (silent.line_settle ties _).trans ?_
  rw [line_pass]
  rfl

end Delivery

end Outfit

/-! ## Rehearsals -/

namespace Rehearsal

/-- A rehearsal with a queue at its side. -/
def besideQueue : Outfit (Rehearsal × DeliveryQueue) PlannedTask where
  scheduler world := world.1.scheduler
  withScheduler world scheduler := ({ world.1 with scheduler }, world.2)
  perform _ task world := ((perform task world.1).1, (perform task world.1).2, world.2)
  queue := Prod.snd
  withQueue world queue := (world.1, queue)
  now_perform id task world := obedient.modest.now id task world.1 trivial

variable {τ : Type} [Transport τ] (ties : Ties)

/-- At a station with planned tasks the rehearsal and the delivery each go as they would alone. -/
theorem advance_besideQueue (seconds : Nat) (station : Station (Rehearsal × DeliveryQueue) τ) :
    (besideQueue.advance ties seconds station).world.1 = station.world.1.advance seconds ∧
      besideQueue.line (besideQueue.advance ties seconds station) =
        (besideQueue.line station).advance seconds := by
  have shows : besideQueue.toClockwork.Shows clockwork Prod.fst :=
    ⟨fun _ => rfl, fun _ _ => rfl, fun _ _ _ => rfl⟩
  have silent : besideQueue.Silent := fun _ _ _ => rfl
  exact ⟨besideQueue.advance_tasks ties shows seconds (.inr fun _ _ => rfl),
    silent.advance_line ties seconds station⟩

end Rehearsal

/-! ## Servers -/

namespace Server

variable {μ : Type}

theorem now_act (server : Server μ) (act : Act μ) :
    (server.act act).scheduler.now = server.scheduler.now := by
  cases act with
  | perform request => cases request <;> rfl
  | remember memory => rfl
  | schedule timing body =>
      rcases server.schedule_cases timing body with ⟨guarded, done, -⟩ | ⟨_, -, -, refused⟩
      · rw [act, done]
        exact server.scheduler.now_schedule timing guarded
      · rw [act, refused]
        rfl
  | shutDown => rfl

theorem now_run (table : Table μ) (procedure : Procedure μ) (server : Server μ) :
    (run table procedure server).2.scheduler.now = server.scheduler.now := by
  rw [tells_run table procedure server]
  unfold actAll
  refine List.foldlRecOn
    (motive := fun later : Server μ => later.scheduler.now = server.scheduler.now) _ _ rfl ?_
  intro later kept act _
  exact (now_act later act).trans kept

/-- A server, whose tasks add to its queue. -/
def outfit (table : Table μ) : Outfit (Server μ) (Procedure μ) where
  toClockwork := clockwork table
  queue := Server.queue
  withQueue server queue := { server with queue }
  now_perform _ procedure server := now_run table procedure server

/-- Without loops a station is a server with its tasks. -/
theorem advance_outfit {τ : Type} [Transport τ] (table : Table μ) (ties : Ties) (seconds : Nat)
    {station : Station (Server μ) τ} (none : station.loops = []) :
    ((outfit table).advance ties seconds station).world =
      station.world.advance table seconds := by
  have shows : (outfit table).toClockwork.Shows (clockwork table) id :=
    ⟨fun _ => rfl, fun _ _ => rfl, fun _ _ _ => rfl⟩
  exact (outfit table).advance_tasks ties shows seconds (.inl none)

end Server

end SessionServer
