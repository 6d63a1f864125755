import SessionServer.Proofs.Delivery.Draining
import SessionServer.Proofs.Machine

/-!
Contract: where the frames go that have been queued.

Owns:
- `Outlet`, a queue before a monitored transport, with everything that can happen to the two;
- `Outlet.Accounted`, what a single event does, and `Outlet.Balanced`, what a history comes to;
- the theorem that no frame is lost, doubled or overtaken, that exactly what could be delivered is,
  and that a close is the last call for a connection until that is opened again.

The transport may change by itself at any time, as it does when connections are opened or shut from
outside and when they begin or cease to fail.
-/

namespace SessionServer

/-! ## What can happen -/

/-- A queue before a transport. -/
structure Outlet (τ : Type) where
  queue : DeliveryQueue := .empty
  transport : Monitored τ

namespace Outlet

/-- What can happen to a queue and the transport behind it. -/
inductive Step (τ : Type) where
  | enqueue (connection : ConnectionId) (content : String)
  | enqueueClose (connection : ConnectionId)
  | push (frame : Frame)
  | pop
  | drain
  /-- Connections are opened or shut from outside, or begin or cease to fail. -/
  | alter (change : τ → τ)

/-- The frames that are queued. -/
def Step.queued {τ : Type} : Step τ → List Frame
  | .enqueue connection content => [⟨connection, .text content⟩]
  | .enqueueClose connection => [⟨connection, .close⟩]
  | .push frame => [frame]
  | .pop | .drain | .alter _ => []

/-- A step with the outlets before and after it. -/
abbrev Event (τ : Type) := Occurrence (Outlet τ) (Step τ)

section Events

variable {τ : Type} [FailingTransport τ]

def isOpen (outlet : Outlet τ) (connection : ConnectionId) : Bool :=
  Transport.isOpen outlet.transport.inner connection

def isFailing (outlet : Outlet τ) (connection : ConnectionId) : Bool :=
  FailingTransport.isFailing outlet.transport.inner connection

def perform (outlet : Outlet τ) : Step τ → Outlet τ
  | .enqueue connection content =>
      { outlet with queue := outlet.queue.enqueue connection content }
  | .enqueueClose connection => { outlet with queue := outlet.queue.enqueueClose connection }
  | .push frame => { outlet with queue := outlet.queue.push frame }
  | .pop => { outlet with queue := (outlet.queue.pop.map Prod.snd).getD outlet.queue }
  | .drain =>
      let step := drainOnce outlet.queue outlet.transport
      ⟨step.queue, step.transport⟩
  | .alter change =>
      { outlet with
        transport := { outlet.transport with inner := change outlet.transport.inner } }

def machine : Machine (Outlet τ) (Step τ) := ⟨perform⟩

variable (event : Event τ)

/-- The frame that `pop` answers with. -/
def popped : List Frame :=
  match event.step with
  | .pop => (event.before.queue.pop.map Prod.fst).toList
  | _ => []

/-- What a step of delivery takes off the head of the queue. -/
def drained : List Frame :=
  match event.step with
  | .drain => event.before.queue.frames.take (event.before.queue.size - event.after.queue.size)
  | _ => []

def removed : List Frame := popped event ++ drained event

/-- The calls that are made on the transport. -/
def calls : List TransportCall :=
  event.after.transport.calls.drop event.before.transport.calls.length

/-- The frames of the calls that succeed. -/
def delivered : List Frame := (calls event).filterMap TransportCall.delivered?

/-- The frames that a step of delivery takes while calls for their connection would succeed. -/
def deliverable : List Frame :=
  (drained event).filter fun frame =>
    event.before.isOpen frame.connection && !event.before.isFailing frame.connection

/-- What a step of delivery reports. -/
def report : Except DeliveryError (Option Delivery) :=
  (drainOnce event.before.queue event.before.transport).outcome

end Events

/-- A close of the connection succeeds. -/
def Closes {τ : Type} (connection : ConnectionId) (event : Event τ) : Prop :=
  ⟨connection, .close⟩ ∈ delivered event

/-- The connection was not open before, and is open now. -/
def Opens {τ : Type} [FailingTransport τ] (connection : ConnectionId) (event : Event τ) : Prop :=
  event.before.isOpen connection = false ∧ event.after.isOpen connection = true

/-! ## What an event does -/

section Accounts

variable {τ : Type} [FailingTransport τ]

/-- The account of a single event. -/
structure Accounted (event : Event τ) : Prop where
  /-- Frames go in at the end and come out at the head. -/
  conserved : removed event ++ event.after.queue.frames =
    event.before.queue.frames ++ event.step.queued
  recorded : event.after.transport.calls = event.before.transport.calls ++ calls event
  atMostOneCall : (calls event).length ≤ 1
  delivered_eq : delivered event = deliverable event
  /-- A step of delivery takes one frame, if there is one. -/
  single : event.step = .drain → (drained event).length = min 1 event.before.queue.size
  /-- It reports an error when calls for the connection of its frame fail, and only then. -/
  reported : event.step = .drain → ∀ connection,
    (∃ cause, report event = .error ⟨connection, cause⟩) ↔
      ∃ frame ∈ drained event, frame.connection = connection ∧
        event.before.isOpen connection = true ∧ event.before.isFailing connection = true
  /-- No call is made for a connection that is not open. -/
  silent : ∀ connection, event.before.isOpen connection = false →
    ∀ call ∈ calls event, call.frame.connection ≠ connection
  shut : ∀ connection, Closes connection event → event.after.isOpen connection = false

variable {event : Event τ}

omit [FailingTransport τ] in
theorem calls_eq_of_append {made : List TransportCall}
    (recorded : event.after.transport.calls = event.before.transport.calls ++ made) :
    calls event = made := by
  rw [calls, recorded, List.drop_left]

/-- An event that is no step of delivery calls nobody. -/
theorem Accounted.of_kept (kept : event.after.transport.calls = event.before.transport.calls)
    (other : drained event = []) (noDrain : event.step ≠ .drain)
    (conserved : removed event ++ event.after.queue.frames =
      event.before.queue.frames ++ event.step.queued) : Accounted event := by
  have noCalls : calls event = [] := calls_eq_of_append (kept.trans (List.append_nil _).symm)
  constructor
  case conserved => exact conserved
  case recorded => rw [noCalls, kept, List.append_nil]
  case atMostOneCall => rw [noCalls]; exact Nat.zero_le 1
  case delivered_eq => rw [delivered, deliverable, noCalls, other]; rfl
  case single => exact fun isDrain => absurd isDrain noDrain
  case reported => exact fun isDrain => absurd isDrain noDrain
  case silent =>
    rw [noCalls]
    exact fun _ _ _ member => nomatch member
  case shut =>
    intro connection closed
    rw [Closes, delivered, noCalls] at closed
    cases closed

section Drains

variable {outlet : Outlet τ} {frame : Frame} {taken rest : List Frame} {transport : Monitored τ}

omit [FailingTransport τ] in
theorem drained_of_split (split : outlet.queue.frames = taken ++ rest) :
    drained ⟨outlet, .drain, ⟨⟨rest⟩, transport⟩⟩ = taken := by
  rw [drained, DeliveryQueue.size, DeliveryQueue.size, split, List.length_append,
    Nat.add_sub_cancel]
  exact List.take_left

/-- A step of delivery, told by the frames that it takes and the calls that it makes. -/
theorem Accounted.of_drain (taken : List Frame) (split : outlet.queue.frames = taken ++ rest)
    (single : taken.length = min 1 outlet.queue.size)
    {made : List TransportCall} (recorded : transport.calls = outlet.transport.calls ++ made)
    (atMostOne : made.length ≤ 1)
    (called : ∀ call ∈ made, outlet.isOpen call.frame.connection = true)
    (succeeded : made.filterMap TransportCall.delivered? = taken.filter fun frame =>
      outlet.isOpen frame.connection && !outlet.isFailing frame.connection)
    (reported : ∀ connection,
      (∃ cause, (drainOnce outlet.queue outlet.transport).outcome = .error ⟨connection, cause⟩) ↔
        ∃ frame ∈ taken, frame.connection = connection ∧ outlet.isOpen connection = true ∧
          outlet.isFailing connection = true)
    (shut : ∀ connection, ⟨connection, .close⟩ ∈ made.filterMap TransportCall.delivered? →
      Transport.isOpen transport.inner connection = false) :
    Accounted ⟨outlet, .drain, ⟨⟨rest⟩, transport⟩⟩ := by
  have drained_eq : drained ⟨outlet, .drain, ⟨⟨rest⟩, transport⟩⟩ = taken :=
    drained_of_split split
  have calls_eq : calls ⟨outlet, .drain, ⟨⟨rest⟩, transport⟩⟩ = made :=
    calls_eq_of_append recorded
  constructor
  case conserved =>
    rw [removed, drained_eq, split]
    exact (List.append_nil _).symm
  case recorded => rw [calls_eq]; exact recorded
  case atMostOneCall => rw [calls_eq]; exact atMostOne
  case delivered_eq => rw [delivered, calls_eq, deliverable, drained_eq]; exact succeeded
  case single => rw [drained_eq]; exact fun _ => single
  case reported => rw [drained_eq]; exact fun _ => reported
  case silent =>
    intro connection isShut call member same
    rw [calls_eq] at member
    have isOpen := called call member
    rw [same, isShut] at isOpen
    cases isOpen
  case shut =>
    intro connection closed
    rw [Closes, delivered, calls_eq] at closed
    exact shut connection closed

omit [FailingTransport τ] in
theorem size_of_head (head : outlet.queue.frames = frame :: rest) :
    [frame].length = min 1 outlet.queue.size := by
  rw [DeliveryQueue.size, head, List.length_cons]
  exact (Nat.min_eq_left (Nat.le_add_left 1 _)).symm

theorem accounted_drain (outlet : Outlet τ) :
    Accounted ⟨outlet, .drain, outlet.perform .drain⟩ := by
  have shape := drained_drainOnce outlet.queue outlet.transport
  generalize same : drainOnce outlet.queue outlet.transport = step at shape
  have reached : outlet.perform .drain = ⟨step.queue, step.transport⟩ := by
    rw [perform, same]
  have outcome_eq : (drainOnce outlet.queue outlet.transport).outcome = step.outcome := by
    rw [same]
  have kept : outlet.transport.calls = outlet.transport.calls ++ [] := (List.append_nil _).symm
  rw [reached]
  cases shape with
  | idle empty =>
      obtain ⟨⟨frames⟩, transport⟩ := outlet
      cases empty
      refine .of_drain [] rfl rfl kept (Nat.zero_le 1) nofun rfl ?_ nofun
      simp [outcome_eq]
  | @discarded frame rest head shut =>
      refine .of_drain [frame] head (size_of_head head) kept (Nat.zero_le 1) nofun ?_ ?_ nofun
      · simp [isOpen, shut]
      · intro connection
        rw [outcome_eq]
        constructor
        · rintro ⟨cause, ⟨⟩⟩
        · rintro ⟨_, member, rfl, opened, -⟩
          cases List.mem_singleton.mp member
          exact absurd (shut.symm.trans opened) Bool.false_ne_true
  | @failed frame rest cause head opened failing =>
      refine .of_drain [frame] head (size_of_head head) rfl (Nat.le_refl 1) ?_ ?_ ?_ nofun
      · simp [isOpen, opened]
      · simp [isFailing, failing, TransportCall.delivered?]
      · intro connection
        rw [outcome_eq]
        constructor
        · rintro ⟨_, ⟨⟩⟩
          exact ⟨frame, List.mem_singleton_self frame, rfl, opened, failing⟩
        · rintro ⟨_, member, rfl, -, -⟩
          cases List.mem_singleton.mp member
          exact ⟨cause, rfl⟩
  | @delivered frame rest inner head opened healthy shuts =>
      refine .of_drain [frame] head (size_of_head head) rfl (Nat.le_refl 1) ?_ ?_ ?_ ?_
      · simp [isOpen, opened]
      · simp [isOpen, opened, isFailing, healthy, TransportCall.delivered?]
      · intro connection
        rw [outcome_eq]
        constructor
        · rintro ⟨cause, ⟨⟩⟩
        · rintro ⟨_, member, rfl, -, failing⟩
          cases List.mem_singleton.mp member
          exact absurd (healthy.symm.trans failing) Bool.false_ne_true
      · intro connection member
        cases List.mem_singleton.mp member
        exact shuts rfl

end Drains

theorem accounted_perform (outlet : Outlet τ) (step : Step τ) :
    Accounted ⟨outlet, step, outlet.perform step⟩ := by
  cases step with
  | enqueue connection content => exact .of_kept rfl rfl (by nofun) rfl
  | enqueueClose connection => exact .of_kept rfl rfl (by nofun) rfl
  | push frame => exact .of_kept rfl rfl (by nofun) rfl
  | alter change => exact .of_kept rfl rfl (by nofun) (List.append_nil _).symm
  | pop =>
      apply Accounted.of_kept rfl rfl (by nofun)
      obtain ⟨⟨frames⟩, transport⟩ := outlet
      cases frames with
      | nil => rfl
      | cons frame rest => exact (List.append_nil (frame :: rest)).symm
  | drain => exact accounted_drain outlet

end Accounts

/-! ## Whole histories -/

section Runs

variable {τ : Type} [FailingTransport τ]

/-- The account of a history that has come to an outlet. -/
structure Balanced (history : List (Event τ)) (outlet : Outlet τ) : Prop where
  accounted : ∀ event ∈ history, Accounted event
  conserved : history.flatMap removed ++ outlet.queue.frames =
    (history.map Occurrence.step).flatMap Step.queued
  delivered_eq : outlet.transport.delivered = history.flatMap deliverable
  shut : ∀ connection, Since (Closes connection) (Opens connection) history →
    outlet.isOpen connection = false

theorem Balanced.snoc {history : List (Event τ)} {outlet : Outlet τ}
    (balanced : Balanced history outlet) (step : Step τ) :
    Balanced (history ++ [⟨outlet, step, outlet.perform step⟩]) (outlet.perform step) := by
  have accounted := accounted_perform outlet step
  constructor
  case accounted =>
    intro event member
    rcases List.mem_append.mp member with old | new
    · exact balanced.accounted event old
    · cases List.mem_singleton.mp new
      exact accounted
  case conserved =>
    rw [List.map_append, List.flatMap_append, List.flatMap_append, ← balanced.conserved,
      List.append_assoc, List.append_assoc]
    simpa using accounted.conserved
  case delivered_eq =>
    have delivers := accounted.delivered_eq
    rw [delivered] at delivers
    rw [Monitored.delivered, accounted.recorded, List.filterMap_append, delivers,
      List.flatMap_append, List.flatMap_singleton, ← balanced.delivered_eq]
    rfl
  case shut =>
    intro connection closed
    rcases since_snoc.mp closed with closes | ⟨before, stays⟩
    · exact accounted.shut connection closes
    · have wasShut := balanced.shut connection before
      rw [← Bool.not_eq_true]
      intro isOpen
      exact stays ⟨wasShut, isOpen⟩

theorem balanced_run (transport : τ) (steps : List (Step τ)) :
    Balanced (machine.trace { transport := { inner := transport } } steps)
      (machine.run { transport := { inner := transport } } steps) := by
  apply Machine.run_induction Balanced
  · exact ⟨nofun, rfl, rfl, fun _ closed => absurd closed not_since_nil⟩
  · intro history outlet step balanced
    exact balanced.snoc step

/-- Whatever happens to a queue and its transport, the frames that have been taken off the queue and
those that are still on it are the frames that were queued, in their order. A step of delivery takes
one frame, if there is one, makes at most one call, and reports an error for the connection of the
frame if and only if that was open and calls for it fail. What has been delivered are the frames that
were taken while their connections were open and calls for them did not fail. After a connection has
been closed no call is made for it until it is opened again. -/
theorem frames_conserved (transport : τ) (steps : List (Step τ)) :
    let start : Outlet τ := { transport := { inner := transport } }
    let outlet := machine.run start steps
    let history := machine.trace start steps
    history.flatMap removed ++ outlet.queue.frames = steps.flatMap Step.queued ∧
      (∀ event ∈ history, event.step = .drain →
        event.before.queue.frames = drained event ++ event.after.queue.frames ∧
          (drained event).length = min 1 event.before.queue.size ∧
          (calls event).length ≤ 1 ∧
          ∀ connection, (∃ cause, report event = .error ⟨connection, cause⟩) ↔
            ∃ frame ∈ drained event, frame.connection = connection ∧
              event.before.isOpen connection = true ∧ event.before.isFailing connection = true) ∧
      outlet.transport.delivered = history.flatMap deliverable ∧
      ∀ earlier event later connection, history = earlier ++ event :: later →
        Since (Closes connection) (Opens connection) earlier →
          ∀ call ∈ calls event, call.frame.connection ≠ connection := by
  intro start outlet history
  have balanced : Balanced history outlet := balanced_run transport steps
  refine ⟨?conserved, ?drains, balanced.delivered_eq, ?final⟩
  case conserved =>
    rw [balanced.conserved, Machine.map_step_trace]
  case drains =>
    intro event member isDrain
    have accounted := balanced.accounted event member
    refine ⟨?_, accounted.single isDrain, accounted.atMostOneCall, accounted.reported isDrain⟩
    have conserved := accounted.conserved
    rw [removed, popped, isDrain] at conserved
    exact (List.append_nil _).symm.trans conserved.symm
  case final =>
    intro earlier event later connection split closed
    obtain ⟨before, earlier_eq, reached, -⟩ := Machine.trace_eq_append_cons split
    have member : event ∈ history := by
      rw [split]
      exact List.mem_append_right earlier List.mem_cons_self
    have shut : event.before.isOpen connection = false := by
      rw [reached]
      rw [earlier_eq] at closed
      exact (balanced_run transport before).shut connection closed
    exact (balanced.accounted event member).silent connection shut

end Runs

/-- A text to a connection for which calls fail is gone, and after a close there is no text. -/
theorem frames_conserved_recording :
    let start : Outlet RecordingTransport :=
      { transport := { inner := { opened := OrderedSet.ofList [⟨1⟩, ⟨2⟩] } } }
    let fail (transport : RecordingTransport) : RecordingTransport :=
      { transport with failing := OrderedSet.ofList [⟨2⟩] }
    let outlet := machine.run start
      [.enqueue ⟨1⟩ "notice", .enqueueClose ⟨1⟩, .enqueue ⟨2⟩ "broken", .enqueue ⟨1⟩ "late",
        .alter fail, .drain, .drain, .drain, .drain]
    outlet.transport.delivered = [⟨⟨1⟩, .text "notice"⟩, ⟨⟨1⟩, .close⟩] :=
  (frames_conserved _ _).2.2.1.trans (by decide +kernel)

end Outlet

end SessionServer
