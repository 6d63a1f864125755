import SessionServer.Delivery.Transport

/-!
Contract: what one step of delivery does to the queue and on the transport.

Owns:
- what every step leaves of the queue;
- `FailingTransport`, what delivery relies on: the calls for some connections fail without effect,
  all others succeed, and a connection is shut once a close of it has succeeded;
- `Monitored`, a transport with the record of the calls that are made on it, which has no influence
  on delivery;
- `Drained`, the four things that a step of delivery can come to.
-/

namespace SessionServer

/-! ## Queues -/

section Queues

variable {τ : Type} [Transport τ] (queue : DeliveryQueue) (transport : τ)

/-- A step of delivery takes the first frame, whatever the transport answers. -/
theorem frames_drainOnce :
    (drainOnce queue transport).queue.frames = queue.frames.drop 1 := by
  obtain ⟨frames⟩ := queue
  cases frames with
  | nil => rfl
  | cons frame rest =>
      unfold drainOnce DeliveryQueue.pop
      dsimp only
      split <;> rfl

/-- It has nothing to tell only of an empty queue. -/
theorem outcome_drainOnce_iff :
    (drainOnce queue transport).outcome = .ok none ↔ queue.frames = [] := by
  obtain ⟨frames⟩ := queue
  cases frames with
  | nil => simp [drainOnce, DeliveryQueue.pop]
  | cons frame rest =>
      unfold drainOnce DeliveryQueue.pop
      dsimp only
      split
      · cases (Transport.perform transport frame).1 with
        | error cause => exact ⟨nofun, nofun⟩
        | ok done => exact ⟨nofun, nofun⟩
      · exact ⟨nofun, nofun⟩

end Queues

/-! ## Transports -/

/-- A transport on which the calls for some connections fail, and then have no effect. -/
class FailingTransport (τ : Type) extends Transport τ where
  isFailing : τ → ConnectionId → Bool
  send_of_failing : ∀ {transport : τ} {connection : ConnectionId},
    isFailing transport connection = true → ∀ content,
      ∃ cause, send transport connection content = (.error cause, transport)
  send_of_healthy : ∀ {transport : τ} {connection : ConnectionId},
    isFailing transport connection = false → ∀ content,
      ∃ after, send transport connection content = (.ok (), after)
  close_of_failing : ∀ {transport : τ} {connection : ConnectionId},
    isFailing transport connection = true →
      ∃ cause, close transport connection = (.error cause, transport)
  close_of_healthy : ∀ {transport : τ} {connection : ConnectionId},
    isFailing transport connection = false →
      ∃ after, close transport connection = (.ok (), after) ∧ isOpen after connection = false

instance : FailingTransport RecordingTransport where
  isFailing := RecordingTransport.isFailing
  send_of_failing failing _ := ⟨_, if_pos failing⟩
  send_of_healthy healthy _ := ⟨_, if_neg (Bool.eq_false_iff.mp healthy)⟩
  close_of_failing failing := ⟨_, if_pos failing⟩
  close_of_healthy {transport connection} healthy := by
    refine ⟨_, if_neg (Bool.eq_false_iff.mp healthy), ?_⟩
    change OrderedMap.contains (transport.opened.erase connection) connection = false
    rw [OrderedMap.contains, OrderedMap.get?_erase_self]
    rfl

/-- What has become of a frame that has been delivered. -/
def Frame.delivery (frame : Frame) : Delivery :=
  match frame.payload with
  | .text _ => .sent frame.connection
  | .close => .closed frame.connection

namespace Transport

variable {τ : Type} [Transport τ]

theorem perform_text (transport : τ) (connection : ConnectionId) (content : String) :
    perform transport ⟨connection, .text content⟩ =
      ((send transport connection content).1.map fun _ => .sent connection,
        (send transport connection content).2) := rfl

theorem perform_close (transport : τ) (connection : ConnectionId) :
    perform transport ⟨connection, .close⟩ =
      ((close transport connection).1.map fun _ => .closed connection,
        (close transport connection).2) := rfl

end Transport

namespace FailingTransport

variable {τ : Type} [FailingTransport τ] {transport : τ} {frame : Frame}

theorem perform_of_failing (failing : isFailing transport frame.connection = true) :
    ∃ cause, Transport.perform transport frame = (.error cause, transport) := by
  obtain ⟨connection, payload⟩ := frame
  cases payload with
  | text content =>
      obtain ⟨cause, refused⟩ := send_of_failing failing content
      refine ⟨cause, ?_⟩
      rw [Transport.perform_text, refused]
      rfl
  | close =>
      obtain ⟨cause, refused⟩ := close_of_failing failing
      refine ⟨cause, ?_⟩
      rw [Transport.perform_close, refused]
      rfl

theorem perform_of_healthy (healthy : isFailing transport frame.connection = false) :
    ∃ after, Transport.perform transport frame = (.ok frame.delivery, after) ∧
      (frame.payload = .close → Transport.isOpen after frame.connection = false) := by
  obtain ⟨connection, payload⟩ := frame
  cases payload with
  | text content =>
      obtain ⟨after, sent⟩ := send_of_healthy healthy content
      refine ⟨after, ?_, nofun⟩
      rw [Transport.perform_text, sent]
      rfl
  | close =>
      obtain ⟨after, closed, shut⟩ := close_of_healthy healthy
      refine ⟨after, ?_, fun _ => shut⟩
      rw [Transport.perform_close, closed]
      rfl

end FailingTransport

/-! ## The record of calls -/

/-- A call on a transport with its answer. -/
structure TransportCall where
  frame : Frame
  answer : Except TransportError Unit

/-- The frame of a call that succeeded. -/
def TransportCall.delivered? (call : TransportCall) : Option Frame :=
  match call.answer with
  | .ok _ => some call.frame
  | .error _ => none

/-- A transport with the record of the calls that have been made on it, oldest first. To ask whether
a connection is open is not a call. -/
structure Monitored (τ : Type) where
  inner : τ
  calls : List TransportCall := []

namespace Monitored

variable {τ : Type}

/-- The transport behind the record after one more call. -/
def after (monitored : Monitored τ) (inner : τ) (call : TransportCall) : Monitored τ :=
  ⟨inner, monitored.calls ++ [call]⟩

/-- The frames of the calls that succeeded. -/
def delivered (monitored : Monitored τ) : List Frame :=
  monitored.calls.filterMap TransportCall.delivered?

section

variable [Transport τ]

instance : Transport (Monitored τ) where
  isOpen monitored connection := Transport.isOpen monitored.inner connection
  send monitored connection content :=
    let (answer, inner) := Transport.send monitored.inner connection content
    (answer, monitored.after inner ⟨⟨connection, .text content⟩, answer⟩)
  close monitored connection :=
    let (answer, inner) := Transport.close monitored.inner connection
    (answer, monitored.after inner ⟨⟨connection, .close⟩, answer⟩)

theorem isOpen_eq (monitored : Monitored τ) (connection : ConnectionId) :
    Transport.isOpen monitored connection = Transport.isOpen monitored.inner connection := rfl

theorem send_eq (monitored : Monitored τ) (connection : ConnectionId) (content : String) :
    Transport.send monitored connection content =
      let called := Transport.send monitored.inner connection content
      (called.1, monitored.after called.2 ⟨⟨connection, .text content⟩, called.1⟩) := rfl

theorem close_eq (monitored : Monitored τ) (connection : ConnectionId) :
    Transport.close monitored connection =
      let called := Transport.close monitored.inner connection
      (called.1, monitored.after called.2 ⟨⟨connection, .close⟩, called.1⟩) := rfl

/-- The record has no influence on what is recorded. -/
theorem perform_eq (monitored : Monitored τ) (frame : Frame) :
    Transport.perform monitored frame =
      let performed := Transport.perform monitored.inner frame
      (performed.1, monitored.after performed.2 ⟨frame, performed.1.map fun _ => ()⟩) := by
  obtain ⟨connection, payload⟩ := frame
  cases payload with
  | text content =>
      rw [Transport.perform_text, Transport.perform_text, send_eq]
      obtain ⟨answer, inner⟩ := Transport.send monitored.inner connection content
      cases answer <;> rfl
  | close =>
      rw [Transport.perform_close, Transport.perform_close, close_eq]
      obtain ⟨answer, inner⟩ := Transport.close monitored.inner connection
      cases answer <;> rfl

/-- Delivery goes the same way with and without the record. -/
theorem drainOnce_inner (queue : DeliveryQueue) (monitored : Monitored τ) :
    let step := drainOnce queue monitored
    drainOnce queue monitored.inner = ⟨step.queue, step.transport.inner, step.outcome⟩ := by
  obtain ⟨frames⟩ := queue
  cases frames with
  | nil => rfl
  | cons frame rest =>
      rw [drainOnce, drainOnce, DeliveryQueue.pop]
      dsimp only
      rw [isOpen_eq, perform_eq]
      cases Transport.isOpen monitored.inner frame.connection <;> rfl

end

end Monitored

/-! ## Steps of delivery -/

section Draining

variable {τ : Type} [FailingTransport τ]

/-- What a step of delivery can come to. -/
inductive Drained (queue : DeliveryQueue) (transport : Monitored τ) :
    DrainStep (Monitored τ) → Prop
  | idle (empty : queue.frames = []) : Drained queue transport ⟨queue, transport, .ok none⟩
  | discarded {frame : Frame} {rest : List Frame} (head : queue.frames = frame :: rest)
      (shut : Transport.isOpen transport.inner frame.connection = false) :
      Drained queue transport ⟨⟨rest⟩, transport, .ok (some (.discarded frame.connection))⟩
  | failed {frame : Frame} {rest : List Frame} {cause : TransportError}
      (head : queue.frames = frame :: rest)
      (isOpen : Transport.isOpen transport.inner frame.connection = true)
      (failing : FailingTransport.isFailing transport.inner frame.connection = true) :
      Drained queue transport
        ⟨⟨rest⟩, transport.after transport.inner ⟨frame, .error cause⟩,
          .error ⟨frame.connection, cause⟩⟩
  | delivered {frame : Frame} {rest : List Frame} {inner : τ}
      (head : queue.frames = frame :: rest)
      (isOpen : Transport.isOpen transport.inner frame.connection = true)
      (healthy : FailingTransport.isFailing transport.inner frame.connection = false)
      (shuts : frame.payload = .close → Transport.isOpen inner frame.connection = false) :
      Drained queue transport
        ⟨⟨rest⟩, transport.after inner ⟨frame, .ok ()⟩, .ok (some frame.delivery)⟩

theorem drained_drainOnce (queue : DeliveryQueue) (transport : Monitored τ) :
    Drained queue transport (drainOnce queue transport) := by
  obtain ⟨frames⟩ := queue
  cases frames with
  | nil => exact .idle rfl
  | cons frame rest =>
      rw [drainOnce, DeliveryQueue.pop]
      dsimp only
      rw [Monitored.isOpen_eq]
      cases isOpen : Transport.isOpen transport.inner frame.connection with
      | false => exact .discarded rfl isOpen
      | true =>
          rw [if_pos rfl, Monitored.perform_eq]
          cases failing : FailingTransport.isFailing transport.inner frame.connection with
          | true =>
              obtain ⟨cause, refused⟩ := FailingTransport.perform_of_failing failing
              rw [refused]
              exact .failed rfl isOpen failing
          | false =>
              obtain ⟨inner, performed, shuts⟩ := FailingTransport.perform_of_healthy failing
              rw [performed]
              exact .delivered rfl isOpen failing shuts

end Draining

end SessionServer
