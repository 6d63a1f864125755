import SessionServer.Connection

/-!
Contract: the one queue of everything that the server has to say.

Owns: frames, which are texts or requests to close, and the first-in first-out queue of them. A
request to close is a frame like any other, so what was queued before it is delivered before it.
-/

namespace SessionServer

/-- What happens to a connection when its frame reaches the head of the queue. -/
inductive Payload where
  | text (content : String)
  | close
deriving DecidableEq, Repr

/-- A unit of outbound work. -/
structure Frame where
  connection : ConnectionId
  payload : Payload
deriving DecidableEq, Repr

/-- Frames in the order in which they were queued. -/
structure DeliveryQueue where
  frames : List Frame := []
deriving DecidableEq

namespace DeliveryQueue

def empty : DeliveryQueue := {}

def push (queue : DeliveryQueue) (frame : Frame) : DeliveryQueue := ⟨queue.frames ++ [frame]⟩

def enqueue (queue : DeliveryQueue) (connection : ConnectionId) (content : String) :
    DeliveryQueue :=
  queue.push ⟨connection, .text content⟩

def enqueueClose (queue : DeliveryQueue) (connection : ConnectionId) : DeliveryQueue :=
  queue.push ⟨connection, .close⟩

def pop (queue : DeliveryQueue) : Option (Frame × DeliveryQueue) :=
  match queue.frames with
  | [] => none
  | frame :: rest => some (frame, ⟨rest⟩)

def size (queue : DeliveryQueue) : Nat := queue.frames.length

end DeliveryQueue

end SessionServer
