import SessionServer.Delivery.Queue
import SessionServer.Data.OrderedMap

/-!
Contract: the writing side of the connections, and one step of delivery to it.

Owns:
- `Transport`, what delivery asks of the writing side;
- `drainOnce`, which takes at most one frame off the queue and makes at most one call on the
  transport. A frame whose connection is not open is discarded; a frame whose call fails is gone
  and the failure is handed to the caller, since trying again would reorder the queue.
- `RecordingTransport`, a transport that keeps what was delivered.
-/

namespace SessionServer

/-- Why a call on the transport failed. -/
inductive TransportError where
  | notOpen (connection : ConnectionId)
deriving DecidableEq, Repr

namespace TransportError

def message : TransportError → String
  | .notOpen connection => connection.name ++ " is not open"

end TransportError

structure DeliveryError where
  connection : ConnectionId
  cause : TransportError
deriving DecidableEq, Repr

namespace DeliveryError

def message (error : DeliveryError) : String :=
  "delivery to " ++ error.connection.name ++ " failed: " ++ error.cause.message

end DeliveryError

/-- The writing side of the connections. -/
class Transport (τ : Type) where
  isOpen : τ → ConnectionId → Bool
  send : τ → ConnectionId → String → Except TransportError Unit × τ
  /-- Closes a connection in good order. -/
  close : τ → ConnectionId → Except TransportError Unit × τ

/-- What became of a frame that was taken off the queue. -/
inductive Delivery where
  | sent (connection : ConnectionId)
  | closed (connection : ConnectionId)
  | discarded (connection : ConnectionId)
deriving DecidableEq, Repr

/-- The call on the transport that a frame asks for. -/
def Transport.perform {τ : Type} [Transport τ] (transport : τ) (frame : Frame) :
    Except TransportError Delivery × τ :=
  match frame.payload with
  | .text content =>
      let (result, transport) := Transport.send transport frame.connection content
      (result.map fun _ => .sent frame.connection, transport)
  | .close =>
      let (result, transport) := Transport.close transport frame.connection
      (result.map fun _ => .closed frame.connection, transport)

/-- The queue and the transport after a step of delivery, and what the step did. -/
structure DrainStep (τ : Type) where
  queue : DeliveryQueue
  transport : τ
  outcome : Except DeliveryError (Option Delivery)

def drainOnce {τ : Type} [Transport τ] (queue : DeliveryQueue) (transport : τ) : DrainStep τ :=
  match queue.pop with
  | none => ⟨queue, transport, .ok none⟩
  | some (frame, rest) =>
      if Transport.isOpen transport frame.connection then
        let (result, transport) := Transport.perform transport frame
        ⟨rest, transport,
          (result.map some).mapError fun cause => ⟨frame.connection, cause⟩⟩
      else ⟨rest, transport, .ok (some (.discarded frame.connection))⟩

/-! ## A transport that records -/

/-- A transport with a set of open and a set of failing connections that keeps every delivered
frame; calls on a failing connection fail without effect. -/
structure RecordingTransport where
  opened : OrderedSet ConnectionId := .empty
  failing : OrderedSet ConnectionId := .empty
  /-- Delivered frames, oldest first. -/
  events : List Frame := []
deriving DecidableEq

namespace RecordingTransport

def isOpen (transport : RecordingTransport) (connection : ConnectionId) : Bool :=
  transport.opened.contains connection

def isFailing (transport : RecordingTransport) (connection : ConnectionId) : Bool :=
  transport.failing.contains connection

def send (transport : RecordingTransport) (connection : ConnectionId) (content : String) :
    Except TransportError Unit × RecordingTransport :=
  if transport.isFailing connection then (.error (.notOpen connection), transport)
  else
    (.ok (), { transport with events := transport.events ++ [⟨connection, .text content⟩] })

def close (transport : RecordingTransport) (connection : ConnectionId) :
    Except TransportError Unit × RecordingTransport :=
  if transport.isFailing connection then (.error (.notOpen connection), transport)
  else
    (.ok (),
      { transport with
        opened := transport.opened.erase connection
        events := transport.events ++ [⟨connection, .close⟩] })

instance : Transport RecordingTransport where
  isOpen := isOpen
  send := send
  close := close

end RecordingTransport

end SessionServer
