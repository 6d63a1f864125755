import SessionServer.Network.Sinks
import SessionServer.Server

/-!
Contract: serving clients, one small step at a time and in any order.

Owns:
- `Serving`, how far the serving of a client has come. It reads messages until the client closes,
  the connection fails or the client is silent for too long; then the writing half is taken out and
  closed, unless delivery has already done so; last of all the session ends;
- `Network`, the server with the writing halves, the clients being served and the texts that were
  read but not yet looked at. Texts are looked at in no particular order, possibly after the end of
  their connection; overlong ones are dropped when they are read;
- `NetworkStep` and `Network.step`, with delivery as one more party that takes steps.

Does not own: time, or what clients see; both are in `Hub`.
-/

namespace SessionServer

/-- How far the serving of a client has come. -/
inductive Serving where
  | reading
  /-- Reading is over, and the writing half is to be taken out. -/
  | leaving
  /-- The session is to be ended. -/
  | parting
deriving DecidableEq, Repr

inductive Message where
  | text (content : String)
  | binary
  | ping (content : String)
  | close
deriving DecidableEq, Repr

/-- A text that was read from a connection. -/
structure Inbound where
  connection : ConnectionId
  text : String
deriving DecidableEq, Repr

structure Network (μ : Type) where
  server : Server μ
  sinks : Sinks := .empty
  serving : OrderedMap ConnectionId Serving := .empty
  /-- Texts that were read but not yet looked at. -/
  inbox : List Inbound := []

/-- A step of one of the parties. -/
inductive NetworkStep where
  /-- A client that has been upgraded is given its session. -/
  | accept
  | message (connection : ConnectionId) (message : Message)
  /-- Reading ends without a message. -/
  | leave (connection : ConnectionId)
  /-- The writing half is taken out and closed. -/
  | part (connection : ConnectionId)
  /-- The session ends. -/
  | finish (connection : ConnectionId)
  /-- One of the texts that were read is looked at. -/
  | dispatch (index : Nat)
  /-- Delivery handles the frame at the head of the queue. -/
  | drain
deriving DecidableEq, Repr

namespace Network

variable {μ : Type}

/-- How far the serving of a client has come, if it is being served. -/
def phase? (network : Network μ) (connection : ConnectionId) : Option Serving :=
  network.serving.get? connection

def withPhase (network : Network μ) (connection : ConnectionId) (phase : Serving) : Network μ :=
  { network with serving := network.serving.insert connection phase }

/-- Gives a client its session and parks its writing half; a full server serves no more. -/
def accept (network : Network μ) : Option ConnectionId × Network μ :=
  match network.server.accept with
  | (none, server) => (none, { network with server })
  | (some connection, server) =>
      (some connection,
        { network with
          server
          sinks := network.sinks.register connection
          serving := network.serving.insert connection .reading })

/-- Reads a message. A text that is too long is dropped, and only texts are looked at. -/
def read (network : Network μ) (maxFrameBytes : Nat) (connection : ConnectionId) :
    Message → Network μ
  | .text content =>
      if maxFrameBytes < content.utf8ByteSize then network
      else { network with inbox := network.inbox ++ [⟨connection, content⟩] }
  | .close => network.withPhase connection .leaving
  | .binary => network
  | .ping _ => network

/-- Makes one step of delivery, whose failures nobody waits for. -/
def drain (network : Network μ) : Network μ :=
  let drained := drainOnce network.server.queue network.sinks
  { network with
    server := { network.server with queue := drained.queue }
    sinks := drained.transport }

/-- Looks at one of the texts that were read. -/
def dispatch (table : Table μ) (network : Network μ) (index : Nat) : Network μ :=
  match network.inbox[index]? with
  | none => network
  | some inbound =>
      { network with
        server := (network.server.receive table inbound.connection inbound.text).2
        inbox := network.inbox.eraseIdx index }

/-- Makes a step. A step for which its client is not ready changes nothing. -/
def step (table : Table μ) (maxFrameBytes : Nat) (network : Network μ) :
    NetworkStep → Network μ
  | .accept => network.accept.2
  | .message connection message =>
      if network.phase? connection = some .reading then
        network.read maxFrameBytes connection message
      else network
  | .leave connection =>
      if network.phase? connection = some .reading then network.withPhase connection .leaving
      else network
  | .part connection =>
      if network.phase? connection = some .leaving then
        { network.withPhase connection .parting with
          sinks := (network.sinks.close connection).2 }
      else network
  | .finish connection =>
      if network.phase? connection = some .parting then
        { network with
          server := network.server.close connection
          serving := network.serving.erase connection }
      else network
  | .dispatch index => network.dispatch table index
  | .drain => network.drain

def run (table : Table μ) (maxFrameBytes : Nat) (network : Network μ)
    (steps : List NetworkStep) : Network μ :=
  steps.foldl (step table maxFrameBytes) network

end Network

end SessionServer
