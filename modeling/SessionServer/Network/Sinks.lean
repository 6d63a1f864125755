import SessionServer.Delivery.Transport

/-!
Contract: the writing halves of the open client connections.

Owns: `Sinks`, the set of connections that can be written to, together with everything written so
far. Closing a connection takes its writing half out before the close is written, so nothing can be
written behind it.
-/

namespace SessionServer

/-- The writing halves of the open client connections. -/
structure Sinks where
  writable : OrderedSet ConnectionId := .empty
  wire : List Frame := []
deriving DecidableEq

namespace Sinks

def empty : Sinks := {}

def size (sinks : Sinks) : Nat := sinks.writable.size

def isEmpty (sinks : Sinks) : Bool := sinks.writable.isEmpty

def isOpen (sinks : Sinks) (connection : ConnectionId) : Bool :=
  sinks.writable.contains connection

def register (sinks : Sinks) (connection : ConnectionId) : Sinks :=
  { sinks with writable := OrderedSet.add sinks.writable connection }

def write (sinks : Sinks) (connection : ConnectionId) (payload : Payload) : Sinks :=
  { sinks with wire := sinks.wire ++ [⟨connection, payload⟩] }

/-- Takes the writing half of a connection out. -/
def remove (sinks : Sinks) (connection : ConnectionId) : Sinks :=
  { sinks with writable := sinks.writable.erase connection }

def send (sinks : Sinks) (connection : ConnectionId) (content : String) :
    Except TransportError Unit × Sinks :=
  if sinks.isOpen connection then (.ok (), sinks.write connection (.text content))
  else (.error (.notOpen connection), sinks)

def close (sinks : Sinks) (connection : ConnectionId) : Except TransportError Unit × Sinks :=
  if sinks.isOpen connection then (.ok (), (sinks.remove connection).write connection .close)
  else (.error (.notOpen connection), sinks)

instance : Transport Sinks where
  isOpen := isOpen
  send := send
  close := close

end Sinks

end SessionServer
