import SessionServer.Connection
import SessionServer.Data.OrderedMap
import SessionServer.Protocol

/-!
Contract: the sessions of the open connections.

Owns:
- the lifecycle of a session: numbers are given out in ascending order and never again, and no more
  than `capacity` sessions live at once;
- the logic state and the bound identity of each session, with at most one session per identity.

Every operation on an unknown connection answers so and changes nothing, and only `accept` makes a
session.
-/

namespace SessionServer

/-- What the server keeps about one open connection. -/
structure Session where
  state : State
  identity : Option Identity
deriving DecidableEq, Repr

namespace Session

def fresh : Session := ⟨State.none, none⟩

/-- A session after another connection has taken the given identity. -/
def release (identity : Identity) (session : Session) : Session :=
  if session.identity = some identity then { session with identity := none } else session

end Session

structure Registry where
  /-- How many sessions may live at once. -/
  capacity : Nat
  sessions : OrderedMap ConnectionId Session := .empty
  nextNumber : Nat := 1
deriving DecidableEq

namespace Registry

/-! ## Queries -/

def session? (registry : Registry) (connection : ConnectionId) : Option Session :=
  registry.sessions.get? connection

def contains (registry : Registry) (connection : ConnectionId) : Bool :=
  (registry.session? connection).isSome

def state? (registry : Registry) (connection : ConnectionId) : Option State :=
  (registry.session? connection).map Session.state

def identity? (registry : Registry) (connection : ConnectionId) : Option Identity :=
  (registry.session? connection).bind Session.identity

/-- The connection that holds an identity. -/
def holder? (registry : Registry) (identity : Identity) : Option ConnectionId :=
  (registry.sessions.toList.find? fun entry => entry.2.identity = some identity).map Prod.fst

def size (registry : Registry) : Nat := registry.sessions.size

def isEmpty (registry : Registry) : Bool := registry.sessions.isEmpty

/-! ## Changes -/

/-- Starts a session under a new number, unless the registry is full. -/
def accept (registry : Registry) : Option ConnectionId × Registry :=
  if registry.capacity ≤ registry.size then (none, registry)
  else
    let connection : ConnectionId := ⟨registry.nextNumber⟩
    (some connection,
      { registry with
        sessions := registry.sessions.insert connection .fresh
        nextNumber := registry.nextNumber + 1 })

/-- Ends a session and hands it back. -/
def close (registry : Registry) (connection : ConnectionId) : Option Session × Registry :=
  (registry.session? connection,
    { registry with sessions := registry.sessions.erase connection })

def setState (registry : Registry) (connection : ConnectionId) (state : State) :
    Bool × Registry :=
  match registry.session? connection with
  | none => (false, registry)
  | some session =>
      (true,
        { registry with
          sessions := registry.sessions.insert connection { session with state := state } })

/-- Binds an identity to a connection; whoever held it before loses it. -/
def bind (registry : Registry) (connection : ConnectionId) (identity : Identity) :
    Bool × Registry :=
  match registry.session? connection with
  | none => (false, registry)
  | some session =>
      let released := registry.sessions.mapValues fun _ => Session.release identity
      (true,
        { registry with
          sessions := released.insert connection { session with identity := some identity } })

end Registry

end SessionServer
