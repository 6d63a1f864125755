import SessionServer.Network.Handshake
import SessionServer.Network.Serving
import SessionServer.Settings

/-!
Contract: a served network as its clients see it, with time.

Owns:
- `Client`, what a client has received so far, and since when it has been silent;
- `Hub`, the network with its numbered clients. After every operation it comes to rest: texts are
  looked at in the order of their arrival, due tasks run, the queue is delivered to its end, and
  clients that were asked to leave are gone;
- the clients' operations, the passing of time with its limit on silence, and the shutdown, after
  which texts are still looked at but nothing is delivered.
-/

namespace SessionServer

inductive Received where
  | text (content : String)
  | pong (content : String)
  | ended
deriving DecidableEq, Repr

/-- A client as it sees itself. -/
structure Client where
  /-- The connection that serves it; a client that came to a full server has none. -/
  connection : Option ConnectionId
  lastMessage : Nat
  received : List Received := []
deriving DecidableEq, Repr

namespace Client

/-- Whether a client has not seen the end of its connection. -/
def isOpen (client : Client) : Bool := !client.received.contains .ended

/-- Adds to what a client has received; nothing reaches it behind the end. -/
def receive (client : Client) (item : Received) : Client :=
  if client.isOpen then { client with received := client.received ++ [item] } else client

end Client

/-- A served network with its clients in the order in which they connected. -/
structure Hub (μ : Type) where
  network : Network μ
  clients : List Client := []
  isDelivering : Bool := true
  maxFrameBytes : Nat
  /-- The silence after which a client is closed, if there is such a limit. -/
  idleTimeout : Option Nat

namespace Hub

variable {μ : Type}

def ofServer (settings : Settings) (server : Server μ) : Hub μ where
  network := { server }
  maxFrameBytes := settings.maxFrameBytes
  idleTimeout := settings.idleTimeout?

def server (hub : Hub μ) : Server μ := hub.network.server

def withServer (hub : Hub μ) (server : Server μ) : Hub μ :=
  { hub with network := { hub.network with server } }

def now (hub : Hub μ) : Nat := hub.server.scheduler.now

def step (table : Table μ) (hub : Hub μ) (next : NetworkStep) : Hub μ :=
  { hub with network := hub.network.step table hub.maxFrameBytes next }

def modifyClient (hub : Hub μ) (index : Nat) (change : Client → Client) : Hub μ :=
  { hub with clients := hub.clients.modify index change }

/-! ## Coming to rest -/

/-- Looks at every text that was read, in the order of arrival. -/
def dispatchAll (table : Table μ) (hub : Hub μ) : Hub μ :=
  hub.network.inbox.foldl (fun hub _ => hub.step table (.dispatch 0)) hub

/-- Delivers the whole queue, if it is being delivered at all. -/
def deliverAll (table : Table μ) (hub : Hub μ) : Hub μ :=
  if hub.isDelivering then
    hub.server.queue.frames.foldl (fun hub _ => hub.step table .drain) hub
  else hub

/-- What a written frame is to its client. -/
def receivedOf : Payload → Received
  | .text content => .text content
  | .close => .ended

/-- Hands a written frame to its client. A client that is closed ends its side too. -/
def handOver (table : Table μ) (hub : Hub μ) (frame : Frame) : Hub μ :=
  let reached :=
    { hub with
      clients := hub.clients.map fun client =>
        if client.connection = some frame.connection then client.receive (receivedOf frame.payload)
        else client }
  match frame.payload with
  | .text _ => reached
  | .close =>
      [.leave frame.connection, .part frame.connection, .finish frame.connection].foldl
        (step table) reached

/-- Hands over everything that was written beyond the first `written` frames. -/
def handOverSince (table : Table μ) (written : Nat) (hub : Hub μ) : Hub μ :=
  (hub.network.sinks.wire.drop written).foldl (handOver table) hub

/-- Brings the hub to rest. -/
def settle (table : Table μ) (hub : Hub μ) : Hub μ :=
  let looked := hub.dispatchAll table
  let ran := looked.withServer (looked.server.settle table)
  let delivered := ran.deliverAll table
  delivered.handOverSince table hub.network.sinks.wire.length

/-- Ends the serving of a connection from the server's side or at the client's request. -/
def dismiss (table : Table μ) (hub : Hub μ) (connection : ConnectionId) : Hub μ :=
  let parted := [.leave connection, .part connection].foldl (step table) hub
  (parted.step table (.finish connection)).handOverSince table hub.network.sinks.wire.length

/-! ## Clients -/

/-- Connects a client; one that comes to a full server sees the end at once. -/
def connect (table : Table μ) (hub : Hub μ) : Nat × Hub μ :=
  let (connection, network) := hub.network.accept
  let client : Client := { connection, lastMessage := hub.now }
  let client := if connection.isSome then client else client.receive .ended
  (hub.clients.length, { hub with network, clients := hub.clients ++ [client] }.settle table)

/-- Takes a message of a client and answers whether the client could still send it; `none` stands
for a client that there is not. -/
def send (table : Table μ) (hub : Hub μ) (index : Nat) (message : Message) :
    Option Bool × Hub μ :=
  match hub.clients[index]? with
  | none => (none, hub)
  | some client =>
      match client.isOpen, client.connection with
      | true, some connection =>
          let heard := hub.modifyClient index fun client => { client with lastMessage := hub.now }
          let read := heard.step table (.message connection message)
          let answered :=
            match message with
            | .close => read.dismiss table connection
            | .ping content => read.modifyClient index fun client => client.receive (.pong content)
            | _ => read
          (some true, answered.settle table)
      | _, _ => (some false, hub)

/-- A peer that sends a request of its own making and then leaves; answers whether it was
upgraded. -/
def visit (table : Table μ) (hub : Hub μ) (head : String) : Bool × Hub μ :=
  if Handshake.accepts head then
    match hub.network.accept with
    | (none, network) => (true, { hub with network })
    | (some connection, network) =>
        (true, ({ hub with network }.dismiss table connection).settle table)
  else (false, hub)

/-! ## Time and shutdown -/

/-- The connections whose clients have been silent for too long. -/
def silent (hub : Hub μ) : List ConnectionId :=
  match hub.idleTimeout with
  | none => []
  | some limit =>
      (hub.clients.filter fun client => client.lastMessage + limit ≤ hub.now).filterMap
        Client.connection

/-- The moments at which clients that stay silent are closed. -/
def deadlines (hub : Hub μ) : List Nat :=
  match hub.idleTimeout with
  | none => []
  | some limit => hub.clients.map fun client => client.lastMessage + limit

/-- A hub in time: it is busy when tasks are due and when clients have been silent for too long.
The tasks come first. -/
def timeline (table : Table μ) : Timeline (Hub μ) where
  now := now
  moments hub := hub.server.scheduler.moments ++ hub.deadlines
  pass seconds hub :=
    hub.withServer { hub.server with scheduler := hub.server.scheduler.pass seconds }
  settle hub :=
    let ran := hub.settle table
    (ran.silent.foldl (dismiss table) ran).settle table
  now_pass _ _ := rfl
  moments_pass _ _ := rfl
  pass_zero _ := rfl
  pass_add first second hub := by
    simp only [withServer, server, Scheduler.pass_add]

def advance (table : Table μ) (seconds : Nat) (hub : Hub μ) : Hub μ :=
  (timeline table).advance seconds hub

/-- Ends delivery and stops the server; answers nothing when that has been done before. -/
def shutDown (table : Table μ) (hub : Hub μ) : Option Bool × Hub μ :=
  if hub.isDelivering then
    let (_, server) := hub.server.stop table
    (some true, { hub with isDelivering := false }.withServer server)
  else (none, hub)

end Hub

end SessionServer
