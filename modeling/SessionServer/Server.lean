import SessionServer.Dispatch.Table
import SessionServer.Scheduler.Clockwork

/-!
Contract: the running server, the state that procedures act on and the entry points of the network.

Owns:
- `Server`, the sessions, the delivery queue, the tasks and the memory of the providers;
- `Server.perform`, the meaning of a single request, and `Server.follow`, the meaning of a
  procedure;
- the path of an inbound frame (`receive`): it must not be empty, must be an envelope, must come
  from an open connection, must carry a known code, and the session's state must be among those
  that may reach the code. Every failure drops the frame without an answer.
- the start and the stop of the server through the hooks of its providers.

Handlers may call one another. Calls nest at most `callDepth` deep; a deeper one aborts, and so
does everything around it. An aborted entry point answers `none`.

Does not own: accepting and reading connections (`Network`), or what handlers do (`Provider`).
-/

namespace SessionServer

/-- Everything that a running server keeps, its table left aside. -/
structure Server (μ : Type) where
  registry : Registry
  queue : DeliveryQueue := .empty
  scheduler : Scheduler (Procedure μ) := .fresh
  /-- What the providers keep between calls. -/
  memory : μ
  /-- The wall clock at the start, in milliseconds of Unix time. -/
  epoch : UInt64 := 0

namespace Server

variable {μ : Type}

def fresh (capacity : Nat) (memory : μ) (epoch : UInt64) : Server μ :=
  { registry := { capacity }, memory, epoch }

/-! ## Single requests -/

/-- The wall clock in milliseconds of Unix time. -/
def clock (server : Server μ) : UInt64 :=
  server.epoch + 1000 * UInt64.ofNat server.scheduler.now

/-- Starts the session of a new connection, unless the server is full. -/
def accept (server : Server μ) : Option ConnectionId × Server μ :=
  let (connection, registry) := server.registry.accept
  (connection, { server with registry })

/-- Ends the session of a connection and cancels its tasks. -/
def close (server : Server μ) (connection : ConnectionId) : Server μ :=
  { server with
    registry := (server.registry.close connection).2
    scheduler := (server.scheduler.cancelSession connection).2 }

def enqueue (server : Server μ) (frame : Frame) : Server μ :=
  { server with queue := server.queue.push frame }

def setState (server : Server μ) (connection : ConnectionId) (state : State) : Bool × Server μ :=
  let (known, registry) := server.registry.setState connection state
  (known, { server with registry })

def bind (server : Server μ) (connection : ConnectionId) (identity : Identity) :
    Bool × Server μ :=
  let (known, registry) := server.registry.bind connection identity
  (known, { server with registry })

/-- Whether the session of a connection is live. -/
def isOpen (server : Server μ) (connection : ConnectionId) : Bool :=
  server.registry.contains connection

def push (server : Server μ) (connection : ConnectionId) (code : Code) (args : Args) : Server μ :=
  server.enqueue ⟨connection, .text (Envelope.toText ⟨code, args⟩)⟩

def pushText (server : Server μ) (connection : ConnectionId) (content : String) : Server μ :=
  server.enqueue ⟨connection, .text content⟩

/-- Queues a request to close, behind everything already queued. -/
def quit (server : Server μ) (connection : ConnectionId) : Server μ :=
  server.enqueue ⟨connection, .close⟩

def cancelTask (server : Server μ) (task : TaskId) : Server μ :=
  { server with scheduler := server.scheduler.cancel task }

def perform (server : Server μ) : (request : Call) → request.Reply × Server μ
  | .accept => server.accept
  | .close connection => ((), server.close connection)
  | .enqueue frame => ((), server.enqueue frame)
  | .session connection => (server.registry.session? connection, server)
  | .setState connection state => server.setState connection state
  | .bind connection identity => server.bind connection identity
  | .holder identity => (server.registry.holder? identity, server)
  | .cancel task => ((), server.cancelTask task)
  | .isCancelled task => (server.scheduler.isCancelled task, server)
  | .clock => (server.clock, server)

/-- Schedules a task. A session task of a connection that is not open is not scheduled at all; its
handle is cancelled from the outset. -/
def schedule (server : Server μ) (timing : Timing) (body : Procedure μ) : TaskId × Server μ :=
  match timing with
  | .session connection _ =>
      if server.isOpen connection then
        let (id, scheduler) := server.scheduler.schedule timing (body.whileOpen connection)
        (id, { server with scheduler })
      else
        let (id, scheduler) := server.scheduler.refuse
        (id, { server with scheduler })
  | _ =>
      let (id, scheduler) := server.scheduler.schedule timing body
      (id, { server with scheduler })

/-! ## Procedures -/

/-- How a procedure is followed inside another one. -/
abbrev Follower (μ : Type) := Procedure μ → Server μ → Ending × Server μ

/-- Calls the entry of a code as if the session were in the given state. -/
def dispatch (table : Table μ) (follower : Follower μ) (server : Server μ) (code : Code)
    (state : State) (connection : ConnectionId) (args : Args) : Option FrameOutcome × Server μ :=
  match table.get? code with
  | none => (some (.unknownCode code), server)
  | some entry =>
      if entry.allowed.permits state then
        match follower (entry.handler ⟨connection, state, args⟩) server with
        | (.aborted, server) => (none, server)
        | (_, server) => (some (.handled code), server)
      else (some (.rejected code state), server)

/-- Takes an inbound text through its checks to its handler. -/
def receiveWith (table : Table μ) (follower : Follower μ) (server : Server μ)
    (connection : ConnectionId) (text : String) : Option FrameOutcome × Server μ :=
  match Envelope.parse text with
  | .error .empty => (some .empty, server)
  | .error _ => (some .malformed, server)
  | .ok envelope =>
      match server.registry.state? connection with
      | none => (some .unknownConnection, server)
      | some state =>
          dispatch table follower server envelope.value state connection envelope.args

/-- Follows the closing hooks of the providers in turn; an aborted one ends the row. -/
def destroyAll (follower : Follower μ) : List (Provider μ) → Server μ → Option Unit × Server μ
  | [], server => (some (), server)
  | provider :: rest, server =>
      match follower provider.destroy server with
      | (.aborted, server) => (none, server)
      | (_, server) => destroyAll follower rest server

/-- Follows every closing hook, then shuts the tasks down. -/
def stopWith (table : Table μ) (follower : Follower μ) (server : Server μ) :
    Option Unit × Server μ :=
  match destroyAll follower table.providers server with
  | (none, server) => (none, server)
  | (some _, server) => (some (), { server with scheduler := server.scheduler.shutDown })

/-- Follows a procedure, handing procedures inside it to the given follower. -/
def follow (table : Table μ) (follower : Follower μ) : Follower μ
  | .finish ending, server => (ending, server)
  | .recall next, server => follow table follower (next server.memory) server
  | .remember memory next, server => follow table follower next { server with memory }
  | .call request next, server =>
      let (reply, server) := server.perform request
      follow table follower (next reply) server
  | .receive connection text next, server =>
      match receiveWith table follower server connection text with
      | (none, server) => (.aborted, server)
      | (some outcome, server) => follow table follower (next outcome) server
  | .invoke code state connection args next, server =>
      match dispatch table follower server code state connection args with
      | (none, server) => (.aborted, server)
      | (some outcome, server) => follow table follower (next outcome) server
  | .schedule timing body next, server =>
      let (id, server) := server.schedule timing body
      follow table follower (next id) server
  | .stopServer next, server =>
      match stopWith table follower server with
      | (none, server) => (.aborted, server)
      | (some _, server) => follow table follower next server

/-- Follows a procedure with calls nested at most so deep. -/
def followWithin (table : Table μ) : Nat → Follower μ
  | 0 => fun _ server => (.aborted, server)
  | depth + 1 => follow table (followWithin table depth)

def callDepth : Nat := 1000

/-- Follows a procedure from the outside. -/
def run (table : Table μ) : Follower μ := followWithin table callDepth

/-! ## Entry points -/

/-- Calls the entry of a code as if the session were in the given state.

Handlers call one another this way with a state that no session holds, which keeps the routes
meant for them out of reach of the clients. -/
def invoke (table : Table μ) (server : Server μ) (code : Code) (state : State)
    (connection : ConnectionId) (args : Args) : Option FrameOutcome × Server μ :=
  dispatch table (run table) server code state connection args

/-- Takes an inbound text through its checks to its handler. -/
def receive (table : Table μ) (server : Server μ) (connection : ConnectionId) (text : String) :
    Option FrameOutcome × Server μ :=
  receiveWith table (run table) server connection text

/-- Follows the start-up hooks of the providers in turn, up to one that cannot go on. -/
def initAll (table : Table μ) : List (Provider μ) → Server μ →
    Option (Except DispatchError Unit) × Server μ
  | [], server => (some (.ok ()), server)
  | provider :: rest, server =>
      match run table provider.init server with
      | (.aborted, server) => (none, server)
      | (.refused reason, server) => (some (.error (.initFailed provider.name reason)), server)
      | (_, server) => initAll table rest server

/-- Follows every start-up hook in the order of registration. -/
def start (table : Table μ) (server : Server μ) : Option (Except DispatchError Unit) × Server μ :=
  initAll table table.providers server

/-- Follows every closing hook, then shuts the tasks down. -/
def stop (table : Table μ) (server : Server μ) : Option Unit × Server μ :=
  stopWith table (run table) server

def clockwork (table : Table μ) : Clockwork (Server μ) (Procedure μ) where
  scheduler := Server.scheduler
  withScheduler server scheduler := { server with scheduler }
  perform _ body server := run table body server

/-- Runs every task that is due at the present moment. -/
def settle (table : Table μ) (server : Server μ) : Server μ := (clockwork table).settle server

def advance (table : Table μ) (server : Server μ) (seconds : Nat) : Server μ :=
  (clockwork table).advance seconds server

end Server

end SessionServer
