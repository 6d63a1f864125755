import SessionServer.Dispatch.Table
import SessionServer.Server

/-!
Contract: providers whose handlers and tasks are lists of actions, with a journal of what they see.

Owns:
- `Action`, one thing that a handler or a task may do, and `play`, the procedure of a list of them;
- `Scripted`, a memory that adds the journal and the handles of named tasks to another memory, so
  that scripted providers stand beside any others in one table;
- named tasks, scheduled from the outside.

An action that asks for the end of the task does not keep later actions of the list from being
carried out; an abort does.
-/

namespace SessionServer

namespace Script

/-- One thing that a handler or a task does, for the connection it runs for. -/
inductive Action where
  /-- Sends the request's arguments under a code. -/
  | reply (code : Code)
  | push (code : Code) (args : Args)
  | pushTo (connection : ConnectionId) (code : Code) (args : Args)
  | text (content : String)
  | quit
  | setState (state : State)
  | bind (identity : Identity)
  | close
  /-- Calls another handler; without arguments of its own it passes on those of the request. -/
  | invoke (code : Code) (state : State) (args : Option Args)
  /-- Notes the request in the journal. -/
  | seen
  /-- Notes the two typed views of an argument in the journal. -/
  | argument (name : String)
  | note (content : Json)
  | cancel (name : String)
  /-- Asks that the task end with this run. -/
  | stop
  | abort

inductive Event where
  | init (provider : String)
  | destroy (provider : String)
  | setState (known : Bool)
  | bind (known : Bool)
  | invoke (outcome : FrameOutcome)
  | seen (connection : ConnectionId) (state : State) (args : Args)
  | argument (integer : Option Int) (text : Option String)
  | note (content : Json)
  | run (connection : ConnectionId)

end Script

/-- A memory with a journal and the handles of named tasks beside it. -/
structure Scripted (μ : Type) where
  inner : μ
  journal : List Script.Event := []
  handles : OrderedMap String TaskId := .empty

namespace Scripted

variable {μ : Type}

def withInner (memory : Scripted μ) (inner : μ) : Scripted μ := { memory with inner }

def log (memory : Scripted μ) (event : Script.Event) : Scripted μ :=
  { memory with journal := memory.journal ++ [event] }

/-- Puts the handle of a task under a name. -/
def withHandle (memory : Scripted μ) (name : String) (task : TaskId) : Scripted μ :=
  { memory with handles := memory.handles.insert name task }

/-- A provider of the inner memory. -/
def lift (provider : Provider μ) : Provider (Scripted μ) := provider.zoom inner withInner

end Scripted

namespace Script

variable {μ : Type}

def log (event : Event) (next : Procedure (Scripted μ)) : Procedure (Scripted μ) :=
  .recall fun memory => .remember (memory.log event) next

/-- Cancels the task of a name; a name without a task cancels nothing. -/
def cancelNamed (name : String) (next : Procedure (Scripted μ)) : Procedure (Scripted μ) :=
  .recall fun memory =>
    match memory.handles.get? name with
    | none => next
    | some task => .cancelTask task next

/-- Carries out actions one after another; the run ends as `ending` says unless an action decides
otherwise. -/
def play (request : Request) (ending : Ending) : List Action → Procedure (Scripted μ)
  | [] => .finish ending
  | .reply code :: rest => .push request.connection code request.args (play request ending rest)
  | .push code args :: rest => .push request.connection code args (play request ending rest)
  | .pushTo connection code args :: rest => .push connection code args (play request ending rest)
  | .text content :: rest => .pushText request.connection content (play request ending rest)
  | .quit :: rest => .quit request.connection (play request ending rest)
  | .setState state :: rest =>
      .setState request.connection state fun known =>
        log (.setState known) (play request ending rest)
  | .bind identity :: rest =>
      .bindIdentity request.connection identity fun known =>
        log (.bind known) (play request ending rest)
  | .close :: rest => .close request.connection (play request ending rest)
  | .invoke code state args :: rest =>
      .invoke code state request.connection (args.getD request.args) fun outcome =>
        log (.invoke outcome) (play request ending rest)
  | .seen :: rest =>
      log (.seen request.connection request.state request.args) (play request ending rest)
  | .argument name :: rest =>
      log (.argument (request.integer? name) (request.text? name)) (play request ending rest)
  | .note content :: rest => log (.note content) (play request ending rest)
  | .cancel name :: rest => cancelNamed name (play request ending rest)
  | .stop :: rest => play request .stop rest
  | .abort :: _ => .finish .aborted

/-! ## Providers -/

/-- The route of a code whose handler carries out a list of actions. -/
def route (code : Code) (allowed : AllowedStates) (actions : List Action) :
    Route (Scripted μ) where
  code := code
  allowed := allowed
  handler request := play request .again actions

/-- A provider that notes its start and its end, and may fail to start. -/
def provider (name : String) (routes : List (Route (Scripted μ))) (failure : Option String) :
    Provider (Scripted μ) where
  name := name
  routes := routes
  init :=
    log (.init name) <| .finish <|
      match failure with
      | none => .again
      | some reason => .refused reason
  destroy := log (.destroy name) .done

/-! ## Named tasks -/

/-- The state that stands in the requests of tasks; no session holds it. -/
def taskState : State := -1

/-- A task that notes its run and carries out a list of actions for a connection. -/
def task (connection : ConnectionId) (actions : List Action) : Procedure (Scripted μ) :=
  log (.run connection) (play ⟨connection, taskState, .empty⟩ .again actions)

/-- Schedules a task and keeps its handle under a name. -/
def scheduleNamed (server : Server (Scripted μ)) (name : String) (timing : Timing)
    (body : Procedure (Scripted μ)) : TaskId × Server (Scripted μ) :=
  let (id, server) := server.schedule timing body
  (id, { server with memory := server.memory.withHandle name id })

/-- Cancels the task of a name from the outside. -/
def cancelTaskNamed (server : Server (Scripted μ)) (name : String) : Server (Scripted μ) :=
  match server.memory.handles.get? name with
  | none => server
  | some id => server.cancelTask id

end Script

end SessionServer
