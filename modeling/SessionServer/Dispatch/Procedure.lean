import SessionServer.Delivery.Queue
import SessionServer.Envelope
import SessionServer.Registry
import SessionServer.Scheduler.Basic

/-!
Contract: what handlers, hooks and task bodies may do, as data.

Owns:
- `Call`, a request to the server that changes or reads sessions, queue and task marks;
- `Procedure`, a tree of such requests in which every answer selects the rest. Providers keep
  their own data in a memory of type `μ`, which a procedure may read and replace.

A procedure has no other access to the server. `Server.follow` says what following one does.
-/

namespace SessionServer

/-- What became of an inbound frame or of a call from handler to handler. -/
inductive FrameOutcome where
  | handled (code : Code)
  | empty
  | malformed
  | unknownCode (code : Code)
  /-- The session's state may not reach the code. -/
  | rejected (code : Code) (state : State)
  /-- The connection was closed before the frame was looked at. -/
  | unknownConnection
deriving DecidableEq, Repr

/-- A request to the server that is answered at once. -/
inductive Call where
  | accept
  | close (connection : ConnectionId)
  | enqueue (frame : Frame)
  | session (connection : ConnectionId)
  | setState (connection : ConnectionId) (state : State)
  | bind (connection : ConnectionId) (identity : Identity)
  | holder (identity : Identity)
  | cancel (task : TaskId)
  | isCancelled (task : TaskId)
  | clock
deriving DecidableEq

namespace Call

def Reply : Call → Type
  | accept => Option ConnectionId
  | close _ => Unit
  | enqueue _ => Unit
  | session _ => Option Session
  | setState _ _ => Bool
  | bind _ _ => Bool
  | holder _ => Option ConnectionId
  | cancel _ => Unit
  | isCancelled _ => Bool
  | clock => UInt64

end Call

/-- What a handler, a hook or a task body does. -/
inductive Procedure (μ : Type) where
  | finish (ending : Ending)
  | recall (next : μ → Procedure μ)
  | remember (memory : μ) (next : Procedure μ)
  | call (request : Call) (next : request.Reply → Procedure μ)
  | receive (connection : ConnectionId) (text : String) (next : FrameOutcome → Procedure μ)
  | invoke (code : Code) (state : State) (connection : ConnectionId) (args : Args)
      (next : FrameOutcome → Procedure μ)
  | schedule (timing : Timing) (body : Procedure μ) (next : TaskId → Procedure μ)
  | stopServer (next : Procedure μ)

namespace Procedure

variable {μ : Type}

def done : Procedure μ := .finish .again

/-! ### Single requests -/

def clock (next : UInt64 → Procedure μ) : Procedure μ := .call .clock next

def session (connection : ConnectionId) (next : Option Session → Procedure μ) : Procedure μ :=
  .call (.session connection) next

def holder (identity : Identity) (next : Option ConnectionId → Procedure μ) : Procedure μ :=
  .call (.holder identity) next

def setState (connection : ConnectionId) (state : State) (next : Bool → Procedure μ) :
    Procedure μ :=
  .call (.setState connection state) next

def bindIdentity (connection : ConnectionId) (identity : Identity) (next : Bool → Procedure μ) :
    Procedure μ :=
  .call (.bind connection identity) next

def close (connection : ConnectionId) (next : Procedure μ) : Procedure μ :=
  .call (.close connection) fun _ => next

def cancelTask (task : TaskId) (next : Procedure μ) : Procedure μ :=
  .call (.cancel task) fun _ => next

def pushText (connection : ConnectionId) (content : String) (next : Procedure μ) : Procedure μ :=
  .call (.enqueue ⟨connection, .text content⟩) fun _ => next

def push (connection : ConnectionId) (code : Code) (args : Args) (next : Procedure μ) :
    Procedure μ :=
  pushText connection (Envelope.toText ⟨code, args⟩) next

/-- Queues a request to close, behind everything already queued. -/
def quit (connection : ConnectionId) (next : Procedure μ) : Procedure μ :=
  .call (.enqueue ⟨connection, .close⟩) fun _ => next

/-! ### Combination -/

/-- Goes on with a second procedure that depends on how the first one ends. -/
def andThen : Procedure μ → (Ending → Procedure μ) → Procedure μ
  | .finish ending, rest => rest ending
  | .recall next, rest => .recall fun memory => (next memory).andThen rest
  | .remember memory next, rest => .remember memory (next.andThen rest)
  | .call request next, rest => .call request fun reply => (next reply).andThen rest
  | .receive connection text next, rest =>
      .receive connection text fun outcome => (next outcome).andThen rest
  | .invoke code state connection args next, rest =>
      .invoke code state connection args fun outcome => (next outcome).andThen rest
  | .schedule timing body next, rest => .schedule timing body fun id => (next id).andThen rest
  | .stopServer next, rest => .stopServer (next.andThen rest)

/-- The body of a session task: it runs only while the connection is open, and when the
connection is not open after a run there is no further one. -/
def whileOpen (connection : ConnectionId) (body : Procedure μ) : Procedure μ :=
  session connection fun before =>
    match before with
    | none => .finish .stop
    | some _ =>
        body.andThen fun ending =>
          session connection fun after =>
            .finish (if after.isSome then ending else .stop)

/-- The same procedure on a larger memory, of which it sees and changes one part only. -/
def zoom {ν : Type} (part : ν → μ) (withPart : ν → μ → ν) : Procedure μ → Procedure ν
  | .finish ending => .finish ending
  | .recall next => .recall fun memory => (next (part memory)).zoom part withPart
  | .remember changed next =>
      .recall fun memory => .remember (withPart memory changed) (next.zoom part withPart)
  | .call request next => .call request fun reply => (next reply).zoom part withPart
  | .receive connection text next =>
      .receive connection text fun outcome => (next outcome).zoom part withPart
  | .invoke code state connection args next =>
      .invoke code state connection args fun outcome => (next outcome).zoom part withPart
  | .schedule timing body next =>
      .schedule timing (body.zoom part withPart) fun id => (next id).zoom part withPart
  | .stopServer next => .stopServer (next.zoom part withPart)

end Procedure

/-- What a handler is given. -/
structure Request where
  connection : ConnectionId
  /-- The state against which the call was checked. -/
  state : State
  args : Args

namespace Request

def integer? (request : Request) (name : String) : Option Int :=
  (request.args.get? name).bind Json.integer?

/-- An integer argument as an account number. -/
def identity? (request : Request) (name : String) : Option Identity :=
  (request.integer? name).map Int64.ofInt

def text? (request : Request) (name : String) : Option String :=
  (request.args.get? name).bind Json.text?

end Request

end SessionServer
