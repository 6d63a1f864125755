import SessionServer.Network.Serving
import SessionServer.Proofs.Bundle.Sparing
import SessionServer.Proofs.Delivery.Draining
import SessionServer.Proofs.Network.Sinks

/-!
Contract: who can be written to, who is served and who has a session fit together, in whatever order
the parties make their steps.

Owns:
- `Network.Turn`, a step of one of the parties, a due time of the server's own or its stop, and what
  each turn does to the server;
- `Network.Agrees`, by which a connection that can be written to has a session, and the proof that
  every turn keeps it;
- the theorem on all runs of turns, for any number of clients and any table, and what handlers have
  to leave alone for it.

Delivery and the serving of a client both take writing halves out, and the session ends in a later
step than the writing. Where a handler or a task ends a session by itself, serving cannot know of
it.
-/

namespace SessionServer

variable {μ : Type}

namespace Network

/-! ## Turns -/

/-- What can happen to a served network. -/
inductive Turn where
  /-- A step of one of the parties. -/
  | step (step : NetworkStep)
  | pass (seconds : Nat)
  /-- The time of a task has come. -/
  | fire (task : TaskId)
  /-- The server is stopped; clients are served on. -/
  | stop
deriving DecidableEq, Repr

section Turns

variable (table : Table μ) (maxFrameBytes : Nat)

def turn (network : Network μ) : Turn → Network μ
  | .step step => network.step table maxFrameBytes step
  | .pass seconds =>
      { network with server := (Server.Step.pass seconds).apply table network.server }
  | .fire task => { network with server := (Server.Step.fire task).apply table network.server }
  | .stop => { network with server := Server.Step.stop.apply table network.server }

def machine : Machine (Network μ) Turn := ⟨turn table maxFrameBytes⟩

/-- What a turn does to the server. -/
def serverSteps (network : Network μ) : Turn → List (Server.Step μ)
  | .step .accept => [.perform .accept]
  | .step (.finish connection) =>
      if network.phase? connection = some .parting then [.perform (.close connection)] else []
  | .step (.dispatch index) =>
      network.inbox[index]?.toList.map fun inbound => .receive inbound.connection inbound.text
  | .step .drain => [.drain]
  | .step _ => []
  | .pass seconds => [.pass seconds]
  | .fire task => [.fire task]
  | .stop => [.stop]

/-- What any number of turns do to the server, in order. -/
def serverStory (network : Network μ) : List Turn → List (Server.Step μ)
  | [] => []
  | first :: rest =>
      network.serverSteps first ++ serverStory (network.turn table maxFrameBytes first) rest

end Turns

/-! ## Effects -/

/-- Everything that a turn can do, with the steps of the server to which it comes. -/
inductive Effect (table : Table μ) (maxFrameBytes : Nat) (network : Network μ) :
    List (Server.Step μ) → Network μ → Prop where
  | idle : Effect table maxFrameBytes network [] network
  | refused (full : network.server.accept = (none, network.server)) :
      Effect table maxFrameBytes network [.perform .accept] network
  | accepted {opened : Server μ}
      (answer : network.server.accept = (some ⟨network.server.registry.nextNumber⟩, opened))
      (next : opened.registry.nextNumber = network.server.registry.nextNumber + 1) :
      Effect table maxFrameBytes network [.perform .accept]
        { network with
          server := opened
          sinks := network.sinks.register ⟨network.server.registry.nextNumber⟩
          serving := network.serving.insert ⟨network.server.registry.nextNumber⟩ .reading }
  | read (connection : ConnectionId) {content : String}
      (fits : content.utf8ByteSize ≤ maxFrameBytes) :
      Effect table maxFrameBytes network []
        { network with inbox := network.inbox ++ [⟨connection, content⟩] }
  | left (connection : ConnectionId) :
      Effect table maxFrameBytes network [] (network.withPhase connection .leaving)
  | parted (connection : ConnectionId) :
      Effect table maxFrameBytes network []
        { network.withPhase connection .parting with
          sinks := (network.sinks.close connection).2 }
  | finished {connection : ConnectionId} (parted : network.phase? connection = some .parting) :
      Effect table maxFrameBytes network [.perform (.close connection)]
        { network with
          server := network.server.close connection
          serving := network.serving.erase connection }
  | looked {index : Nat} {inbound : Inbound} (found : network.inbox[index]? = some inbound) :
      Effect table maxFrameBytes network [.receive inbound.connection inbound.text]
        { network with
          server := (network.server.receive table inbound.connection inbound.text).2
          inbox := network.inbox.eraseIdx index }
  | drained :
      Effect table maxFrameBytes network [.drain]
        { network with
          server :=
            { network.server with queue := ⟨network.server.queue.frames.drop 1⟩ }
          sinks := (drainOnce network.server.queue network.sinks).transport }
  /-- The server does something of its own. -/
  | own {step : Server.Step μ} (own : step.IsTime ∨ step = .stop) :
      Effect table maxFrameBytes network [step]
        { network with server := step.apply table network.server }

section Effects

variable {table : Table μ} {maxFrameBytes : Nat} (network : Network μ)

private theorem effect_accept :
    Effect table maxFrameBytes network [.perform .accept] network.accept.2 := by
  have answer : network.server.accept = (network.server.registry.accept.1,
      { network.server with registry := network.server.registry.accept.2 }) := rfl
  unfold accept
  rcases network.server.registry.accept_cases with full | ⟨opened, accepted, next, -⟩
  · rw [full] at answer
    rw [answer]
    exact .refused answer
  · rw [accepted] at answer
    rw [answer]
    exact .accepted answer next

private theorem effect_read (connection : ConnectionId) (message : Message) :
    Effect table maxFrameBytes network [] (network.read maxFrameBytes connection message) := by
  cases message with
  | text content =>
      show Effect _ _ _ _ (if maxFrameBytes < content.utf8ByteSize then network else _)
      split
      · exact .idle
      · next fits => exact .read connection (Nat.not_lt.mp fits)
  | binary => exact .idle
  | ping content => exact .idle
  | close => exact .left connection

theorem effect_turn (turn : Turn) :
    Effect table maxFrameBytes network (network.serverSteps turn)
      (network.turn table maxFrameBytes turn) := by
  cases turn with
  | pass seconds => exact .own (.inl trivial)
  | fire task => exact .own (.inl trivial)
  | stop => exact .own (.inr rfl)
  | step step =>
      show Effect _ _ _ _ (network.step table maxFrameBytes step)
      cases step with
      | accept => exact network.effect_accept
      | message connection message =>
          unfold Network.step
          dsimp only
          split
          · exact network.effect_read connection message
          · exact .idle
      | leave connection =>
          unfold Network.step
          dsimp only
          split
          · exact .left connection
          · exact .idle
      | part connection =>
          unfold Network.step
          dsimp only
          split
          · exact .parted connection
          · exact .idle
      | finish connection =>
          unfold Network.step serverSteps
          dsimp only
          split
          · next parted => exact .finished parted
          · exact .idle
      | dispatch index =>
          show Effect _ _ _ (network.inbox[index]?.toList.map _) (network.dispatch table index)
          unfold dispatch
          cases found : network.inbox[index]? with
          | none => exact .idle
          | some inbound => exact .looked found
      | drain =>
          have delivered : Effect table maxFrameBytes network [.drain] _ := .drained
          rw [← frames_drainOnce network.server.queue network.sinks] at delivered
          exact delivered

variable {network}

/-- The steps lead the server to where the turn leads it. -/
theorem Effect.server {steps : List (Server.Step μ)} {after : Network μ}
    (effect : Effect table maxFrameBytes network steps after) :
    after.server = (Server.steps table).run network.server steps := by
  cases effect with
  | refused full => exact (congrArg Prod.snd full).symm
  | accepted answer next => exact (congrArg Prod.snd answer).symm
  | _ => rfl

theorem server_run (network : Network μ) (turns : List Turn) :
    ((machine table maxFrameBytes).run network turns).server =
      (Server.steps table).run network.server
        (serverStory table maxFrameBytes network turns) := by
  induction turns generalizing network with
  | nil => rfl
  | cons first rest inductionHypothesis =>
      rw [serverStory, Machine.run_append, ← (effect_turn network first).server]
      exact inductionHypothesis (network.turn table maxFrameBytes first)

end Effects

/-! ## Inbound texts -/

section Inbox

variable {table : Table μ} {maxFrameBytes : Nat} {network : Network μ}

/-- No text that waits to be looked at is too long. -/
def Bounded (maxFrameBytes : Nat) (network : Network μ) : Prop :=
  ∀ inbound ∈ network.inbox, inbound.text.utf8ByteSize ≤ maxFrameBytes

/-- No text that the server is given is too long. -/
def BoundedSteps (maxFrameBytes : Nat) (steps : List (Server.Step μ)) : Prop :=
  ∀ connection text, .receive connection text ∈ steps → text.utf8ByteSize ≤ maxFrameBytes

theorem Effect.bounded {steps : List (Server.Step μ)} {after : Network μ}
    (effect : Effect table maxFrameBytes network steps after)
    (bounded : network.Bounded maxFrameBytes) :
    after.Bounded maxFrameBytes ∧ BoundedSteps maxFrameBytes steps := by
  cases effect with
  | read connection fits =>
      refine ⟨?_, nofun⟩
      intro inbound member
      rcases List.mem_append.mp member with before | new
      · exact bounded inbound before
      · rw [List.mem_singleton.mp new]
        exact fits
  | @looked index inbound found =>
      refine ⟨fun other member => bounded other (List.mem_of_mem_eraseIdx member), ?_⟩
      intro connection text member
      cases List.mem_singleton.mp member
      exact bounded inbound (List.mem_of_getElem? found)
  | own own =>
      refine ⟨bounded, ?_⟩
      intro connection text member
      rw [← List.mem_singleton.mp member] at own
      rcases own with time | stop
      · cases time
      · cases stop
  | idle => exact ⟨bounded, nofun⟩
  | left connection => exact ⟨bounded, nofun⟩
  | parted connection => exact ⟨bounded, nofun⟩
  | _ =>
      refine ⟨bounded, ?_⟩
      intro connection text member
      cases List.mem_singleton.mp member

theorem bounded_serverStory (bounded : network.Bounded maxFrameBytes) (turns : List Turn) :
    BoundedSteps maxFrameBytes (serverStory table maxFrameBytes network turns) := by
  induction turns generalizing network with
  | nil => exact nofun
  | cons first rest inductionHypothesis =>
      obtain ⟨kept, now⟩ := (effect_turn network first).bounded bounded
      intro connection text member
      rcases List.mem_append.mp member with early | late
      · exact now connection text early
      · exact inductionHypothesis kept connection text late

end Inbox

/-! ## Closes -/

section Closing

variable {table : Table μ} {maxFrameBytes : Nat} {network : Network μ}

/-- The writing halves are sealed for the numbers that the server has given out. -/
def Sealed (network : Network μ) : Prop :=
  network.sinks.Sealed network.server.registry.nextNumber

theorem Effect.intact {steps : List (Server.Step μ)} {after : Network μ}
    (effect : Effect table maxFrameBytes network steps after) (intact : network.Sealed) :
    after.Sealed := by
  have later : network.sinks.Sealed after.server.registry.nextNumber := by
    refine intact.of_le ?_
    rw [effect.server, Server.run_steps]
    exact network.server.nextNumber_le_run _
  cases effect with
  | accepted answer next =>
      show Sinks.Sealed _ (network.sinks.register _)
      rw [next]
      exact intact.register
  | parted connection => exact later.moves (network.sinks.moves_close connection)
  | drained => exact later.moves (Sinks.moves_drainOnce _ _)
  | _ => exact later

end Closing

/-! ## Sessions -/

/-- Who can be written to has a session, and is being served at an earlier point than its end. -/
structure Agrees (network : Network μ) : Prop where
  live : ∀ connection, network.sinks.isOpen connection = true →
    network.server.isOpen connection = true
  parted : ∀ connection, network.phase? connection = some .parting →
    network.sinks.isOpen connection = false
  tasks : network.server.scheduler.Each (Procedure.Only Call.Sparing)

section Agreeing

variable {table : Table μ} {maxFrameBytes : Nat} {network : Network μ}

theorem phase?_withPhase (network : Network μ) (connection other : ConnectionId)
    (phase : Serving) : (network.withPhase connection phase).phase? other =
      if connection = other then some phase else network.phase? other :=
  OrderedMap.get?_insert _ _ _ _

/-- A client is parted from as it was before, or because it has come to that phase now. -/
theorem parting_of_withPhase {connection other : ConnectionId} {phase : Serving}
    (parting : (network.withPhase connection phase).phase? other = some .parting) :
    connection ≠ other ∧ network.phase? other = some .parting ∨
      connection = other ∧ phase = .parting := by
  rw [phase?_withPhase] at parting
  split at parting
  · next same => exact .inr ⟨same, Option.some.inj parting⟩
  · next apart => exact .inl ⟨apart, parting⟩

/-- Whatever leaves sessions alone has to write to no others and to part from no others than those
that it takes the writing half of. -/
theorem Agrees.of_outlasts (agrees : network.Agrees) {after : Network μ}
    (outlasts : Server.Outlasts network.server after.server)
    (moves : network.sinks.Moves after.sinks)
    (parted : ∀ connection, after.phase? connection = some .parting →
      network.phase? connection = some .parting ∨ after.sinks.isOpen connection = false) :
    after.Agrees where
  live connection isOpen :=
    outlasts.isOpen connection (agrees.live connection (moves.isOpen_of_isOpen isOpen))
  parted connection parting := by
    rcases parted connection parting with before | shut
    · have shut := agrees.parted connection before
      rw [Bool.eq_false_iff] at shut ⊢
      exact fun isOpen => shut (moves.isOpen_of_isOpen isOpen)
    · exact shut
  tasks := outlasts.tasks

/-- A step of the server in which nobody asks for the end of a session. -/
theorem Agrees.outlasts_step (agrees : network.Agrees) {step : Server.Step μ}
    (only : Server.HappensOnly Call.Sparing (step.happenings table network.server)) :
    Server.Outlasts network.server (step.apply table network.server) := by
  rw [Server.Step.apply_eq_run]
  exact Server.outlasts_run agrees.tasks only

/-- A new connection has a session from the moment at which it can be written to, and is read from
at first. -/
theorem Agrees.accepted (agrees : network.Agrees) {opened : Server μ}
    (answer : network.server.accept = (some ⟨network.server.registry.nextNumber⟩, opened)) :
    Agrees { network with
      server := opened
      sinks := network.sinks.register ⟨network.server.registry.nextNumber⟩
      serving := network.serving.insert ⟨network.server.registry.nextNumber⟩ .reading } := by
  have after : opened = network.server.happen (.act (.perform .accept)) :=
    (congrArg Prod.snd answer).symm
  have outlasts : Server.Outlasts network.server opened := by
    rw [after]
    refine Server.outlasts_happen agrees.tasks fun act member => ?_
    cases List.mem_singleton.mp member
    exact trivial
  have isOpen : opened.isOpen ⟨network.server.registry.nextNumber⟩ = true := by
    rw [after]
    exact (network.server.isOpen_happen _ _).mpr (.inl ⟨rfl, congrArg Prod.fst answer⟩)
  constructor
  case live =>
    intro other writable
    rw [Sinks.isOpen_register, Bool.or_eq_true, decide_eq_true_eq] at writable
    rcases writable with rfl | before
    · exact isOpen
    · exact outlasts.isOpen other (agrees.live other before)
  case parted =>
    intro other parting
    have phase :
        (network.withPhase ⟨network.server.registry.nextNumber⟩ .reading).phase? other =
          some .parting := parting
    rcases parting_of_withPhase phase with ⟨apart, before⟩ | ⟨-, impossible⟩
    · rw [Sinks.isOpen_register, agrees.parted other before, Bool.or_false]
      exact decide_eq_false apart
    · cases impossible
  case tasks => exact outlasts.tasks

/-- A client that is left for good is not written to from then on. -/
theorem Agrees.parting (agrees : network.Agrees) (connection : ConnectionId) :
    Agrees { network.withPhase connection .parting with
      sinks := (network.sinks.close connection).2 } := by
  have still : Server.Outlasts network.server network.server :=
    ⟨fun _ isOpen => isOpen, agrees.tasks⟩
  refine agrees.of_outlasts still (network.sinks.moves_close connection) ?_
  intro other parting
  have phase : (network.withPhase connection .parting).phase? other = some .parting := parting
  rcases parting_of_withPhase phase with ⟨-, before⟩ | ⟨rfl, -⟩
  · exact .inl before
  · exact .inr (network.sinks.not_isOpen_close connection)

/-- A session ends when its connection cannot be written to any more. -/
theorem Agrees.finished (agrees : network.Agrees) {connection : ConnectionId}
    (parted : network.phase? connection = some .parting) :
    Agrees { network with
      server := network.server.close connection
      serving := network.serving.erase connection } := by
  constructor
  case live =>
    intro other writable
    have apart : connection ≠ other := by
      rintro rfl
      have shut : network.sinks.isOpen connection = false := agrees.parted connection parted
      rw [show network.sinks.isOpen connection = true from writable] at shut
      cases shut
    refine (network.server.isOpen_happen (.act (.perform (.close connection))) other).mpr
      (.inr ⟨agrees.live other writable, ?_⟩)
    intro closes
    have same : connection = other := by
      simpa [Server.Closes] using closes
    exact apart same
  case parted =>
    intro other parting
    refine agrees.parted other ?_
    have phase : (network.serving.erase connection).get? other = some .parting := parting
    rw [OrderedMap.get?_erase] at phase
    split at phase
    · cases phase
    · exact phase
  case tasks => exact agrees.tasks.cancelSession connection

/-- What the server does of its own ends no session, as long as handlers, tasks and hooks do not. -/
theorem Agrees.own (served : table.Only Call.Sparing) (agrees : network.Agrees)
    {step : Server.Step μ} (own : step.IsTime ∨ step = .stop) :
    Agrees { network with server := step.apply table network.server } := by
  have only : Server.HappensOnly Call.Sparing (step.happenings table network.server) := by
    rcases own with time | rfl
    · cases step with
      | pass seconds =>
          intro act member
          cases List.mem_singleton.mp member
      | fire task => exact Server.happensOnly_fire served agrees.tasks task
      | _ => cases time
    · exact Server.happensOnly_stop served
  exact agrees.of_outlasts (agrees.outlasts_step only) .idle fun _ parting => .inl parting

theorem Effect.agrees (served : table.Only Call.Sparing) {steps : List (Server.Step μ)}
    {after : Network μ} (effect : Effect table maxFrameBytes network steps after)
    (agrees : network.Agrees) : after.Agrees := by
  have still : Server.Outlasts network.server network.server :=
    ⟨fun _ isOpen => isOpen, agrees.tasks⟩
  cases effect with
  | idle => exact agrees
  | refused full => exact agrees
  | accepted answer next => exact agrees.accepted answer
  | read connection fits => exact agrees.of_outlasts still .idle fun _ parting => .inl parting
  | left connection =>
      refine agrees.of_outlasts still .idle ?_
      intro other parting
      rcases parting_of_withPhase parting with ⟨-, before⟩ | ⟨-, impossible⟩
      · exact .inl before
      · cases impossible
  | parted connection => exact agrees.parting connection
  | finished parted => exact agrees.finished parted
  | looked found =>
      exact agrees.of_outlasts (agrees.outlasts_step (Server.happensOnly_receive served _ _)) .idle
        fun _ parting => .inl parting
  | drained =>
      have shorter : Server.Outlasts network.server
          { network.server with queue := ⟨network.server.queue.frames.drop 1⟩ } :=
        ⟨still.isOpen, still.tasks⟩
      exact agrees.of_outlasts shorter (Sinks.moves_drainOnce _ _) fun _ parting => .inl parting
  | own own => exact agrees.own served own

end Agreeing

/-! ## Runs -/

section Runs

variable {table : Table μ} {maxFrameBytes : Nat} {server : Server μ}

theorem sealed_run (turns : List Turn) :
    ((machine table maxFrameBytes).run { server } turns).Sealed := by
  have unsealed : ({ server } : Network μ).Sealed := Sinks.sealed_empty _
  exact Machine.run_invariant Sealed unsealed
    (fun reached turn before => (effect_turn reached turn).intact before) turns

theorem agrees_run (served : table.Only Call.Sparing)
    (tasks : server.scheduler.Each (Procedure.Only Call.Sparing)) (turns : List Turn) :
    ((machine table maxFrameBytes).run { server } turns).Agrees := by
  have alone : ({ server } : Network μ).Agrees := by
    refine ⟨?_, ?_, tasks⟩
    · intro connection writable
      cases writable
    · intro connection parting
      cases parting
  exact Machine.run_invariant Agrees alone
    (fun reached turn before => (effect_turn reached turn).agrees served before) turns

variable (table maxFrameBytes server)

/-- Whatever clients, delivery, tasks and the stop of the server do, and in whatever order: a
connection that can be written to has a session, as long as handlers, tasks and hooks leave the end
of sessions to the serving of clients; a connection is closed once at most, and nothing is written
to it afterwards; and no text that the server is given is longer than the limit. All that is ever
done to the server is told by its story, inbound texts included. -/
theorem transport_agrees_with_registry (turns : List Turn) :
    let network := (machine table maxFrameBytes).run { server } turns
    let story := serverStory table maxFrameBytes { server } turns
    (table.Only Call.Sparing → server.scheduler.Each (Procedure.Only Call.Sparing) →
      ∀ connection, network.sinks.isOpen connection = true →
        network.server.registry.contains connection = true) ∧
    (∀ connection, network.sinks.wire.count ⟨connection, .close⟩ ≤ 1) ∧
    (∀ connection before after, network.sinks.wire = before ++ ⟨connection, .close⟩ :: after →
      ∀ frame ∈ after, frame.connection ≠ connection) ∧
    network.server = (Server.steps table).run server story ∧
    ∀ connection text, .receive connection text ∈ story → text.utf8ByteSize ≤ maxFrameBytes := by
  intro network story
  have intact : network.Sealed := sealed_run turns
  have unread : ({ server } : Network μ).Bounded maxFrameBytes := by
    intro inbound member
    cases member
  exact ⟨fun served tasks => (agrees_run served tasks turns).live, intact.count_close_le,
    fun _ _ _ split => intact.not_written_behind split, server_run { server } turns,
    bounded_serverStory unread turns⟩

/-- The serving of one client and delivery both set out to close its connection, while another
client stays. -/
theorem transport_agrees_with_registry_sample :
    let turns : List Turn :=
      [.step .accept, .step .accept, .step (.message ⟨1⟩ (.text "\x7b\"value\":100\x7d")),
        .step (.dispatch 0), .step .drain, .step (.message ⟨1⟩ .close), .step .drain,
        .step (.part ⟨1⟩), .pass 60, .fire 0, .step (.finish ⟨1⟩)]
    let network := (machine Bundle.sampleTable 64).run { server := Bundle.sampleServer {} } turns
    network.sinks.isOpen ⟨2⟩ = true ∧ network.server.registry.contains ⟨2⟩ = true ∧
      ⟨⟨1⟩, .close⟩ ∈ network.sinks.wire ∧ network.sinks.wire.count ⟨⟨1⟩, .close⟩ ≤ 1 := by
  intro turns network
  have writable : network.sinks.isOpen ⟨2⟩ = true := by decide +kernel
  obtain ⟨served, tasks⟩ := (Bundle.started_sample {}).sparing
  obtain ⟨live, once, -⟩ :=
    transport_agrees_with_registry Bundle.sampleTable 64 (Bundle.sampleServer {}) turns
  exact ⟨writable, live served tasks ⟨2⟩ writable, by decide +kernel, once ⟨1⟩⟩

end Runs

end Network

/-- With the bundled providers a connection that can be written to has a session at any time. -/
theorem Bundle.Started.contains_of_isOpen {σ : Type} [EntityStore σ Player] {store : σ}
    {table : Table (Features σ)} {server : Server (Features σ)}
    (started : Bundle.Started store table server) (maxFrameBytes : Nat)
    (turns : List Network.Turn) {connection : ConnectionId}
    (writable : ((Network.machine table maxFrameBytes).run { server } turns).sinks.isOpen
      connection = true) :
    ((Network.machine table maxFrameBytes).run { server } turns).server.registry.contains
      connection = true := by
  obtain ⟨served, tasks⟩ := started.sparing
  exact (Network.agrees_run served tasks turns).live connection writable

end SessionServer
