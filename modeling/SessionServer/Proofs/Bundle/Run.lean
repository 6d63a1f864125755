import SessionServer.Proofs.Bundle.Reception
import SessionServer.Proofs.Machine
import SessionServer.Proofs.Scheduler.Bodies

/-!
Contract: the runs of a server with the bundled providers.

Owns:
- `Bundle.Step`, what can happen to a running server, and `Bundle.machine`, the server as a machine
  that makes such steps;
- `Bundle.Started`, a server that has come up with the bundled table;
- `Bundle.Standing`, what the providers rely on between two steps, and the proof that a started
  server has it.

Does not own: what a step does, which is in `Bundle.Effect`.

The store behind the players may be of any kind and may change by itself between two steps.
-/

namespace SessionServer.Bundle

open Server

variable {σ : Type}

/-! ## Steps -/

/-- What can happen to a running server. -/
inductive Step (σ : Type) where
  | accept
  | close (connection : ConnectionId)
  | receive (connection : ConnectionId) (text : String)
  /-- Seconds go by. -/
  | pass (seconds : Nat)
  /-- The time of a task has come. -/
  | fire (task : TaskId)
  | flush
  /-- A frame leaves the queue, whatever the transport makes of it. -/
  | drain
  /-- The store changes by itself, as it does when an outage begins or ends. -/
  | disturb (change : σ → σ)

/-- The cache before a store that has changed by itself. -/
def disturbed (cache : Cache Player σ) (change : σ → σ) : Cache Player σ :=
  { cache with store := change cache.store }

namespace Step

/-- The connection and the account of a successful login. -/
def login? (server : Server (Features σ)) : Step σ → Option (ConnectionId × Identity)
  | .receive connection text =>
      (server.login? connection text).map fun uid => (connection, uid)
  | _ => none

section Logins

variable {server : Server (Features σ)} {step : Step σ} {connection : ConnectionId}
  {uid : Identity}

theorem state?_of_login? (login : step.login? server = some (connection, uid)) :
    server.registry.state? connection = some State.none := by
  cases step with
  | receive sender text =>
      obtain ⟨account, found, same⟩ := Option.map_eq_some_iff.mp login
      cases same
      exact Bundle.state?_of_login? found
  | _ => cases login

theorem isOpen_of_login? (login : step.login? server = some (connection, uid)) :
    server.registry.contains connection = true :=
  Registry.contains_of_state? (state?_of_login? login)

end Logins

variable [EntityStore σ Player]

/-- The server after a step. -/
def apply (table : Table (Features σ)) (server : Server (Features σ)) :
    Step σ → Server (Features σ)
  | .accept => server.accept.2
  | .close connection => server.close connection
  | .receive connection text => (server.receive table connection text).2
  | .pass seconds => (clockwork table).timeline.pass seconds server
  | .fire task => (clockwork table).fire server task
  | .flush => (Server.run table Players.flush server).2
  | .drain => { server with queue := ⟨server.queue.frames.drop 1⟩ }
  | .disturb change => server.withCache (disturbed server.memory.cache change)

end Step

/-! ## Runs -/

/-- A server with a given table, as a machine that makes steps. -/
def machine [EntityStore σ Player] (table : Table (Features σ)) :
    Machine (Server (Features σ)) (Step σ) :=
  ⟨fun server step => step.apply table server⟩

/-- A step with the servers before and after it. -/
abbrev Event (σ : Type) := Occurrence (Server (Features σ)) (Step σ)

/-- The frames that a step has queued. -/
def Event.sent (event : Event σ) : List Frame :=
  event.after.queue.frames.drop event.before.queue.frames.length

theorem Event.sent_eq {before after : Server (Features σ)} {step : Step σ} {sent : List Frame}
    (frames : after.queue.frames = before.queue.frames ++ sent) :
    Event.sent ⟨before, step, after⟩ = sent := by
  rw [Event.sent, frames, List.drop_left]

/-- The connection and the account of a step that is a successful login. -/
def Event.login? (event : Event σ) : Option (ConnectionId × Identity) :=
  event.step.login? event.before

/-! ## Starting -/

/-- The tasks of the bundled providers. -/
def Routine [EntityStore σ Player] (body : Procedure (Features σ)) : Prop :=
  body = Players.flush ∨ ∃ connection, body = (Login.beat connection).whileOpen connection

/-- What the bundled providers rely on between two steps. -/
structure Standing [EntityStore σ Player] (server : Server (Features σ)) : Prop where
  sound : server.registry.Sound
  routine : server.scheduler.Each Routine

section Starting

variable [EntityStore σ Player]

/-- The server has come up with the bundled table, its records in the given store. -/
def Started (store : σ) (table : Table (Features σ)) (server : Server (Features σ)) : Prop :=
  ∃ heartbeat flushPeriod capacity secret entropy epoch,
    bundledTable heartbeat flushPeriod = .ok table ∧
      (Server.fresh capacity (.fresh secret entropy store) epoch).start table =
        (some (.ok ()), server)

variable {store : σ} {table : Table (Features σ)} {server : Server (Features σ)}

theorem Started.serves (started : Started store table server) :
    ∃ heartbeat flushPeriod, Serves table Players.check heartbeat flushPeriod := by
  obtain ⟨heartbeat, flushPeriod, _, _, _, _, made, _⟩ := started
  exact ⟨heartbeat, flushPeriod, serves_of_bundledTable made⟩

omit [EntityStore σ Player] in
/-- The start of the login provider touches nothing but the secret, which it makes up where none is
configured. -/
private theorem follow_loginInit (table : Table (Features σ)) (server : Server (Features σ)) :
    (∃ reason, Server.run table Login.init server = (.refused reason, server)) ∨
      ∃ login : LoginMemory,
        login.secret = some (server.memory.login.secret.getD
          (Hexadecimal.ofBytes server.memory.login.entropy)) ∧
        Server.run table Login.init server =
          (.again, { server with memory := { server.memory with login } }) := by
  rw [run_eq, Login.init, follow_recall]
  cases known : server.memory.login.secret with
  | none => exact .inr ⟨_, rfl, rfl⟩
  | some secret =>
      dsimp only
      split
      · exact .inl ⟨_, rfl⟩
      · exact .inr ⟨server.memory.login, known, rfl⟩

/-- A server that has come up has a secret, has scheduled the flush of its records, and has done
nothing else. -/
theorem start_eq {heartbeat flushPeriod capacity : Nat} {secret : Option String}
    {entropy : List UInt8} {epoch : UInt64} (made : bundledTable heartbeat flushPeriod = .ok table)
    (up : (Server.fresh capacity (.fresh secret entropy store) epoch).start table =
      (some (.ok ()), server)) :
    ∃ memory, memory.cache = .fresh store ∧
      memory.login.secret = some (secret.getD (Hexadecimal.ofBytes entropy)) ∧
      server = { Server.fresh capacity memory epoch with
        scheduler := (Scheduler.fresh.schedule (.repeating flushPeriod) Players.flush).2 } := by
  have providers := (serves_of_bundledTable made).providers
  unfold Server.start at up
  rw [providers, bundledProviders] at up
  have echo : ∀ server, Server.run table (Echo.provider (μ := Features σ)).init server =
      (.again, server) := fun _ => rfl
  have players : ∀ server : Server (Features σ),
      Server.run table (Players.init flushPeriod) server =
        (.again, { (server.schedule (.repeating flushPeriod) Players.flush).2 with
          memory := server.memory.withFlushTask
            (some (server.schedule (.repeating flushPeriod) Players.flush).1) }) :=
    fun _ => rfl
  simp only [initAll, echo, Login.provider, Players.provider, players] at up
  rcases follow_loginInit table
    (Server.fresh capacity (.fresh secret entropy store) epoch) with
    ⟨reason, failed⟩ | ⟨login, known, done⟩
  · rw [failed] at up
    cases up
  · rw [done] at up
    cases up
    exact ⟨_, rfl, known, rfl⟩

/-- A server that has come up has no sessions, nothing to say and its records in the store. -/
theorem Started.spec (started : Started store table server) :
    (∃ capacity, server.registry = { capacity }) ∧ server.queue.frames = [] ∧
      server.memory.cache = .fresh store ∧ server.scheduler.Each Routine := by
  obtain ⟨heartbeat, flushPeriod, capacity, secret, entropy, epoch, made, up⟩ := started
  obtain ⟨memory, records, -, rfl⟩ := start_eq made up
  refine ⟨⟨capacity, rfl⟩, rfl, records, ?_⟩
  intro task member
  rw [List.mem_singleton.mp member]
  exact .inl rfl

theorem Started.standing (started : Started store table server) : Standing server := by
  obtain ⟨⟨capacity, registry⟩, -, -, routine⟩ := started.spec
  exact ⟨registry ▸ Registry.sound_fresh capacity, routine⟩

end Starting

/-! ## A small server -/

/-- The bundled table with a heartbeat every ten seconds and a flush every minute. -/
def sampleTable : Table (Features (FaultyStore Player)) :=
  (bundledTable 10 60).toOption.getD .empty

/-- A started server for eight sessions whose secret is `s`. -/
def sampleServer (store : FaultyStore Player) : Server (Features (FaultyStore Player)) :=
  ((Server.fresh 8 (.fresh (some "s") [] store) 0).start sampleTable).2

/-- The text of a login to account 7. -/
def sampleLogin : String := "\x7b\"value\":100,\"args\":\x7b\"uid\":7,\"secret\":\"s\"\x7d\x7d"

theorem started_sample (store : FaultyStore Player) :
    Started store sampleTable (sampleServer store) :=
  ⟨10, 60, 8, some "s", [], 0, rfl, rfl⟩

end SessionServer.Bundle
