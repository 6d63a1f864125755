import SessionServer.Proofs.Bundle.Effects

/-!
Contract: a server with the bundled providers that is stopped.

Owns:
- `Bundle.Stopped`, what a stop does, and the proof that every stop goes through;
- `Bundle.Reachable`, the servers that a started one becomes by steps and stops, and the proof that
  each of them has `Bundle.Standing`.

A stop ends the tasks for good and nothing else: the server goes on to take connections and to answer
texts, so what is true of all texts has to be true after a stop as well.
-/

namespace SessionServer.Bundle

open Server

variable {σ : Type} [EntityStore σ Player]

/-! ## Stops -/

/-- What a stop does: it writes the records down a last time and shuts the tasks down. -/
structure Stopped (before after : Server (Features σ)) : Prop where
  registry : after.registry = before.registry
  queue : after.queue = before.queue
  login : after.memory.login = before.memory.login
  cache : after.memory.cache = before.memory.cache.flush.2
  tasks : after.scheduler.tasks = before.scheduler.tasks
  shutDown : after.scheduler.isShutDown = true

private theorem run_destroy (table : Table (Features σ)) (server : Server (Features σ)) :
    ∃ after, Server.run table Players.destroy server = (.again, after) ∧
      Stopped server { after with scheduler := after.scheduler.shutDown } := by
  rw [run_eq, Players.destroy, follow_recall, follow_remember]
  cases server.memory.players.flushTask with
  | none => exact ⟨_, rfl, rfl, rfl, rfl, rfl, rfl, rfl⟩
  | some task => exact ⟨_, rfl, rfl, rfl, rfl, rfl, rfl, rfl⟩

section Stopping

variable {table : Table (Features σ)} {check : Handler (Features σ)}
  {heartbeat flushPeriod : Nat}

/-- Only the players have something to do when the server stops. -/
theorem stop_eq (serves : Serves table check heartbeat flushPeriod) (server : Server (Features σ)) :
    ∃ after, server.stop table = (some (), after) ∧ Stopped server after := by
  obtain ⟨flushed, equation, stopped⟩ := run_destroy table server
  have idle : ∀ server : Server (Features σ),
      Server.run table .done server = (.again, server) := fun _ => rfl
  have closed : destroyAll (Server.run table) table.providers server = (some (), flushed) := by
    rw [serves.providers, bundledProviders]
    simp only [destroyAll, Echo.provider, Login.provider, Players.provider, idle, equation]
  refine ⟨{ flushed with scheduler := flushed.scheduler.shutDown }, ?_, stopped⟩
  rw [Server.stop, stopWith, closed]

theorem Stopped.standing {before after : Server (Features σ)} (stopped : Stopped before after)
    (standing : Standing before) : Standing after where
  sound := stopped.registry ▸ standing.sound
  routine task member := by
    rw [stopped.tasks] at member
    exact standing.routine task member

end Stopping

/-! ## Steps and stops -/

/-- The servers that a started one becomes. -/
inductive Reachable (table : Table (Features σ)) (start : Server (Features σ)) :
    Server (Features σ) → Prop where
  | start : Reachable table start start
  | step {server : Server (Features σ)} (reached : Reachable table start server) (step : Step σ) :
      Reachable table start (step.apply table server)
  | stop {server : Server (Features σ)} (reached : Reachable table start server) :
      Reachable table start (server.stop table).2

section Reaching

variable {store : σ} {table : Table (Features σ)} {start server : Server (Features σ)}

theorem Reachable.run (reached : Reachable table start server) (steps : List (Step σ)) :
    Reachable table start ((machine table).run server steps) :=
  Machine.run_invariant (Reachable table start) reached (fun _ step before => before.step step) steps

theorem Reachable.standing (reached : Reachable table start server)
    (started : Started store table start) : Standing server := by
  obtain ⟨heartbeat, flushPeriod, serves⟩ := started.serves
  induction reached with
  | start => exact started.standing
  | step _ step inductionHypothesis => exact inductionHypothesis.step serves step
  | stop _ inductionHypothesis =>
      obtain ⟨after, equation, stopped⟩ := stop_eq serves _
      rw [equation]
      exact stopped.standing inductionHypothesis

end Reaching

end SessionServer.Bundle
