import SessionServer.Proofs.Bundle.Stopping
import SessionServer.Proofs.Server.Requests

/-!
Contract: the bundled providers leave the end of sessions to the serving of clients.

Owns: the proof that none of their handlers, hooks and tasks ever asks for the end of a session, and
that a started server has no other tasks. A login that fails and an account that is taken over only
queue a request to close.
-/

namespace SessionServer.Bundle

variable {σ : Type}

/-! ## Sessions -/

section Sessions

theorem sparing_echo (request : Request) :
    (Echo.echo request : Procedure (Features σ)).Only Call.Sparing := by
  unfold Echo.echo
  split
  · exact trivial
  · exact ⟨trivial, fun _ => trivial⟩

theorem sparing_beat (connection : ConnectionId) :
    (Login.beat connection : Procedure (Features σ)).Only Call.Sparing :=
  ⟨trivial, fun _ => ⟨trivial, fun _ => trivial⟩⟩

theorem sparing_refuse (connection : ConnectionId) (reason : Code) :
    (Login.refuse connection reason : Procedure (Features σ)).Only Call.Sparing :=
  ⟨trivial, fun _ => ⟨trivial, fun _ => trivial⟩⟩

theorem sparing_evict (uid : Identity) (connection : ConnectionId)
    {next : Procedure (Features σ)} (sparing : next.Only Call.Sparing) :
    (Login.evict uid connection next).Only Call.Sparing := by
  refine ⟨trivial, ?_⟩
  intro holder
  cases holder with
  | none => exact sparing
  | some previous =>
      dsimp only
      split
      · exact sparing
      · exact ⟨trivial, fun _ => ⟨trivial, fun _ => sparing⟩⟩

theorem sparing_welcome (heartbeat : Nat) (uid : Identity) (connection : ConnectionId) :
    (Login.welcome heartbeat uid connection : Procedure (Features σ)).Only Call.Sparing := by
  refine sparing_evict uid connection ⟨trivial, ?_⟩
  intro bound
  dsimp only
  split
  · refine ⟨trivial, fun _ => ⟨trivial, fun _ => ⟨trivial, fun _ => ?_⟩⟩⟩
    exact ⟨sparing_beat connection, fun _ _ => trivial⟩
  · exact trivial

theorem sparing_login (heartbeat : Nat) (request : Request) :
    (Login.login heartbeat request : Procedure (Features σ)).Only Call.Sparing := by
  unfold Login.login
  split
  · intro features
    dsimp only
    split
    · exact sparing_welcome heartbeat _ _
    · exact sparing_refuse _ _
  · exact sparing_refuse _ _

end Sessions

/-! ## Records -/

section Records

variable [EntityStore σ Player]

theorem sparing_flush : (Players.flush : Procedure (Features σ)).Only Call.Sparing :=
  fun _ => trivial

theorem sparing_destroy : (Players.destroy : Procedure (Features σ)).Only Call.Sparing := by
  intro features
  unfold Procedure.Only
  cases features.players.flushTask with
  | none => exact sparing_flush (σ := σ)
  | some task => exact ⟨trivial, fun _ => sparing_flush⟩

omit [EntityStore σ Player] in
theorem sparing_withIdentity (connection : ConnectionId)
    {next : Identity → Procedure (Features σ)}
    (sparing : ∀ uid, (next uid).Only Call.Sparing) :
    (Players.withIdentity connection next).Only Call.Sparing := by
  refine ⟨trivial, ?_⟩
  intro session
  dsimp only
  split
  · exact trivial
  · exact sparing _

theorem sparing_create (connection : ConnectionId) (uid : Identity) :
    (Players.create connection uid : Procedure (Features σ)).Only Call.Sparing := by
  refine ⟨trivial, fun now features => ?_⟩
  dsimp only [Procedure.Only]
  split
  · exact ⟨trivial, fun _ => trivial⟩
  · exact trivial

theorem sparing_check (request : Request) :
    (Players.check request : Procedure (Features σ)).Only Call.Sparing := by
  unfold Players.check
  split
  · exact trivial
  · intro features
    dsimp only [Procedure.Only]
    split
    · exact ⟨trivial, fun _ => trivial⟩
    · exact sparing_create _ _
    · exact trivial

theorem sparing_service (service : Service) (request : Request) :
    (service.handler request : Procedure (Features σ)).Only Call.Sparing := by
  cases service with
  | grant =>
      refine sparing_withIdentity request.connection fun uid => ⟨trivial, fun now features => ?_⟩
      dsimp only [Procedure.Only]
      split
      · exact ⟨trivial, fun _ => trivial⟩
      · exact trivial
      · exact trivial
  | view =>
      refine sparing_withIdentity request.connection fun uid features => ?_
      dsimp only [Procedure.Only]
      split
      · exact ⟨trivial, fun _ => trivial⟩
      · exact trivial

/-! ## The table -/

variable {store : σ} {table : Table (Features σ)} {server : Server (Features σ)}
  {heartbeat flushPeriod : Nat}

theorem Serves.sparing (serves : Serves table Players.check heartbeat flushPeriod) :
    table.Only Call.Sparing where
  handler {code entry} found request := by
    by_cases listed : code ∈ [Code.echo, Code.login, Code.playerCheck, Code.playerAddGold,
      Code.playerInfo]
    · simp only [List.mem_cons, List.not_mem_nil, or_false] at listed
      rcases listed with rfl | rfl | rfl | rfl | rfl
      · cases serves.echo.symm.trans found
        exact sparing_echo request
      · cases serves.login.symm.trans found
        exact sparing_login heartbeat request
      · cases serves.check.symm.trans found
        exact sparing_check request
      · cases serves.addGold.symm.trans found
        exact sparing_service .grant request
      · cases serves.info.symm.trans found
        exact sparing_service .view request
    · rw [serves.others code listed] at found
      cases found
  destroy provider member := by
    rw [serves.providers, bundledProviders] at member
    simp only [List.mem_cons, List.not_mem_nil, or_false] at member
    rcases member with rfl | rfl | rfl
    · exact trivial
    · exact trivial
    · exact sparing_destroy

theorem Routine.sparing {body : Procedure (Features σ)} (routine : Routine body) :
    body.Only Call.Sparing := by
  rcases routine with rfl | ⟨connection, rfl⟩
  · exact sparing_flush
  · exact (sparing_beat connection).whileOpen trivial

/-- Nothing that a started server does by itself ends a session. -/
theorem Started.sparing (started : Started store table server) :
    table.Only Call.Sparing ∧ server.scheduler.Each (Procedure.Only Call.Sparing) := by
  obtain ⟨heartbeat, flushPeriod, serves⟩ := started.serves
  exact ⟨serves.sparing, fun task member => (started.standing.routine task member).sparing⟩

end Records

end SessionServer.Bundle
