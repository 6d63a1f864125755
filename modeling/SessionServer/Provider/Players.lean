import SessionServer.Dispatch.Table
import SessionServer.Provider.Features

/-!
Contract: the players' records behind the handlers.

Owns:
- the check after a login, which loads the record of the account or creates one, and sends the
  client to the scene of the record;
- the grant of gold and the view of the record, for sessions that have an identity; a grant for
  which the record has no room breaks off;
- the flush of the cache at a fixed period, and once more when the server stops.

A record that cannot be loaded or created leaves the request without an answer.
-/

namespace SessionServer.Players

variable {σ : Type} [EntityStore σ Player]

/-! ## Handlers -/

/-- Sends a client to the scene of its player. -/
def changeScene (connection : ConnectionId) (player : Player) (created : Bool) :
    Procedure (Features σ) :=
  .push connection Code.changeScene
    (Args.ofList [("scene", .integer player.scene.toInt), ("create", .bool created)]) .done

/-- Creates the record of an account that has none. -/
def create (connection : ConnectionId) (uid : Identity) : Procedure (Features σ) :=
  .clock fun now =>
    .recall fun features =>
      let (result, cache) := features.cache.create (Player.fresh uid now)
      .remember (features.withCache cache) <|
        match result with
        | .ok player => changeScene connection player true
        | .error _ => .done

/-- Loads or creates the record of an account. -/
def check : Handler (Features σ) := fun request =>
  match request.identity? "uid" with
  | none => .done
  | some uid =>
      .recall fun features =>
        let (result, cache) := features.cache.get uid
        .remember (features.withCache cache) <|
          match result with
          | .ok (some player) => changeScene request.connection player false
          | .ok none => create request.connection uid
          | .error _ => .done

/-- Goes on with the identity of a connection; without one nothing follows. -/
def withIdentity (connection : ConnectionId) (next : Identity → Procedure (Features σ)) :
    Procedure (Features σ) :=
  .session connection fun session =>
    match session.bind Session.identity with
    | none => .done
    | some uid => next uid

def addGold : Handler (Features σ) := fun request =>
  withIdentity request.connection fun uid =>
    .clock fun now =>
      .recall fun features =>
        let (result, cache) := features.cache.revise uid fun player => player.granted? now
        .remember (features.withCache cache) <|
          match result with
          | some (.ok (some player)) =>
              .push request.connection Code.playerGold
                (Args.ofList [("gold", .integer player.gold.toInt)]) .done
          | some _ => .done
          | none => .finish .aborted

def info : Handler (Features σ) := fun request =>
  withIdentity request.connection fun uid =>
    .recall fun features =>
      let (result, cache) := features.cache.get uid
      .remember (features.withCache cache) <|
        match result with
        | .ok (some player) =>
            .push request.connection Code.playerInfoResult
              (Args.ofList [("player", player.toJson)]) .done
        | _ => .done

/-! ## Hooks -/

def flush : Procedure (Features σ) :=
  .recall fun features => .remember (features.withCache features.cache.flush.2) .done

def init (period : Nat) : Procedure (Features σ) :=
  .schedule (.repeating period) flush fun task =>
    .recall fun features => .remember (features.withFlushTask (some task)) .done

/-- Cancels the flush task and flushes a last time. -/
def destroy : Procedure (Features σ) :=
  .recall fun features =>
    .remember (features.withFlushTask none) <|
      match features.players.flushTask with
      | none => flush
      | some task => .cancelTask task flush

/-- The states in which a session plays. -/
def playing : AllowedStates := .ofList [State.authorized, State.gaming]

/-- The provider; the period of the flush is in seconds. -/
def provider (flushPeriod : Nat) : Provider (Features σ) where
  name := "player"
  routes :=
    [⟨Code.playerCheck, .ofList [State.program], check⟩,
      ⟨Code.playerAddGold, playing, addGold⟩,
      ⟨Code.playerInfo, playing, info⟩]
  init := init flushPeriod
  destroy := destroy

end SessionServer.Players
