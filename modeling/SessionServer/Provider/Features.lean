import SessionServer.Cache
import SessionServer.Player
import SessionServer.Scheduler.Basic

/-!
Contract: what the bundled providers keep between calls.

Owns: `Features`, the part of the login provider and the part of the player provider side by side.
The store behind the players may be of any kind.
-/

namespace SessionServer

structure LoginMemory where
  /-- The secret that a login has to present, once there is one. -/
  secret : Option String
  /-- Random bytes, from which a secret is made when none is configured. -/
  entropy : List UInt8

structure PlayersMemory (σ : Type) where
  cache : Cache Player σ
  /-- The task that flushes the cache from time to time. -/
  flushTask : Option TaskId := none

/-- What the bundled providers keep. -/
structure Features (σ : Type) where
  login : LoginMemory
  players : PlayersMemory σ

namespace Features

variable {σ : Type}

/-- The memory before the server starts. -/
def fresh (secret : Option String) (entropy : List UInt8) (store : σ) : Features σ where
  login := ⟨secret, entropy⟩
  players := { cache := .fresh store }

/-- The players' records in memory and behind it. -/
def cache (features : Features σ) : Cache Player σ := features.players.cache

def withCache (features : Features σ) (cache : Cache Player σ) : Features σ :=
  { features with players := { features.players with cache } }

def withFlushTask (features : Features σ) (task : Option TaskId) : Features σ :=
  { features with players := { features.players with flushTask := task } }

def withSecret (features : Features σ) (secret : String) : Features σ :=
  { features with login := { features.login with secret := some secret } }

end Features

end SessionServer
