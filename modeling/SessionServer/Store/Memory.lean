import SessionServer.Data.OrderedMap
import SessionServer.Store.Entity

/-!
Contract: a store in memory, and a store that can be made to fail.

Owns:
- `MemoryStore`, whose next key lies above every key saved so far, the greatest key excepted;
- `Outage` and `FaultyStore`, a memory store behind failures that can be switched.
-/

namespace SessionServer

structure MemoryStore (ε : Type) where
  rows : OrderedMap EntityKey ε := .empty
  /-- The key of the next entity that comes without one. -/
  nextKey : EntityKey := 1
  saves : Nat := 0

namespace MemoryStore

variable {ε : Type}

def empty : MemoryStore ε := {}

def size (store : MemoryStore ε) : Nat := store.rows.size

def load (store : MemoryStore ε) (key : EntityKey) : Option ε := store.rows.get? key

/-- Keeps an entity under its key, or under the next free one. -/
def save [Entity ε] (store : MemoryStore ε) (entity : ε) : ε × MemoryStore ε :=
  let key := (Entity.key? entity).getD store.nextKey
  let keyed := if (Entity.key? entity).isSome then entity else Entity.withKey entity key
  (keyed,
    { rows := store.rows.insert key keyed
      nextKey := max store.nextKey (EntityKey.next key)
      saves := store.saves + 1 })

instance [Entity ε] : EntityStore (MemoryStore ε) ε where
  load store key := .ok (store.load key)
  save store entity :=
    let (saved, store) := store.save entity
    (.ok saved, store)

end MemoryStore

/-! ## Switchable failures -/

structure Outage where
  loads : Bool := false
  saves : Bool := false
  /-- Saves of entities with these keys fail. -/
  keys : List EntityKey := []
deriving DecidableEq

namespace Outage

def none : Outage := {}

/-- The failure of an operation during an outage. -/
def error : StoreError := .unavailable "store offline"

/-- Whether saving an entity fails. -/
def stopsSave {ε : Type} [Entity ε] (outage : Outage) (entity : ε) : Bool :=
  outage.saves ||
    match Entity.key? entity with
    | some key => outage.keys.contains key
    | Option.none => false

end Outage

structure FaultyStore (ε : Type) where
  store : MemoryStore ε := .empty
  outage : Outage := .none

namespace FaultyStore

variable {ε : Type}

def load (faulty : FaultyStore ε) (key : EntityKey) : Except StoreError (Option ε) :=
  if faulty.outage.loads then .error Outage.error else .ok (faulty.store.load key)

def save [Entity ε] (faulty : FaultyStore ε) (entity : ε) :
    Except StoreError ε × FaultyStore ε :=
  if faulty.outage.stopsSave entity then (.error Outage.error, faulty)
  else
    let (saved, store) := faulty.store.save entity
    (.ok saved, { faulty with store })

instance [Entity ε] : EntityStore (FaultyStore ε) ε := ⟨load, save⟩

end FaultyStore

end SessionServer
