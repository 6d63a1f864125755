import SessionServer.Data.OrderedMap
import SessionServer.Store.Entity

/-!
Contract: entities in memory in front of a store.

Owns: `Cache`, which loads an entity on first use, keeps changes in memory and marks their keys,
and writes every marked entity back on `flush`. A key whose save fails stays marked. Misses are
not remembered.

`Cache.view` is what a caller can rely on: the cached entity, or else the stored one.
-/

namespace SessionServer

/-- How many entities a flush wrote and how many it could not write. -/
structure FlushReport where
  saved : Nat
  failed : Nat
deriving DecidableEq, Repr

/-- Entities in memory in front of a store. -/
structure Cache (ε σ : Type) where
  store : σ
  cached : OrderedMap EntityKey ε := .empty
  /-- The keys whose entity has changed since it was last written. -/
  dirty : OrderedSet EntityKey := .empty

namespace Cache

variable {ε σ : Type} [EntityStore σ ε]

def fresh (store : σ) : Cache ε σ := { store }

def isDirty (cache : Cache ε σ) (key : EntityKey) : Bool := cache.dirty.contains key

/-- The entity of a key, loaded from the store on first use. -/
def get (cache : Cache ε σ) (key : EntityKey) : Except StoreError (Option ε) × Cache ε σ :=
  match cache.cached.get? key with
  | some entity => (.ok (some entity), cache)
  | none =>
      match (EntityStore.load cache.store key : Except StoreError (Option ε)) with
      | .error error => (.error error, cache)
      | .ok none => (.ok none, cache)
      | .ok (some entity) =>
          (.ok (some entity), { cache with cached := cache.cached.insert key entity })

def mark (cache : Cache ε σ) (key : EntityKey) (entity : ε) : Cache ε σ :=
  { cache with
    cached := cache.cached.insert key entity
    dirty := OrderedSet.add cache.dirty key }

/-- Changes the entity of a key and marks the key; a key without an entity is left alone. -/
def update (cache : Cache ε σ) (key : EntityKey) (change : ε → ε) :
    Except StoreError (Option ε) × Cache ε σ :=
  match cache.get key with
  | (.error error, cache) => (.error error, cache)
  | (.ok none, cache) => (.ok none, cache)
  | (.ok (some entity), cache) => (.ok (some (change entity)), cache.mark key (change entity))

/-- Changes the entity of a key by a change that may break off in the middle. Where it does there is
no answer, and the entity stays as it was, in memory and without a mark. -/
def revise (cache : Cache ε σ) (key : EntityKey) (change : ε → Option ε) :
    Option (Except StoreError (Option ε)) × Cache ε σ :=
  match cache.get key with
  | (.error error, cache) => (some (.error error), cache)
  | (.ok none, cache) => (some (.ok none), cache)
  | (.ok (some entity), cache) =>
      match change entity with
      | none => (none, cache)
      | some changed => (some (.ok (some changed)), cache.mark key changed)

/-- Saves a new entity at once and caches it as stored. -/
def create [Entity ε] (cache : Cache ε σ) (entity : ε) : Except StoreError ε × Cache ε σ :=
  match EntityStore.save cache.store entity with
  | (.error error, store) => (.error error, { cache with store })
  | (.ok saved, store) =>
      let stored := { cache with store }
      match Entity.key? saved with
      | none => (.ok saved, stored)
      | some key => (.ok saved, { stored with cached := cache.cached.insert key saved })

def batch (cache : Cache ε σ) : List (EntityKey × ε) :=
  cache.dirty.keys.filterMap fun key => (cache.cached.get? key).map fun entity => (key, entity)

/-- Saves entities one after another; answers the store and the keys whose save failed. -/
def saveAll (store : σ) : List (EntityKey × ε) → List EntityKey × σ
  | [] => ([], store)
  | (key, entity) :: rest =>
      match EntityStore.save store entity with
      | (.ok _, store) => saveAll store rest
      | (.error _, store) =>
          let (failed, store) := saveAll store rest
          (key :: failed, store)

/-- Writes every marked entity; keys whose save fails stay marked. -/
def flush (cache : Cache ε σ) : FlushReport × Cache ε σ :=
  let batch := cache.batch
  let (failed, store) := saveAll cache.store batch
  (⟨batch.length - failed.length, failed.length⟩,
    { cache with store, dirty := OrderedSet.ofList failed })

/-- The entity that a key stands for: the cached one, or else the stored one. -/
def view (cache : Cache ε σ) (stored : EntityKey → Option ε) (key : EntityKey) : Option ε :=
  (cache.cached.get? key).or (stored key)

end Cache

end SessionServer
