import SessionServer.Proofs.Cache.Consistency
import SessionServer.Store.Note

/-!
Contract: a cache over a memory store that may fail acts as a plain map.

Owns:
- `Cache.Operation`, what can be asked of a cache, and `Cache.Attempt`, an operation together with
  what fails while it is carried out;
- `Operation.ActsOnView`, what an operation has to answer and to do if the view of the cache were
  the map itself;
- the theorem that every attempt of every run does so.

Does not own: the invariant behind it, which is `Cache.Consistent`.
-/

namespace SessionServer

instance : LawfulEntity Note := ⟨fun _ _ => rfl⟩

namespace Cache

variable {ε : Type}

/-! ## Runs -/

/-- What can be asked of a cache. -/
inductive Operation (ε : Type) where
  | get (key : EntityKey)
  | mark (key : EntityKey) (entity : ε)
  | update (key : EntityKey) (change : ε → ε)
  | create (entity : ε)
  | flush

/-- The type of the answer to an operation. -/
def Operation.Reply : Operation ε → Type
  | .get _ => Except StoreError (Option ε)
  | .mark _ _ => Unit
  | .update _ _ => Except StoreError (Option ε)
  | .create _ => Except StoreError ε
  | .flush => FlushReport

/-- An operation together with what fails while it is carried out. -/
structure Attempt (ε : Type) where
  outage : Outage
  operation : Operation ε

variable [Entity ε]

/-- Entities are marked under their own key, and changes leave the key alone. -/
def Operation.Keyed : Operation ε → Prop
  | .mark key entity => Entity.key? entity = some key
  | .update _ change => ∀ entity, Entity.key? (change entity) = Entity.key? entity
  | _ => True

def perform (cache : Cache ε (FaultyStore ε)) :
    (operation : Operation ε) → operation.Reply × Cache ε (FaultyStore ε)
  | .get key => cache.get key
  | .mark key entity => ((), cache.mark key entity)
  | .update key change => cache.update key change
  | .create entity => cache.create entity
  | .flush => cache.flush

def attempt (cache : Cache ε (FaultyStore ε)) (attempt : Attempt ε) :
    attempt.operation.Reply × Cache ε (FaultyStore ε) :=
  (cache.during attempt.outage).perform attempt.operation

/-- The cache after attempts that are made one after another. -/
def run (cache : Cache ε (FaultyStore ε)) : List (Attempt ε) → Cache ε (FaultyStore ε)
  | [] => cache
  | first :: rest => run (cache.attempt first).2 rest

theorem Consistent.perform [LawfulEntity ε] {cache : Cache ε (FaultyStore ε)}
    (consistent : cache.Consistent) {operation : Operation ε} (keyed : operation.Keyed) :
    (cache.perform operation).2.Consistent := by
  cases operation with
  | get key => exact consistent.get key
  | mark key entity => exact consistent.mark keyed
  | update key change => exact consistent.update key keyed
  | create entity => exact consistent.create entity
  | flush => exact consistent.flush

theorem Consistent.run [LawfulEntity ε] {cache : Cache ε (FaultyStore ε)}
    (consistent : cache.Consistent) {attempts : List (Attempt ε)}
    (keyed : ∀ attempt ∈ attempts, attempt.operation.Keyed) :
    (cache.run attempts).Consistent := by
  induction attempts generalizing cache with
  | nil => exact consistent
  | cons first rest inductionHypothesis =>
      apply inductionHypothesis
      · exact (consistent.during first.outage).perform (keyed first List.mem_cons_self)
      · intro attempt member
        exact keyed attempt (List.mem_cons_of_mem _ member)

/-! ## Acting as a plain map -/

/-- A failure leaves what is visible and the marks alone. -/
def LeftAlone {α : Type} (before after : Cache ε (FaultyStore ε))
    (reply : Except StoreError α) : Prop :=
  ∀ error, reply = .error error → after.visible = before.visible ∧ after.dirty = before.dirty

/-- What the answer and the cache afterwards have to be if the view were a plain map. -/
def Operation.ActsOnView (before : Cache ε (FaultyStore ε)) :
    (operation : Operation ε) → operation.Reply × Cache ε (FaultyStore ε) → Prop
  | .get key, (reply, after) =>
      (∀ result, reply = .ok result → result = before.visible key) ∧
        after.visible = before.visible ∧ LeftAlone before after reply
  | .mark key entity, (_, after) =>
      after.visible = Function.update before.visible key (some entity)
  | .update key change, (reply, after) =>
      (∀ result, reply = .ok result →
        match before.visible key with
        | none => result = none ∧ after.visible = before.visible ∧ after.dirty = before.dirty
        | some entity =>
            result = some (change entity) ∧
              after.visible = Function.update before.visible key (some (change entity))) ∧
        LeftAlone before after reply
  | .create entity, (reply, after) =>
      (∀ saved, reply = .ok saved → ∃ key, Entity.key? saved = some key ∧
        (saved = entity ∨ Entity.key? entity = none ∧ saved = Entity.withKey entity key) ∧
        after.visible = Function.update before.visible key (some saved)) ∧
        LeftAlone before after reply
  | .flush, (_, after) => after.visible = before.visible

section Acts

variable {cache : Cache ε (FaultyStore ε)}

theorem get_actsOnView (key : EntityKey) :
    (Operation.get key).ActsOnView cache (cache.get key) := by
  refine ⟨?_, cache.visible_get key, ?_⟩
  · intro result reply
    exact reply_get reply
  · intro error _
    exact ⟨cache.visible_get key, cache.dirty_get key⟩

theorem update_actsOnView (key : EntityKey) (change : ε → ε) :
    (Operation.update key change).ActsOnView cache (cache.update key change) := by
  rcases cache.update_cases key change with
    ⟨error, answer⟩ | ⟨missing, answer⟩ | ⟨entity, found, answer⟩
  · rw [answer]
    refine ⟨?_, fun _ _ => ⟨rfl, rfl⟩⟩
    intro result reply
    cases reply
  · rw [answer]
    refine ⟨?_, fun _ _ => ⟨rfl, rfl⟩⟩
    intro result reply
    cases reply
    rw [missing]
    exact ⟨rfl, rfl, rfl⟩
  · rw [answer]
    refine ⟨?_, fun _ failed => by cases failed⟩
    intro result reply
    cases reply
    rw [found]
    refine ⟨rfl, ?_⟩
    rw [visible_mark, visible_get]

theorem create_actsOnView [LawfulEntity ε] (entity : ε) :
    (Operation.create entity).ActsOnView cache (cache.create entity) := by
  rcases answer : cache.create entity with ⟨reply, after⟩
  cases reply with
  | error error =>
      refine ⟨fun _ reply => (by cases reply), ?_⟩
      intro _ _
      rcases cache.create_cases entity with ⟨_, refused⟩ | ⟨_, _, _, created, -⟩
      · rw [answer] at refused
        cases refused
        exact ⟨rfl, rfl⟩
      · rw [answer] at created
        cases created
  | ok saved =>
      refine ⟨?_, fun _ failed => by cases failed⟩
      intro other reply
      cases reply
      exact visible_of_create answer

theorem Consistent.perform_actsOnView [LawfulEntity ε] (consistent : cache.Consistent)
    (operation : Operation ε) : operation.ActsOnView cache (cache.perform operation) := by
  cases operation with
  | get key => exact get_actsOnView key
  | mark key entity => exact cache.visible_mark key entity
  | update key change => exact update_actsOnView key change
  | create entity => exact create_actsOnView entity
  | flush => exact visible_flush consistent

end Acts

/-- Whatever has been asked of a cache and whatever has failed before, the next operation acts as it
would on a plain map. -/
theorem run_actsOnView [LawfulEntity ε] (store : FaultyStore ε)
    (stored : ∀ {key : EntityKey} {entity : ε},
      store.row key = some entity → Entity.key? entity = some key)
    (attempts : List (Attempt ε)) (next : Attempt ε)
    (keyed : ∀ attempt ∈ next :: attempts, attempt.operation.Keyed) :
    next.operation.ActsOnView ((fresh store).run attempts)
      (((fresh store).run attempts).attempt next) := by
  have consistent : ((fresh store).run attempts).Consistent := by
    apply (consistent_fresh store stored).run
    intro attempt member
    exact keyed attempt (List.mem_cons_of_mem _ member)
  -- An outage changes neither what is visible nor the marks.
  exact (consistent.during next.outage).perform_actsOnView next.operation

/-- A note changes once more after its first change could not be saved, while nothing can be loaded
or saved. -/
theorem run_actsOnView_note :
    let store : FaultyStore Note := { store := (MemoryStore.empty.save ⟨some 1, "one"⟩).2 }
    let append : Note → Note := fun note => { note with text := note.text ++ "!" }
    let attempts : List (Attempt Note) :=
      [⟨.none, .update 1 append⟩, ⟨{ loads := true }, .mark 2 ⟨some 2, "two"⟩⟩,
        ⟨{ keys := [1] }, .flush⟩, ⟨.none, .create ⟨none, "three"⟩⟩]
    let next : Attempt Note := ⟨{ loads := true, saves := true }, .update 1 append⟩
    (∀ {key : EntityKey} {entity : Note},
      store.row key = some entity → Entity.key? entity = some key) ∧
      (∀ attempt ∈ next :: attempts, attempt.operation.Keyed) ∧
      next.operation.ActsOnView ((fresh store).run attempts)
        (((fresh store).run attempts).attempt next) := by
  intro store append attempts next
  have stored : ∀ {key : EntityKey} {entity : Note},
      store.row key = some entity → Entity.key? entity = some key := by
    intro key entity found
    have rows : store.store.rows = OrderedMap.empty.insert 1 ⟨some 1, "one"⟩ := rfl
    rw [FaultyStore.row, MemoryStore.load, rows, OrderedMap.get?_insert] at found
    split at found
    · next same =>
        cases found
        exact congrArg some same
    · cases found
  have keyed : ∀ attempt ∈ next :: attempts, attempt.operation.Keyed := by
    simp only [next, attempts, List.mem_cons, List.not_mem_nil, or_false, forall_eq_or_imp,
      forall_eq]
    exact ⟨fun _ => rfl, fun _ => rfl, rfl, trivial, trivial⟩
  exact ⟨stored, keyed, run_actsOnView store stored attempts next keyed⟩

end Cache

end SessionServer
