import Mathlib.Logic.Function.Basic
import SessionServer.Cache
import SessionServer.Store.Memory

/-!
Contract: what a cache over a memory store that may fail keeps in order.

Owns:
- `Cache.visible`, the view of a cache over such a store;
- `Cache.Consistent`, the link between rows, cached entities and dirty keys;
- for each operation the cases it can end in, what it does to the view, and that it keeps
  `Consistent`.

Saves and loads fail as the store's outage says. Nothing here looks at how an outage comes about.
-/

namespace SessionServer

/-- Entities that take the key they are given. -/
class LawfulEntity (ε : Type) [Entity ε] : Prop where
  key?_withKey : ∀ (entity : ε) (key : EntityKey),
    Entity.key? (Entity.withKey entity key) = some key

/-- An entity that a store keeps has its own key or the one that it is given. -/
theorem LawfulEntity.key?_keyed {ε : Type} [Entity ε] [LawfulEntity ε] (entity : ε)
    (nextKey : EntityKey) :
    let key := (Entity.key? entity).getD nextKey
    let keyed := if (Entity.key? entity).isSome then entity else Entity.withKey entity key
    Entity.key? keyed = some key ∧
      (keyed = entity ∨ Entity.key? entity = none ∧ keyed = Entity.withKey entity key) := by
  cases own : Entity.key? entity with
  | some key =>
      simp only [Option.getD_some, Option.isSome_some, ↓reduceIte]
      exact ⟨own, .inl trivial⟩
  | none =>
      simp only [Option.getD_none, Option.isSome_none, Bool.false_eq_true, ↓reduceIte]
      exact ⟨LawfulEntity.key?_withKey entity nextKey, .inr ⟨trivial, trivial⟩⟩

namespace MemoryStore

variable {ε : Type} [Entity ε]

theorem save_of_keyed (store : MemoryStore ε) {entity : ε} {key : EntityKey}
    (keyed : Entity.key? entity = some key) :
    (store.save entity).1 = entity ∧
      (store.save entity).2.rows = store.rows.insert key entity := by
  simp only [save, keyed, Option.getD_some, Option.isSome_some, ↓reduceIte, and_self]

theorem save_of_unkeyed (store : MemoryStore ε) {entity : ε}
    (unkeyed : Entity.key? entity = none) :
    (store.save entity).1 = Entity.withKey entity store.nextKey ∧
      (store.save entity).2.rows =
        store.rows.insert store.nextKey (Entity.withKey entity store.nextKey) := by
  simp only [save, unkeyed, Option.getD_none, Option.isSome_none, Bool.false_eq_true, ↓reduceIte,
    and_self]

end MemoryStore

namespace FaultyStore

variable {ε : Type}

/-- The row that is kept for a key, whether or not it can be loaded at present. -/
def row (faulty : FaultyStore ε) (key : EntityKey) : Option ε := faulty.store.load key

theorem load_cases (faulty : FaultyStore ε) (key : EntityKey) :
    (∃ error, faulty.load key = .error error) ∨ faulty.load key = .ok (faulty.row key) := by
  unfold load
  split
  · exact .inl ⟨_, rfl⟩
  · exact .inr rfl

theorem row_of_insert {before after : FaultyStore ε} {key : EntityKey} {entity : ε}
    (rows : after.store.rows = before.store.rows.insert key entity) :
    after.row = Function.update before.row key (some entity) := by
  funext other
  simp only [row, MemoryStore.load, rows, OrderedMap.get?_insert, Function.update_apply]
  by_cases same : key = other
  · rw [if_pos same, if_pos same.symm]
  · rw [if_neg same, if_neg (Ne.symm same)]

variable [Entity ε]

/-- Rows under their own keys stay so when an entity is put under its own. -/
theorem keyed_update {rows : EntityKey → Option ε} {key : EntityKey} {entity : ε}
    (own : Entity.key? entity = some key)
    (keyed : ∀ {other : EntityKey} {found : ε},
      rows other = some found → Entity.key? found = some other)
    {other : EntityKey} {found : ε}
    (held : Function.update rows key (some entity) other = some found) :
    Entity.key? found = some other := by
  rw [Function.update_apply] at held
  split at held
  · next same =>
      cases held
      exact same ▸ own
  · exact keyed held

theorem save_of_stopped {faulty : FaultyStore ε} {entity : ε}
    (stopped : faulty.outage.stopsSave entity = true) :
    faulty.save entity = (.error Outage.error, faulty) :=
  if_pos stopped

theorem save_of_served {faulty : FaultyStore ε} {entity : ε}
    (served : faulty.outage.stopsSave entity = false) :
    faulty.save entity =
      (.ok (faulty.store.save entity).1, { faulty with store := (faulty.store.save entity).2 }) :=
  if_neg (by rw [served]; exact Bool.false_ne_true)

theorem row_save {faulty : FaultyStore ε} {entity : ε} {key : EntityKey}
    (keyed : Entity.key? entity = some key)
    (served : faulty.outage.stopsSave entity = false) :
    (faulty.save entity).2.row = Function.update faulty.row key (some entity) := by
  rw [save_of_served served]
  exact row_of_insert (faulty.store.save_of_keyed keyed).2

end FaultyStore

namespace Cache

variable {ε : Type}

/-! ## The view -/

/-- The row behind a key. -/
def row (cache : Cache ε (FaultyStore ε)) (key : EntityKey) : Option ε := cache.store.row key

/-- What a key stands for: the cached entity, or else the row. -/
def visible (cache : Cache ε (FaultyStore ε)) : EntityKey → Option ε := cache.view cache.row

/-- The cache during an outage. -/
def during (cache : Cache ε (FaultyStore ε)) (outage : Outage) : Cache ε (FaultyStore ε) :=
  { cache with store := { cache.store with outage } }

section Views

variable {cache : Cache ε (FaultyStore ε)} {key : EntityKey} {entity : ε}

theorem visible_of_cached (found : cache.cached.get? key = some entity) :
    cache.visible key = some entity := by
  rw [visible, view, found]
  rfl

theorem visible_of_missing (missing : cache.cached.get? key = none) :
    cache.visible key = cache.row key := by
  rw [visible, view, missing]
  rfl

/-- Caching an entity shows it, whatever becomes of the row behind it. -/
theorem visible_of_insert {after : Cache ε (FaultyStore ε)}
    (cached : after.cached = cache.cached.insert key entity)
    (rows : ∀ other, key ≠ other → after.row other = cache.row other) :
    after.visible = Function.update cache.visible key (some entity) := by
  funext other
  simp only [visible, view, cached, OrderedMap.get?_insert, Function.update_apply]
  by_cases same : key = other
  · rw [if_pos same, if_pos same.symm]
    rfl
  · rw [if_neg same, if_neg (Ne.symm same), rows other same]

theorem visible_mark (cache : Cache ε (FaultyStore ε)) (key : EntityKey) (entity : ε) :
    (cache.mark key entity).visible = Function.update cache.visible key (some entity) :=
  visible_of_insert rfl fun _ _ => rfl

theorem isDirty_mark (cache : Cache ε (FaultyStore ε)) (key other : EntityKey) (entity : ε) :
    (cache.mark key entity).isDirty other = (decide (key = other) || cache.isDirty other) :=
  OrderedSet.contains_add cache.dirty key other

end Views

variable [Entity ε]

/-! ## Saving a batch -/

section SaveAll

variable {faulty : FaultyStore ε} {batch : List (EntityKey × ε)}

theorem saveAll_stopped {key : EntityKey} {entity : ε}
    (stopped : faulty.outage.stopsSave entity = true) :
    saveAll faulty ((key, entity) :: batch) =
      (key :: (saveAll faulty batch).1, (saveAll faulty batch).2) := by
  have failed : EntityStore.save faulty entity = (.error Outage.error, faulty) :=
    FaultyStore.save_of_stopped stopped
  rw [saveAll, failed]

theorem saveAll_served {key : EntityKey} {entity : ε}
    (served : faulty.outage.stopsSave entity = false) :
    saveAll faulty ((key, entity) :: batch) = saveAll (faulty.save entity).2 batch := by
  have saved : EntityStore.save faulty entity = faulty.save entity := rfl
  rw [saveAll, saved, FaultyStore.save_of_served served]

/-- Exactly the stopped saves are reported as failed. -/
theorem saveAll_failed (batch : List (EntityKey × ε)) (faulty : FaultyStore ε) :
    (saveAll faulty batch).1 =
      (batch.filter fun entry => faulty.outage.stopsSave entry.2).map Prod.fst := by
  induction batch generalizing faulty with
  | nil => rfl
  | cons entry rest inductionHypothesis =>
      obtain ⟨key, entity⟩ := entry
      cases stopped : faulty.outage.stopsSave entity with
      | true =>
          rw [saveAll_stopped stopped, inductionHypothesis]
          simp only [List.filter_cons, stopped, ↓reduceIte, List.map_cons]
      | false =>
          rw [saveAll_served stopped, inductionHypothesis, FaultyStore.save_of_served stopped]
          simp only [List.filter_cons, stopped, Bool.false_eq_true, ↓reduceIte]

/-- A key none of whose saves is served keeps its row. -/
theorem row_saveAll_of_stopped {key : EntityKey}
    (keyed : ∀ entry ∈ batch, Entity.key? entry.2 = some entry.1)
    (stopped : ∀ entity, (key, entity) ∈ batch → faulty.outage.stopsSave entity = true) :
    (saveAll faulty batch).2.row key = faulty.row key := by
  induction batch generalizing faulty with
  | nil => rfl
  | cons entry rest inductionHypothesis =>
      obtain ⟨head, entity⟩ := entry
      have restKeyed : ∀ entry ∈ rest, Entity.key? entry.2 = some entry.1 :=
        fun entry member => keyed entry (List.mem_cons_of_mem _ member)
      have restStopped : ∀ other, (key, other) ∈ rest → faulty.outage.stopsSave other = true :=
        fun other member => stopped other (List.mem_cons_of_mem _ member)
      cases answer : faulty.outage.stopsSave entity with
      | true =>
          rw [saveAll_stopped answer]
          exact inductionHypothesis restKeyed restStopped
      | false =>
          have apart : key ≠ head := by
            intro same
            have clash := stopped entity (by rw [same]; exact List.mem_cons_self)
            rw [answer] at clash
            exact Bool.false_ne_true clash
          have outage : (faulty.save entity).2.outage = faulty.outage := by
            rw [FaultyStore.save_of_served answer]
          rw [saveAll_served answer, inductionHypothesis restKeyed (by rwa [outage]),
            FaultyStore.row_save (keyed _ List.mem_cons_self) answer,
            Function.update_of_ne apart]

/-- A key with a single entity in the batch ends with that entity as its row, if the save is
served. -/
theorem row_saveAll_of_served {key : EntityKey} {entity : ε}
    (keyed : ∀ entry ∈ batch, Entity.key? entry.2 = some entry.1)
    (single : ∀ other, (key, other) ∈ batch → other = entity)
    (member : (key, entity) ∈ batch)
    (served : faulty.outage.stopsSave entity = false) :
    (saveAll faulty batch).2.row key = some entity := by
  induction batch generalizing faulty with
  | nil => cases member
  | cons entry rest inductionHypothesis =>
      obtain ⟨head, first⟩ := entry
      have restKeyed : ∀ entry ∈ rest, Entity.key? entry.2 = some entry.1 :=
        fun entry member => keyed entry (List.mem_cons_of_mem _ member)
      have restSingle : ∀ other, (key, other) ∈ rest → other = entity :=
        fun other member => single other (List.mem_cons_of_mem _ member)
      cases answer : faulty.outage.stopsSave first with
      | true =>
          have later : (key, entity) ∈ rest := by
            rcases List.mem_cons.mp member with same | later
            · cases same
              rw [answer] at served
              cases served
            · exact later
          rw [saveAll_stopped answer]
          exact inductionHypothesis restKeyed restSingle later served
      | false =>
          have outage : (faulty.save first).2.outage = faulty.outage := by
            rw [FaultyStore.save_of_served answer]
          rw [saveAll_served answer]
          by_cases again : (key, entity) ∈ rest
          · exact inductionHypothesis restKeyed restSingle again (by rw [outage]; exact served)
          · have same : (key, entity) = (head, first) :=
              (List.mem_cons.mp member).resolve_right again
            have absent : ∀ other, (key, other) ∈ rest →
                (faulty.save first).2.outage.stopsSave other = true := by
              intro other otherMember
              exact absurd (restSingle other otherMember ▸ otherMember) again
            cases same
            rw [row_saveAll_of_stopped restKeyed absent,
              FaultyStore.row_save (keyed _ List.mem_cons_self) answer, Function.update_self]

end SaveAll

/-! ## The invariant -/

/-- Rows, cached entities and marks fit together. -/
structure Consistent (cache : Cache ε (FaultyStore ε)) : Prop where
  rowKeyed : ∀ {key : EntityKey} {entity : ε},
    cache.row key = some entity → Entity.key? entity = some key
  cachedKeyed : ∀ {key : EntityKey} {entity : ε},
    cache.cached.get? key = some entity → Entity.key? entity = some key
  dirtyCached : ∀ {key : EntityKey}, cache.isDirty key = true →
    ∃ entity, cache.cached.get? key = some entity
  cleanStored : ∀ {key : EntityKey} {entity : ε}, cache.cached.get? key = some entity →
    cache.isDirty key = false → cache.row key = some entity

theorem Consistent.visibleKeyed {cache : Cache ε (FaultyStore ε)} (consistent : cache.Consistent)
    {key : EntityKey} {entity : ε} (found : cache.visible key = some entity) :
    Entity.key? entity = some key := by
  cases cached : cache.cached.get? key with
  | some other =>
      rw [visible_of_cached cached] at found
      exact consistent.cachedKeyed (cached.trans found)
  | none =>
      rw [visible_of_missing cached] at found
      exact consistent.rowKeyed found

theorem consistent_fresh (store : FaultyStore ε)
    (keyed : ∀ {key : EntityKey} {entity : ε},
      store.row key = some entity → Entity.key? entity = some key) :
    (fresh store : Cache ε (FaultyStore ε)).Consistent where
  rowKeyed := keyed
  cachedKeyed found := by cases found
  dirtyCached dirty := by cases dirty
  cleanStored found := by cases found

theorem Consistent.during {cache : Cache ε (FaultyStore ε)} (consistent : cache.Consistent)
    (outage : Outage) : (cache.during outage).Consistent :=
  ⟨consistent.rowKeyed, consistent.cachedKeyed, consistent.dirtyCached, consistent.cleanStored⟩

/-! ## Looking up -/

/-- How a look-up can end. -/
theorem get_cases (cache : Cache ε (FaultyStore ε)) (key : EntityKey) :
    (∃ error, cache.get key = (.error error, cache)) ∨
      cache.get key = (.ok (cache.visible key), cache) ∨
      ∃ entity, cache.cached.get? key = none ∧ cache.row key = some entity ∧
        cache.get key =
          (.ok (some entity), { cache with cached := cache.cached.insert key entity }) := by
  unfold get
  cases found : cache.cached.get? key with
  | some entity => exact .inr (.inl (by rw [visible_of_cached found]))
  | none =>
      have loaded : (EntityStore.load cache.store key : Except StoreError (Option ε)) =
          cache.store.load key := rfl
      rw [loaded]
      rcases cache.store.load_cases key with ⟨error, refused⟩ | served
      · rw [refused]
        exact .inl ⟨error, rfl⟩
      · rw [served, visible_of_missing found]
        cases kept : cache.store.row key with
        | none => exact .inr (.inl (by rw [row, kept]))
        | some entity => exact .inr (.inr ⟨entity, rfl, kept, rfl⟩)

section Loaded

variable {cache : Cache ε (FaultyStore ε)} {key : EntityKey} {entity : ε}

private theorem consistent_loaded (consistent : cache.Consistent)
    (kept : cache.row key = some entity) :
    ({ cache with cached := cache.cached.insert key entity } :
      Cache ε (FaultyStore ε)).Consistent where
  rowKeyed := consistent.rowKeyed
  cachedKeyed {other found} held := by
    rw [OrderedMap.get?_insert] at held
    split at held
    · next same =>
        cases held
        exact same ▸ consistent.rowKeyed kept
    · exact consistent.cachedKeyed held
  dirtyCached {other} dirty := by
    rw [OrderedMap.get?_insert]
    split
    · exact ⟨entity, rfl⟩
    · exact consistent.dirtyCached dirty
  cleanStored {other found} held clean := by
    rw [OrderedMap.get?_insert] at held
    split at held
    · next same =>
        cases held
        exact same ▸ kept
    · exact consistent.cleanStored held clean

end Loaded

theorem visible_get (cache : Cache ε (FaultyStore ε)) (key : EntityKey) :
    (cache.get key).2.visible = cache.visible := by
  rcases cache.get_cases key with ⟨error, answer⟩ | answer | ⟨entity, missing, kept, answer⟩
  · rw [answer]
  · rw [answer]
  · rw [answer]
    have shown : cache.visible key = some entity := by rw [visible_of_missing missing, kept]
    have updated : ({ cache with cached := cache.cached.insert key entity } :
        Cache ε (FaultyStore ε)).visible = Function.update cache.visible key (some entity) :=
      visible_of_insert rfl fun _ _ => rfl
    rw [updated, ← shown, Function.update_eq_self]

theorem dirty_get (cache : Cache ε (FaultyStore ε)) (key : EntityKey) :
    (cache.get key).2.dirty = cache.dirty := by
  rcases cache.get_cases key with ⟨error, answer⟩ | answer | ⟨entity, -, -, answer⟩ <;>
    rw [answer]

theorem reply_get {cache : Cache ε (FaultyStore ε)} {key : EntityKey} {result : Option ε}
    (reply : (cache.get key).1 = .ok result) : result = cache.visible key := by
  rcases cache.get_cases key with ⟨error, answer⟩ | answer | ⟨entity, missing, kept, answer⟩
  · rw [answer] at reply
    cases reply
  · rw [answer] at reply
    cases reply
    rfl
  · rw [answer] at reply
    cases reply
    rw [visible_of_missing missing, kept]

theorem Consistent.get {cache : Cache ε (FaultyStore ε)} (consistent : cache.Consistent)
    (key : EntityKey) : (cache.get key).2.Consistent := by
  rcases cache.get_cases key with ⟨error, answer⟩ | answer | ⟨entity, missing, kept, answer⟩
  · rw [answer]
    exact consistent
  · rw [answer]
    exact consistent
  · rw [answer]
    exact consistent_loaded consistent kept

/-! ## Marking -/

theorem Consistent.mark {cache : Cache ε (FaultyStore ε)} (consistent : cache.Consistent)
    {key : EntityKey} {entity : ε} (keyed : Entity.key? entity = some key) :
    (cache.mark key entity).Consistent where
  rowKeyed := consistent.rowKeyed
  cachedKeyed {other found} held := by
    simp only [Cache.mark, OrderedMap.get?_insert] at held
    split at held
    · next same =>
        cases held
        exact same ▸ keyed
    · exact consistent.cachedKeyed held
  dirtyCached {other} dirty := by
    simp only [Cache.mark, OrderedMap.get?_insert]
    split
    · exact ⟨entity, rfl⟩
    · next apart =>
        rw [isDirty_mark, decide_eq_false apart] at dirty
        exact consistent.dirtyCached dirty
  cleanStored {other found} held clean := by
    rw [isDirty_mark, Bool.or_eq_false_iff, decide_eq_false_iff_not] at clean
    simp only [Cache.mark, OrderedMap.get?_insert, if_neg clean.1] at held
    exact consistent.cleanStored held clean.2

/-! ## Changing -/

omit [Entity ε] in
/-- A change that cannot break off always has an answer. -/
theorem revise_some {σ : Type} [EntityStore σ ε] (cache : Cache ε σ) (key : EntityKey)
    (change : ε → ε) :
    cache.revise key (fun entity => some (change entity)) =
      (some (cache.update key change).1, (cache.update key change).2) := by
  unfold revise update
  rcases cache.get key with ⟨error | _ | entity, after⟩ <;> rfl

/-- How a change that may break off can end: with the failure of its look-up, without an entity to
change, with the entity as it was where it breaks off, or with the mark of the changed one. -/
theorem revise_cases (cache : Cache ε (FaultyStore ε)) (key : EntityKey) (change : ε → Option ε) :
    (∃ error, cache.revise key change = (some (.error error), cache)) ∨
      cache.visible key = none ∧ cache.revise key change = (some (.ok none), cache) ∨
      ∃ entity, cache.visible key = some entity ∧
        (change entity = none ∧ cache.revise key change = (none, (cache.get key).2) ∨
          ∃ changed, change entity = some changed ∧
            cache.revise key change =
              (some (.ok (some changed)), (cache.get key).2.mark key changed)) := by
  have changing : ∀ entity (after : Cache ε (FaultyStore ε)),
      cache.get key = (.ok (some entity), after) →
        change entity = none ∧ cache.revise key change = (none, (cache.get key).2) ∨
          ∃ changed, change entity = some changed ∧
            cache.revise key change =
              (some (.ok (some changed)), (cache.get key).2.mark key changed) := by
    intro entity after answer
    unfold revise
    rw [answer]
    dsimp only
    cases change entity with
    | none => exact .inl ⟨rfl, rfl⟩
    | some changed => exact .inr ⟨changed, rfl, rfl⟩
  rcases cache.get_cases key with ⟨error, answer⟩ | answer | ⟨entity, missing, kept, answer⟩
  · exact .inl ⟨error, by rw [revise, answer]⟩
  · cases found : cache.visible key with
    | none => exact .inr (.inl ⟨rfl, by rw [revise, answer, found]⟩)
    | some entity => exact .inr (.inr ⟨entity, rfl, changing entity _ (found ▸ answer)⟩)
  · refine .inr (.inr ⟨entity, ?_, changing entity _ answer⟩)
    rw [visible_of_missing missing, kept]

/-- How a change can end: with the failure of its look-up, without an entity to change, or with the
mark of the changed one. -/
theorem update_cases (cache : Cache ε (FaultyStore ε)) (key : EntityKey) (change : ε → ε) :
    (∃ error, cache.update key change = (.error error, cache)) ∨
      cache.visible key = none ∧ cache.update key change = (.ok none, cache) ∨
      ∃ entity, cache.visible key = some entity ∧
        cache.update key change =
          (.ok (some (change entity)), (cache.get key).2.mark key (change entity)) := by
  have answered : ∀ {answer after},
      cache.revise key (fun entity => some (change entity)) = (some answer, after) →
        cache.update key change = (answer, after) := by
    intro answer after revised
    rw [revise_some] at revised
    obtain ⟨same, rest⟩ := Prod.mk.inj revised
    exact Prod.ext (Option.some.inj same) rest
  rcases cache.revise_cases key fun entity => some (change entity) with
    ⟨error, failed⟩ | ⟨missing, nothing⟩ | ⟨entity, found, ⟨broken, -⟩ | ⟨changed, became, marked⟩⟩
  · exact .inl ⟨error, answered failed⟩
  · exact .inr (.inl ⟨missing, answered nothing⟩)
  · cases broken
  · cases became
    exact .inr (.inr ⟨entity, found, answered marked⟩)

theorem Consistent.revise {cache : Cache ε (FaultyStore ε)} (consistent : cache.Consistent)
    (key : EntityKey) {change : ε → Option ε}
    (keyed : ∀ entity changed, change entity = some changed →
      Entity.key? changed = Entity.key? entity) :
    (cache.revise key change).2.Consistent := by
  rcases cache.revise_cases key change with
    ⟨error, answer⟩ | ⟨-, answer⟩ | ⟨entity, found, ⟨-, answer⟩ | ⟨changed, became, answer⟩⟩
  · rw [answer]
    exact consistent
  · rw [answer]
    exact consistent
  · rw [answer]
    exact consistent.get key
  · rw [answer]
    have changedKey : Entity.key? changed = some key :=
      (keyed entity changed became).trans (consistent.visibleKeyed found)
    exact (consistent.get key).mark changedKey

theorem Consistent.update {cache : Cache ε (FaultyStore ε)} (consistent : cache.Consistent)
    (key : EntityKey) {change : ε → ε}
    (keyed : ∀ entity, Entity.key? (change entity) = Entity.key? entity) :
    (cache.update key change).2.Consistent := by
  have revised : (cache.revise key fun entity => some (change entity)).2.Consistent :=
    consistent.revise key fun entity _ became => Option.some.inj became ▸ keyed entity
  rwa [revise_some] at revised

/-! ## Creating -/

section Create

variable [LawfulEntity ε]

/-- How a creation can end: with a failed save, or with an entity under its own key or the next one
of the store, which is then the row and the cached entity of that key. -/
theorem create_cases (cache : Cache ε (FaultyStore ε)) (entity : ε) :
    (∃ error, cache.create entity = (.error error, cache)) ∨
      ∃ saved key after, cache.create entity = (.ok saved, after) ∧
        Entity.key? saved = some key ∧
        (saved = entity ∨ Entity.key? entity = none ∧ saved = Entity.withKey entity key) ∧
        after.cached = cache.cached.insert key saved ∧
        after.dirty = cache.dirty ∧
        after.row = Function.update cache.row key (some saved) ∧
        key = (Entity.key? entity).getD cache.store.store.nextKey ∧
        after.store = (cache.store.save entity).2 := by
  have saving : EntityStore.save cache.store entity = cache.store.save entity := rfl
  unfold create
  rw [saving]
  cases stopped : cache.store.outage.stopsSave entity with
  | true =>
      rw [FaultyStore.save_of_stopped stopped]
      exact .inl ⟨_, rfl⟩
  | false =>
      rw [FaultyStore.save_of_served stopped]
      cases keyed : Entity.key? entity with
      | some key =>
          obtain ⟨same, rows⟩ := cache.store.store.save_of_keyed keyed
          rw [same]
          dsimp only
          rw [keyed]
          exact .inr ⟨entity, key, _, rfl, keyed, .inl rfl, rfl, rfl,
            FaultyStore.row_of_insert rows, rfl, rfl⟩
      | none =>
          obtain ⟨same, rows⟩ := cache.store.store.save_of_unkeyed keyed
          have given := LawfulEntity.key?_withKey entity cache.store.store.nextKey
          rw [same]
          dsimp only
          rw [given]
          exact .inr ⟨_, _, _, rfl, given, .inr ⟨rfl, rfl⟩, rfl, rfl,
            FaultyStore.row_of_insert rows, rfl, rfl⟩

theorem Consistent.create {cache : Cache ε (FaultyStore ε)} (consistent : cache.Consistent)
    (entity : ε) : (cache.create entity).2.Consistent := by
  rcases cache.create_cases entity with
    ⟨error, answer⟩ | ⟨saved, key, after, answer, keyed, -, cached, dirty, rows, -⟩
  · rw [answer]
    exact consistent
  · rw [answer]
    refine ⟨?_, ?_, ?_, ?_⟩
    · intro other found held
      rw [rows] at held
      exact FaultyStore.keyed_update keyed consistent.rowKeyed held
    · intro other found held
      rw [cached, OrderedMap.get?_insert] at held
      split at held
      · next same =>
          cases held
          exact same ▸ keyed
      · exact consistent.cachedKeyed held
    · intro other marked
      rw [cached, OrderedMap.get?_insert]
      split
      · exact ⟨saved, rfl⟩
      · rw [isDirty, dirty] at marked
        exact consistent.dirtyCached marked
    · intro other found held clean
      rw [cached, OrderedMap.get?_insert] at held
      rw [rows, Function.update_apply]
      split at held
      · next same =>
          cases held
          rw [if_pos same.symm]
      · next apart =>
          rw [isDirty, dirty] at clean
          rw [if_neg (Ne.symm apart)]
          exact consistent.cleanStored held clean

theorem visible_of_create {cache after : Cache ε (FaultyStore ε)} {entity saved : ε}
    (answer : cache.create entity = (.ok saved, after)) :
    ∃ key, Entity.key? saved = some key ∧
      (saved = entity ∨ Entity.key? entity = none ∧ saved = Entity.withKey entity key) ∧
      after.visible = Function.update cache.visible key (some saved) := by
  rcases cache.create_cases entity with
    ⟨error, refused⟩ | ⟨other, key, world, created, keyed, origin, cached, -, rows, -⟩
  · rw [refused] at answer
    cases answer
  · rw [created] at answer
    cases answer
    refine ⟨key, keyed, origin, visible_of_insert cached ?_⟩
    intro other apart
    rw [rows, Function.update_of_ne (Ne.symm apart)]

end Create

/-! ## Flushing -/

section Flush

variable {cache : Cache ε (FaultyStore ε)} {key : EntityKey} {entity : ε}

omit [Entity ε] in
theorem mem_batch : (key, entity) ∈ cache.batch ↔
    cache.isDirty key = true ∧ cache.cached.get? key = some entity := by
  simp only [batch, List.mem_filterMap, OrderedMap.mem_keys_iff, isDirty,
    OrderedMap.contains_iff, Option.map_eq_some_iff, Prod.mk.injEq]
  constructor
  · rintro ⟨other, marked, held, found, rfl, rfl⟩
    exact ⟨marked, found⟩
  · rintro ⟨marked, found⟩
    exact ⟨key, marked, entity, found, rfl, rfl⟩

theorem Consistent.batchKeyed (consistent : cache.Consistent) :
    ∀ entry ∈ cache.batch, Entity.key? entry.2 = some entry.1 :=
  fun _ member => consistent.cachedKeyed (mem_batch.mp member).2

/-- After a flush the marked keys are those whose save was stopped. -/
theorem isDirty_flush : cache.flush.2.isDirty key = true ↔
    cache.isDirty key = true ∧
      ∃ entity, cache.cached.get? key = some entity ∧
        cache.store.outage.stopsSave entity = true := by
  have marks : cache.flush.2.isDirty key =
      (saveAll cache.store cache.batch).1.contains key :=
    OrderedSet.contains_ofList _ key
  rw [marks, List.contains_iff_mem, saveAll_failed, List.mem_map]
  constructor
  · rintro ⟨⟨other, entity⟩, member, rfl⟩
    obtain ⟨member, stopped⟩ := List.mem_filter.mp member
    obtain ⟨marked, found⟩ := mem_batch.mp member
    exact ⟨marked, entity, found, stopped⟩
  · rintro ⟨marked, entity, found, stopped⟩
    exact ⟨(key, entity), List.mem_filter.mpr ⟨mem_batch.mpr ⟨marked, found⟩, stopped⟩, rfl⟩

/-- A marked entity whose save is served is the row of its key afterwards. -/
theorem row_flush_of_served (consistent : cache.Consistent) (marked : cache.isDirty key = true)
    (found : cache.cached.get? key = some entity)
    (served : cache.store.outage.stopsSave entity = false) :
    cache.flush.2.row key = some entity := by
  refine row_saveAll_of_served consistent.batchKeyed ?_ (mem_batch.mpr ⟨marked, found⟩) served
  intro other member
  exact Option.some.inj ((mem_batch.mp member).2.symm.trans found)

/-- All other rows stay. -/
theorem row_flush_of_stopped (consistent : cache.Consistent)
    (stopped : ∀ entity, cache.isDirty key = true → cache.cached.get? key = some entity →
      cache.store.outage.stopsSave entity = true) :
    cache.flush.2.row key = cache.row key := by
  refine row_saveAll_of_stopped consistent.batchKeyed ?_
  intro entity member
  obtain ⟨marked, found⟩ := mem_batch.mp member
  exact stopped entity marked found

/-- A flush cannot be noticed: it writes rows only behind cached entities. -/
theorem visible_flush (consistent : cache.Consistent) : cache.flush.2.visible = cache.visible := by
  funext key
  cases found : cache.cached.get? key with
  | some entity =>
      have after : cache.flush.2.cached.get? key = some entity := found
      rw [visible_of_cached found, visible_of_cached after]
  | none =>
      have kept : cache.flush.2.row key = cache.row key := by
        refine row_flush_of_stopped consistent ?_
        intro entity _ held
        rw [found] at held
        cases held
      have after : cache.flush.2.cached.get? key = none := found
      rw [visible_of_missing found, visible_of_missing after, kept]

/-- A flush none of whose saves is stopped leaves what is visible in the rows. -/
theorem row_flush (consistent : cache.Consistent)
    (served : ∀ entity : ε, cache.store.outage.stopsSave entity = false) :
    cache.flush.2.row = cache.visible := by
  funext key
  cases marked : cache.isDirty key with
  | true =>
      obtain ⟨entity, found⟩ := consistent.dirtyCached marked
      rw [row_flush_of_served consistent marked found (served entity), visible_of_cached found]
  | false =>
      have kept : cache.flush.2.row key = cache.row key := by
        refine row_flush_of_stopped consistent ?_
        intro entity dirty _
        rw [marked] at dirty
        cases dirty
      rw [kept]
      cases found : cache.cached.get? key with
      | some entity => rw [visible_of_cached found, consistent.cleanStored found marked]
      | none => rw [visible_of_missing found]

theorem Consistent.flush (consistent : cache.Consistent) : cache.flush.2.Consistent where
  rowKeyed {key found} held := by
    by_cases written : cache.isDirty key = true ∧ ∃ entity,
        cache.cached.get? key = some entity ∧ cache.store.outage.stopsSave entity = false
    · obtain ⟨marked, entity, cached, served⟩ := written
      rw [row_flush_of_served consistent marked cached served] at held
      exact consistent.cachedKeyed (cached.trans held)
    · have kept : cache.flush.2.row key = cache.row key := by
        refine row_flush_of_stopped consistent ?_
        intro entity marked cached
        cases stopped : cache.store.outage.stopsSave entity with
        | true => rfl
        | false => exact absurd ⟨marked, entity, cached, stopped⟩ written
      exact consistent.rowKeyed (kept ▸ held)
  cachedKeyed held := consistent.cachedKeyed held
  dirtyCached marked := consistent.dirtyCached (isDirty_flush.mp marked).1
  cleanStored {key found} held clean := by
    cases marked : cache.isDirty key with
    | true =>
        cases stopped : cache.store.outage.stopsSave found with
        | true =>
            rw [isDirty_flush.mpr ⟨marked, found, held, stopped⟩] at clean
            cases clean
        | false => exact row_flush_of_served consistent marked held stopped
    | false =>
        have kept : cache.flush.2.row key = cache.row key := by
          refine row_flush_of_stopped consistent ?_
          intro entity dirty _
          rw [marked] at dirty
          cases dirty
        rw [kept]
        exact consistent.cleanStored held marked

end Flush

end Cache

end SessionServer
