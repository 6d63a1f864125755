import SessionServer.Proofs.Cache.Consistency
import SessionServer.Proofs.Cache.Locality
import SessionServer.Proofs.Store.FileNames
import SessionServer.Proofs.Store.Replacement
import SessionServer.Provider.Bundle

/-!
Contract: what a cache shows for a key, over any store that keeps one row for each key.

Owns:
- `RowStore`, the stores whose loads tell what is stored and whose saves touch the key of the saved
  entity only, with the proofs that memory, files and the players' store of either kind are such;
- `Cache.record`, the cached entity or else the stored one, and what look-ups, changes and creations
  do to it, key by key.

A stored row may be unreadable. A store may refuse to load or to save for a while.
-/

namespace SessionServer

/-! ## Stores -/

/-- A store with one row for each key, which may refuse what is asked of it. -/
class RowStore (σ ε : Type) [Entity ε] [EntityStore σ ε] where
  /-- What is kept for a key, whether or not it can be loaded at present. -/
  stored : σ → EntityKey → Except StoreError (Option ε)
  stored_of_load : ∀ {store : σ} {key : EntityKey} {row : Option ε},
    EntityStore.load store key = .ok row → stored store key = .ok row
  stored_of_refused : ∀ {store after : σ} {entity : ε} {error : StoreError},
    EntityStore.save store entity = (.error error, after) → stored after = stored store
  /-- A saved entity under its own key takes no other row's place. -/
  stored_of_saved : ∀ {store after : σ} {entity saved : ε} {key : EntityKey},
    Entity.key? entity = some key → EntityStore.save store entity = (.ok saved, after) →
      saved = entity ∧ ∀ other, key ≠ other → stored after other = stored store other

namespace FaultyStore

variable {ε : Type} [Entity ε] {store after : FaultyStore ε} {entity saved : ε} {key : EntityKey}

theorem eq_of_save_error {error : StoreError} (refused : store.save entity = (.error error, after)) :
    after = store := by
  unfold save at refused
  split at refused
  · cases refused
    rfl
  · cases refused

theorem row_of_save_ok (keyed : Entity.key? entity = some key)
    (served : store.save entity = (.ok saved, after)) :
    saved = entity ∧ after.row = Function.update store.row key (some entity) := by
  obtain ⟨same, rows⟩ := store.store.save_of_keyed keyed
  unfold save at served
  split at served
  · cases served
  · cases served
    exact ⟨same, row_of_insert rows⟩

instance : RowStore (FaultyStore ε) ε where
  stored store key := .ok (store.row key)
  stored_of_load := by
    intro store key row loaded
    rcases store.load_cases key with ⟨error, failed⟩ | found
    · cases failed.symm.trans loaded
    · exact found.symm.trans loaded
  stored_of_refused refused := by rw [eq_of_save_error refused]
  stored_of_saved := by
    intro store after entity saved key keyed served
    obtain ⟨same, rows⟩ := row_of_save_ok keyed served
    refine ⟨same, ?_⟩
    intro other apart
    rw [rows, Function.update_of_ne (Ne.symm apart)]

end FaultyStore

namespace FileStore

variable {ε : Type} [Codec ε]

/-- A load looks at the disk only. -/
theorem load_congr {store other : FileStore} (same : store.disk = other.disk) (key : EntityKey) :
    (store.load key : Except StoreError (Option ε)) = other.load key := by
  unfold load
  rw [same]

/-- The file of one key has no part in the load of another. -/
theorem load_of_replaced {store after : FileStore} {entries : OrderedMap String DiskEntry}
    {entry : DiskEntry} {key other : EntityKey} (apart : key ≠ other)
    (before : store.disk = .directory entries)
    (now : after.disk = .directory (entries.insert key.fileName entry)) :
    (after.load other : Except StoreError (Option ε)) = store.load other := by
  have names : key.fileName ≠ other.fileName := fun same =>
    apart (EntityKey.fileName_injective same)
  simp only [load, before, now, Disk.readFile, OrderedMap.get?_insert_ne _ names]

variable [Entity ε] {store after : FileStore} {entity saved : ε} {key : EntityKey}

theorem disk_of_save_error {error : StoreError}
    (refused : store.save entity = (.error error, after)) : after.disk = store.disk := by
  unfold save at refused
  dsimp only at refused
  split at refused
  · next cause disk replaced =>
      cases refused
      rcases store.disk.replaceFile_cases _ _ with ⟨_, stayed⟩ | ⟨_, -, done⟩
      · rw [stayed] at replaced
        cases replaced
        rfl
      · rw [done] at replaced
        cases replaced
  · cases refused

theorem disk_of_save_ok (keyed : Entity.key? entity = some key)
    (served : store.save entity = (.ok saved, after)) :
    saved = entity ∧ ∃ entries entry, store.disk = .directory entries ∧
      after.disk = .directory (entries.insert key.fileName entry) := by
  unfold save at served
  simp only [keyed, Option.getD_some, Option.isSome_some, if_true] at served
  split at served
  · cases served
  · next disk replaced =>
      cases served
      rcases store.disk.replaceFile_cases _ _ with ⟨_, stayed⟩ | ⟨entries, standing, done⟩
      · rw [stayed] at replaced
        cases replaced
      · rw [done] at replaced
        cases replaced
        exact ⟨rfl, entries, _, standing, rfl⟩

instance : RowStore FileStore ε where
  stored store key := store.load key
  stored_of_load loaded := loaded
  stored_of_refused refused := funext (load_congr (disk_of_save_error refused))
  stored_of_saved := by
    intro store after entity saved key keyed served
    obtain ⟨same, entries, entry, before, now⟩ := disk_of_save_ok keyed served
    refine ⟨same, ?_⟩
    intro other apart
    exact load_of_replaced apart before now

end FileStore

namespace PlayerStore

/-- A directory that is there is opened as it is. -/
theorem stored_of_directory {files : FileStore} {entries : OrderedMap String DiskEntry}
    (directory : files.disk = .directory entries) (key : EntityKey) :
    stored (.files files) key = files.load key := by
  simp only [stored, FileStore.open, directory, Disk.makeDirectory, bind, Except.bind]
  exact FileStore.load_congr directory.symm key

theorem save_memory {store : FaultyStore Player} {player : Player} {result : Except StoreError Player}
    {after : PlayerStore} (saved : save (.memory store) player = (result, after)) :
    ∃ kept, store.save player = (result, kept) ∧ after = .memory kept := by
  have unfolded : save (.memory store) player =
      ((store.save player).1, .memory (store.save player).2) := rfl
  rw [unfolded] at saved
  obtain ⟨answer, rfl⟩ := Prod.mk.inj saved
  exact ⟨_, Prod.ext answer rfl, rfl⟩

theorem save_files {store : FileStore} {player : Player} {result : Except StoreError Player}
    {after : PlayerStore} (saved : save (.files store) player = (result, after)) :
    ∃ kept, store.save player = (result, kept) ∧ after = .files kept := by
  have unfolded : save (.files store) player =
      ((store.save player).1, .files (store.save player).2) := rfl
  rw [unfolded] at saved
  obtain ⟨answer, rfl⟩ := Prod.mk.inj saved
  exact ⟨_, Prod.ext answer rfl, rfl⟩

instance : RowStore PlayerStore Player where
  stored := stored
  stored_of_load := by
    intro store key row loaded
    cases store with
    | memory store =>
        rcases store.load_cases key with ⟨error, failed⟩ | found
        · cases failed.symm.trans loaded
        · exact found.symm.trans loaded
    | files store =>
        obtain ⟨disk, next⟩ := store
        cases disk with
        | directory entries => exact (stored_of_directory rfl key).trans loaded
        | missing => exact loaded
        | plainFile => cases loaded
        | belowFile => cases loaded
  stored_of_refused := by
    intro store after player error refused
    cases store with
    | memory store =>
        obtain ⟨kept, answer, rfl⟩ := save_memory refused
        rw [FaultyStore.eq_of_save_error answer]
    | files store =>
        obtain ⟨kept, answer, rfl⟩ := save_files refused
        funext key
        simp only [stored, FileStore.disk_of_save_error answer]
  stored_of_saved := by
    intro store after player saved key keyed served
    cases store with
    | memory store =>
        obtain ⟨kept, answer, rfl⟩ := save_memory served
        obtain ⟨same, rows⟩ := FaultyStore.row_of_save_ok keyed answer
        refine ⟨same, ?_⟩
        intro other apart
        exact congrArg Except.ok
          ((congrFun rows other).trans (Function.update_of_ne (Ne.symm apart) _ _))
    | files store =>
        obtain ⟨kept, answer, rfl⟩ := save_files served
        obtain ⟨same, entries, entry, before, now⟩ := FileStore.disk_of_save_ok keyed answer
        refine ⟨same, ?_⟩
        intro other apart
        rw [stored_of_directory now, stored_of_directory before]
        exact FileStore.load_of_replaced apart before now

end PlayerStore

/-! ## Records -/

namespace Cache

section Records

variable {ε σ : Type} [Entity ε] [EntityStore σ ε] [RowStore σ ε]

/-- What a key stands for: the cached entity, or else what is stored. -/
def record (cache : Cache ε σ) (key : EntityKey) : Except StoreError (Option ε) :=
  match cache.cached.get? key with
  | some entity => .ok (some entity)
  | none => RowStore.stored cache.store key

variable {cache : Cache ε σ} {key other : EntityKey}

theorem record_of_fetch {entity? : Option ε} (fetched : cache.fetch key = .ok entity?) :
    cache.record key = .ok entity? := by
  unfold fetch at fetched
  unfold record
  cases cached : cache.cached.get? key with
  | some entity =>
      rw [cached] at fetched
      exact fetched
  | none =>
      rw [cached] at fetched
      exact RowStore.stored_of_load fetched

theorem record_keep (cache : Cache ε σ) (key other : EntityKey) (entity : ε) (changed : Bool) :
    (cache.keep key entity changed).record other =
      if key = other then .ok (some entity) else cache.record other := by
  simp only [record, keep, OrderedMap.get?_insert]
  by_cases same : key = other <;> simp [same]

/-- A touch leaves every record as it was, except for a change that it makes. -/
theorem record_touch {change : Option (ε → Option ε)}
    (differs : (cache.touch key change).2.record other ≠ cache.record other) :
    other = key ∧ ∃ apply entity changed, change = some apply ∧
      cache.record key = .ok (some entity) ∧ apply entity = some changed ∧
      (cache.touch key change).2.record key = .ok (some changed) := by
  unfold touch at differs ⊢
  rcases fetched : cache.fetch key with error | _ | entity <;> rw [fetched] at differs
  · exact absurd rfl differs
  · exact absurd rfl differs
  · have present := record_of_fetch fetched
    simp only [record_keep] at differs ⊢
    by_cases same : key = other
    · subst same
      rw [if_pos rfl, present] at differs
      cases change with
      | none => exact absurd rfl differs
      | some apply =>
          rw [Option.bind_some] at differs ⊢
          cases became : apply entity with
          | none =>
              rw [became] at differs
              exact absurd rfl differs
          | some changed =>
              exact ⟨rfl, apply, entity, changed, rfl, present, became, if_pos trivial⟩
    · rw [if_neg same] at differs
      exact absurd rfl differs

/-- A look-up leaves every record as it was. -/
theorem record_get (cache : Cache ε σ) (key other : EntityKey) :
    (cache.get key).2.record other = cache.record other := by
  by_contra differs
  have touched : (cache.touch key none).2.record other ≠ cache.record other := by
    rwa [touch_none]
  obtain ⟨-, _, _, _, change, -⟩ := record_touch touched
  cases change

/-- A creation leaves every record as it was, except for the one that it makes. -/
theorem record_create {entity : ε} (keyed : Entity.key? entity = some key)
    (differs : (cache.create entity).2.record other ≠ cache.record other) :
    other = key ∧ (cache.create entity).2.record key = .ok (some entity) := by
  unfold create at differs ⊢
  rcases answer : EntityStore.save cache.store entity with ⟨error | saved, store⟩
  · rw [answer] at differs
    simp only [record, RowStore.stored_of_refused answer] at differs
    exact absurd rfl differs
  · obtain ⟨rfl, others⟩ := RowStore.stored_of_saved keyed answer
    rw [answer] at differs
    simp only [keyed, record, OrderedMap.get?_insert] at differs ⊢
    by_cases same : key = other
    · exact ⟨same.symm, by rw [if_pos trivial]⟩
    · rw [if_neg same, others other same] at differs
      exact absurd rfl differs

end Records

end Cache

end SessionServer
