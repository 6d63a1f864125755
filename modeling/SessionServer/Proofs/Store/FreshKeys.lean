import Mathlib.Control.Monad.Basic
import SessionServer.Proofs.Cache.Refinement
import SessionServer.Proofs.Store.Refinement

/-!
Contract: which keys stores give out to entities that come without one.

Owns:
- `EntityKey.Clears`, a next key behind all keys in use, and how it moves along with a save;
- `MemoryStore.Written` and `FileStore.Written`, the stores that saves lead to. A file store may be
  opened on a directory with any names in it, and keeps entities of any kinds;
- the theorem that a key is given out although it is in use exactly when the greatest key is.

Behind the greatest key there is none, so the next key stays there once it has come to it, and from
then on every entity without a key goes where the last one went.
-/

namespace SessionServer

/-! ## The next key -/

namespace EntityKey

/-- The next key lies behind every key in use, as far as there are keys. -/
def Clears (nextKey : EntityKey) (used : EntityKey → Prop) : Prop :=
  ∀ key : EntityKey, used key → key.next ≤ nextKey

namespace Clears

variable {nextKey : EntityKey} {used : EntityKey → Prop}

/-- The counter of a store goes along with the key of a save. -/
theorem insert (clears : nextKey.Clears used) (key : EntityKey) :
    (max nextKey key.next).Clears fun other => other = key ∨ used other := by
  have size := toInt_max nextKey key.next
  rintro other (rfl | present)
  · rw [Int64.le_iff_toInt_le]
    omega
  · have below := clears other present
    rw [Int64.le_iff_toInt_le] at below ⊢
    omega

theorem of_imp (clears : nextKey.Clears used) {fewer : EntityKey → Prop}
    (sub : ∀ key, fewer key → used key) : nextKey.Clears fewer :=
  fun key present => clears key (sub key present)

/-- Only the greatest key can be in use without lying before the next one. -/
theorem eq_maxValue (clears : nextKey.Clears used) {key : EntityKey} (present : used key)
    (reached : nextKey ≤ key) : nextKey = Int64.maxValue := by
  have behind := clears key present
  have bound : nextKey.toInt ≤ Int64.maxValue.toInt :=
    Int64.le_iff_toInt_le.mp (Int64.le_maxValue nextKey)
  rw [Int64.le_iff_toInt_le, toInt_next] at behind
  rw [Int64.le_iff_toInt_le] at reached
  exact Int64.toInt_inj.mp (by omega)

/-- The next key is free unless the keys have run out. -/
theorem used_iff (clears : nextKey.Clears used) : used nextKey ↔ used Int64.maxValue := by
  constructor
  · intro present
    exact clears.eq_maxValue present (Int64.le_refl nextKey) ▸ present
  · intro present
    exact (clears.eq_maxValue present (Int64.le_maxValue nextKey)).symm ▸ present

end Clears

/-- The key behind the highest one clears everything that is shown. -/
theorem IsTop.clears {shown : EntityKey → Prop} {top : EntityKey} (isTop : IsTop shown top) :
    top.next.Clears shown := by
  intro key present
  have below := isTop.le present
  rw [Int64.le_iff_toInt_le] at below ⊢
  rw [toInt_next, toInt_next]
  omega

end EntityKey

/-! ## Memory stores -/

namespace MemoryStore

variable {ε : Type} [Entity ε]

/-- The stores that saves lead to. Loads leave a store as it is. -/
inductive Written : MemoryStore ε → Prop
  | empty : Written MemoryStore.empty
  | saved {store : MemoryStore ε} (written : Written store) (entity : ε) :
      Written (store.save entity).2

theorem load_save (store : MemoryStore ε) (entity : ε) (key : EntityKey) :
    (store.save entity).2.load key =
      if (Entity.key? entity).getD store.nextKey = key then some (store.save entity).1
      else store.load key :=
  OrderedMap.get?_insert store.rows _ key _

theorem Written.clears {store : MemoryStore ε} (written : store.Written) :
    store.nextKey.Clears fun key => store.load key ≠ none := by
  induction written with
  | empty =>
      intro key present
      exact absurd rfl present
  | @saved store _ entity inductionHypothesis =>
      refine (inductionHypothesis.insert ((Entity.key? entity).getD store.nextKey)).of_imp ?_
      intro key present
      rw [load_save] at present
      split at present
      · next same => exact .inl same.symm
      · exact .inr present

end MemoryStore

/-! ## File stores -/

namespace FileStore

/-- The stores that saves lead to once a directory has been opened, whatever is in it. -/
inductive Written : FileStore → Prop
  | opened {disk : Disk} {store : FileStore} (opened : FileStore.open disk = .ok store) :
      Written store
  | saved {ε : Type} [Entity ε] [Codec ε] {store : FileStore} (written : Written store)
      (entity : ε) : Written (store.save entity).2

section Saves

variable {ε : Type} [Entity ε] [Codec ε]

/-- A save moves the counter, and then it fails and leaves the disk alone or writes one file. -/
theorem save_cases (store : FileStore) (entity : ε) :
    let key := (Entity.key? entity).getD store.nextKey
    let keyed := if (Entity.key? entity).isSome then entity else Entity.withKey entity key
    (∃ cause, store.save entity =
      (.error (.file cause), { store with nextKey := max store.nextKey key.next })) ∨
    ∃ entries, store.disk = .directory entries ∧ store.save entity =
      (.ok keyed, ⟨.directory (entries.insert key.fileName (.file (Codec.encode keyed))),
        max store.nextKey key.next⟩) := by
  intro key keyed
  rcases store.disk.replaceFile_cases key.fileName (Codec.encode keyed) with
    ⟨cause, refused⟩ | ⟨entries, directory, replaced⟩
  · refine .inl ⟨cause, ?_⟩
    unfold save
    dsimp only
    rw [refused]
  · exact .inr ⟨entries, directory, save_of_replaceFile replaced⟩

theorem mem_names_insert {entries : OrderedMap String DiskEntry} {name other : String}
    {entry : DiskEntry} :
    other ∈ (Disk.directory (entries.insert name entry)).names ↔
      name = other ∨ other ∈ (Disk.directory entries).names := by
  show other ∈ (entries.insert name entry).keys ↔ name = other ∨ other ∈ entries.keys
  rw [OrderedMap.mem_keys_iff, OrderedMap.mem_keys_iff, OrderedMap.get?_insert]
  by_cases same : name = other
  · simp only [same, ↓reduceIte, Option.some.injEq, exists_eq', true_or]
  · simp only [same, ↓reduceIte, false_or]

end Saves

namespace Written

variable {store : FileStore}

theorem directory (written : store.Written) : ∃ entries, store.disk = .directory entries := by
  induction written with
  | @opened disk store opened =>
      cases disk with
      | missing => cases opened; exact ⟨_, rfl⟩
      | directory entries => cases opened; exact ⟨_, rfl⟩
      | plainFile => cases opened
      | belowFile => cases opened
  | @saved ε _ _ store _ entity inductionHypothesis =>
      rcases save_cases store entity with ⟨cause, refused⟩ | ⟨entries, -, done⟩
      · rw [refused]
        exact inductionHypothesis
      · rw [done]
        exact ⟨_, rfl⟩

theorem clears (written : store.Written) :
    store.nextKey.Clears fun key => key.fileName ∈ store.disk.names := by
  induction written with
  | @opened disk store opened =>
      -- More names may show keys than those that saves would give, such as `+7.bin`.
      have shown : ∀ made : Disk, (EntityKey.next (highestKey made.names)).Clears
          fun key => key.fileName ∈ made.names := by
        intro made
        exact (isTop_highestKey made.names).clears.of_imp fun key listed =>
          ⟨_, listed, EntityKey.ofFileName?_fileName key⟩
      unfold FileStore.open at opened
      split at opened
      · cases opened
      · cases opened
        exact shown _
  | @saved ε _ _ store _ entity inductionHypothesis =>
      have moved := inductionHypothesis.insert ((Entity.key? entity).getD store.nextKey)
      rcases save_cases store entity with ⟨cause, refused⟩ | ⟨entries, directory, done⟩
      · rw [refused]
        exact moved.of_imp fun key listed => .inr listed
      · rw [done]
        refine moved.of_imp fun key listed => ?_
        rcases mem_names_insert.mp listed with same | listed
        · exact .inl (EntityKey.fileName_injective same).symm
        · exact .inr (directory ▸ listed)

/-- A load finds nothing exactly where there is no file and no sub-directory. -/
theorem load_eq_none_iff {ε : Type} [Codec ε] (written : store.Written) (key : EntityKey) :
    (store.load key : Except StoreError (Option ε)) = .ok none ↔
      key.fileName ∉ store.disk.names := by
  obtain ⟨entries, directory⟩ := written.directory
  have listed : key.fileName ∈ store.disk.names ↔
      ∃ entry, entries.get? key.fileName = some entry := by
    rw [directory]
    exact entries.mem_keys_iff key.fileName
  rw [listed, load, directory]
  cases found : entries.get? key.fileName with
  | none => simp [Disk.readFile, found]
  | some entry =>
      cases entry with
      | directory => simp [Disk.readFile, found]
      | file content =>
          simp only [Disk.readFile, found]
          split <;> simp

end Written

end FileStore

/-! ## Keys that are given out -/

section Given

variable {ε : Type} [Entity ε] {entity : ε}

private theorem MemoryStore.Written.save_unkeyed {store : MemoryStore ε} (written : store.Written)
    (unkeyed : Entity.key? entity = none) :
    (store.save entity).1 = Entity.withKey entity store.nextKey ∧
      (store.load store.nextKey = none ↔ store.load Int64.maxValue = none) ∧
      (store.save entity).2.load store.nextKey = some (store.save entity).1 ∧
      ∀ other, other ≠ store.nextKey → (store.save entity).2.load other = store.load other := by
  have given : (Entity.key? entity).getD store.nextKey = store.nextKey := by
    rw [unkeyed, Option.getD_none]
  refine ⟨(store.save_of_unkeyed unkeyed).1, not_iff_not.mp written.clears.used_iff, ?_, ?_⟩
  · rw [MemoryStore.load_save, given, if_pos rfl]
  · intro other apart
    rw [MemoryStore.load_save, given, if_neg (Ne.symm apart)]

private theorem FileStore.Written.save_unkeyed [Codec ε] {store : FileStore} {saved : ε}
    (written : store.Written) (unkeyed : Entity.key? entity = none)
    (done : (store.save entity).1 = .ok saved) :
    saved = Entity.withKey entity store.nextKey ∧
      (store.nextKey.fileName ∉ store.disk.names ↔
        EntityKey.fileName Int64.maxValue ∉ store.disk.names) ∧
      (store.save entity).2.disk.readFile store.nextKey.fileName = .ok (Codec.encode saved) ∧
      ∀ name, name ≠ store.nextKey.fileName →
        (store.save entity).2.disk.readFile name = store.disk.readFile name := by
  have outcome := store.save_cases entity
  simp only [unkeyed, Option.getD_none, Option.isSome_none, Bool.false_eq_true,
    ↓reduceIte] at outcome
  rcases outcome with ⟨cause, refused⟩ | ⟨entries, directory, served⟩
  · rw [refused] at done
    cases done
  · rw [served] at done ⊢
    cases done
    refine ⟨rfl, not_congr written.clears.used_iff, ?_, ?_⟩
    · simp only [Disk.readFile, OrderedMap.get?_insert_self]
    · intro name apart
      simp only [directory, Disk.readFile, OrderedMap.get?_insert_ne _ (Ne.symm apart)]

/-- The file of a key decides what is loaded under it. -/
theorem FileStore.load_of_readFile {κ : Type} [Codec κ] {left right : FileStore} {key : EntityKey}
    (same : left.disk.readFile key.fileName = right.disk.readFile key.fileName) :
    (left.load key : Except StoreError (Option κ)) = right.load key := by
  rw [load, load, same]

/-- An entity that is saved without a key is given one that was free, unless the greatest key is in
use: then, and only then, it replaces what was there. Nothing else in the store changes. -/
theorem unkeyed_save_replaces_iff [LawfulEntity ε] [Codec ε]
    (unkeyed : Entity.key? entity = none) :
    (∀ store : MemoryStore ε, store.Written → ∃ key : EntityKey,
      Entity.key? (store.save entity).1 = some key ∧
      (store.load key = none ↔ store.load Int64.maxValue = none) ∧
      (store.save entity).2.load key = some (store.save entity).1 ∧
      ∀ other, other ≠ key → (store.save entity).2.load other = store.load other) ∧
    ∀ (store : FileStore) (saved : ε), store.Written → (store.save entity).1 = .ok saved →
      ∃ key : EntityKey, Entity.key? saved = some key ∧
      ((store.load key : Except StoreError (Option ε)) = .ok none ↔
        (store.load Int64.maxValue : Except StoreError (Option ε)) = .ok none) ∧
      (key.fileName ∉ store.disk.names ↔
        EntityKey.fileName Int64.maxValue ∉ store.disk.names) ∧
      (store.save entity).2.disk.readFile key.fileName = .ok (Codec.encode saved) ∧
      (∀ name, name ≠ key.fileName →
        (store.save entity).2.disk.readFile name = store.disk.readFile name) ∧
      ∀ (κ : Type) [Codec κ] (other : EntityKey), other ≠ key →
        ((store.save entity).2.load other : Except StoreError (Option κ)) = store.load other := by
  constructor
  · intro store written
    obtain ⟨saved, free, present, others⟩ := written.save_unkeyed unkeyed
    refine ⟨store.nextKey, ?_, free, present, others⟩
    rw [saved]
    exact LawfulEntity.key?_withKey entity store.nextKey
  · intro store saved written done
    obtain ⟨given, free, present, others⟩ := written.save_unkeyed unkeyed done
    refine ⟨store.nextKey, ?_, ?_, free, present, others, ?_⟩
    · rw [given]
      exact LawfulEntity.key?_withKey entity store.nextKey
    · rw [written.load_eq_none_iff, written.load_eq_none_iff]
      exact free
    · intro κ _ other apart
      exact FileStore.load_of_readFile
        (others _ fun names => apart (EntityKey.fileName_injective names))

/-- A note beside one at the top of the counted keys, in memory, and the same in a directory whose
names show more keys than it has files for. -/
theorem unkeyed_save_replaces_iff_notes :
    let memory : MemoryStore Note := (MemoryStore.empty.save ⟨some 6, "six"⟩).2
    let files : FileStore := ⟨.directory (.ofList [("+7.bin", .directory), ("08", .file [])]), 8⟩
    let next : Note := ⟨none, "next"⟩
    Entity.key? next = none ∧
    (∃ key : EntityKey, Entity.key? (memory.save next).1 = some key ∧
      (memory.load key = none ↔ memory.load Int64.maxValue = none) ∧
      (memory.save next).2.load key = some (memory.save next).1 ∧
      ∀ other, other ≠ key → (memory.save next).2.load other = memory.load other) ∧
    (memory.save next).1.id = some 7 ∧ (files.save next).1 = .ok ⟨some 8, "next"⟩ ∧
    ∃ key : EntityKey, Entity.key? (⟨some 8, "next"⟩ : Note) = some key ∧
      ((files.load key : Except StoreError (Option Note)) = .ok none ↔
        (files.load Int64.maxValue : Except StoreError (Option Note)) = .ok none) ∧
      (key.fileName ∉ files.disk.names ↔
        EntityKey.fileName Int64.maxValue ∉ files.disk.names) ∧
      (files.save next).2.disk.readFile key.fileName =
        .ok (Codec.encode (⟨some 8, "next"⟩ : Note)) ∧
      (∀ name, name ≠ key.fileName →
        (files.save next).2.disk.readFile name = files.disk.readFile name) ∧
      ∀ (κ : Type) [Codec κ] (other : EntityKey), other ≠ key →
        ((files.save next).2.load other : Except StoreError (Option κ)) = files.load other := by
  intro memory files next
  have unkeyed : Entity.key? next = none := rfl
  have kept := unkeyed_save_replaces_iff unkeyed
  have opened : FileStore.open files.disk = .ok files := by decide +kernel
  have served : (files.save next).1 = .ok ⟨some 8, "next"⟩ := by decide +kernel
  exact ⟨unkeyed, kept.1 memory (.saved .empty _), by decide +kernel, served,
    kept.2 files _ (.opened opened) served⟩

/-- With the greatest key in use an entity without a key replaces what is kept under it. -/
theorem unkeyed_save_replaces_top :
    (∃ (store : MemoryStore Note) (top next : Note), store.Written ∧ Entity.key? next = none ∧
      store.load Int64.maxValue = some top ∧
      Entity.key? (store.save next).1 = some Int64.maxValue ∧
      (store.save next).1 ≠ top ∧
      (store.save next).2.load Int64.maxValue = some (store.save next).1) ∧
    ∃ (store : FileStore) (top next saved : Note), store.Written ∧ Entity.key? next = none ∧
      store.load Int64.maxValue = .ok (some top) ∧
      EntityKey.fileName Int64.maxValue ∈ store.disk.names ∧
      (store.save next).1 = .ok saved ∧ Entity.key? saved = some Int64.maxValue ∧
      saved ≠ top ∧ (store.save next).2.load Int64.maxValue = .ok (some saved) := by
  let top : Note := ⟨some Int64.maxValue, "top"⟩
  let next : Note := ⟨none, "next"⟩
  let saved : Note := ⟨some Int64.maxValue, "next"⟩
  constructor
  · refine ⟨(MemoryStore.empty.save top).2, top, next, .saved .empty top, rfl, ?_⟩
    decide +kernel
  · have opened : FileStore.open .missing = .ok ⟨.emptyDirectory, 1⟩ := by decide +kernel
    refine ⟨(FileStore.save ⟨.emptyDirectory, 1⟩ top).2, top, next, saved,
      .saved (.opened opened) top, rfl, ?_⟩
    decide +kernel

end Given

end SessionServer
