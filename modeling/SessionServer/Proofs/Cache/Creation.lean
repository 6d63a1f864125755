import SessionServer.Proofs.Cache.Accounting
import SessionServer.Proofs.Store.FreshKeys

/-!
Contract: which cached entities make way for one that is created.

Owns:
- what the operations of a cache leave of `MemoryStore.Written`, and so of the next key;
- the theorem that an entity created without a key takes the place of a cached one exactly when
  that one has never been saved, or when the keys have run out;
- a change that is lost in this way.

The store behind a cache gives out keys by what has been saved. An entity that has been marked but
not written yet is unknown to it, so its key may be given to another entity.
-/

namespace SessionServer

variable {ε : Type} [Entity ε]

/-! ## Stores behind a cache -/

/-- Every entity is kept under its own key. -/
theorem MemoryStore.Written.keyed [LawfulEntity ε] {store : MemoryStore ε}
    (written : store.Written) {key : EntityKey} {entity : ε}
    (found : store.load key = some entity) : Entity.key? entity = some key := by
  induction written with
  | empty => cases found
  | @saved store _ added inductionHypothesis =>
      rw [load_save] at found
      split at found
      · next same =>
          cases found
          rw [← same]
          exact (LawfulEntity.key?_keyed added store.nextKey).1
      · exact inductionHypothesis found

theorem FaultyStore.written_save {faulty : FaultyStore ε} (written : faulty.store.Written)
    (entity : ε) : (faulty.save entity).2.store.Written := by
  rw [snd_save]
  split
  · exact written
  · exact .saved written entity

namespace Cache

variable {cache : Cache ε (FaultyStore ε)}

theorem written_saveAll (batch : List (EntityKey × ε)) {faulty : FaultyStore ε}
    (written : faulty.store.Written) : (saveAll faulty batch).2.store.Written := by
  rw [snd_saveAll]
  induction batch generalizing faulty with
  | nil => exact written
  | cons entry rest inductionHypothesis =>
      exact inductionHypothesis (FaultyStore.written_save written entry.2)

theorem store_get (cache : Cache ε (FaultyStore ε)) (key : EntityKey) :
    (cache.get key).2.store = cache.store := by
  rcases cache.get_cases key with ⟨_, answer⟩ | answer | ⟨_, -, -, answer⟩ <;> rw [answer]

section Operations

variable [LawfulEntity ε]

/-- A cache changes its store by saves only. -/
theorem written_perform (cache : Cache ε (FaultyStore ε)) (written : cache.store.store.Written)
    (operation : Operation ε) : (cache.perform operation).2.store.store.Written := by
  cases operation with
  | get key =>
      show (cache.get key).2.store.store.Written
      rwa [store_get]
  | mark key entity => exact written
  | update key change =>
      show (cache.update key change).2.store.store.Written
      rcases cache.update_cases key change with ⟨_, answer⟩ | ⟨-, answer⟩ | ⟨_, -, answer⟩
      · rwa [answer]
      · rwa [answer]
      · rw [answer]
        show (cache.get key).2.store.store.Written
        rwa [store_get]
  | create entity =>
      show (cache.create entity).2.store.store.Written
      rcases cache.create_cases entity with
        ⟨_, answer⟩ | ⟨_, _, _, answer, -, -, -, -, -, -, store⟩
      · rwa [answer]
      · rw [answer, store]
        exact FaultyStore.written_save written entity
  | flush => exact written_saveAll cache.batch written

theorem written_run (cache : Cache ε (FaultyStore ε)) (written : cache.store.store.Written)
    (attempts : List (Attempt ε)) : (cache.run attempts).store.store.Written := by
  induction attempts generalizing cache with
  | nil => exact written
  | cons first rest inductionHypothesis =>
      exact inductionHypothesis _
        (written_perform (cache.during first.outage) written first.operation)

end Operations

/-! ## Created entities -/

/-- The next key has an entity in the cache if that one has never been saved, or if the keys have
run out. Every other saved entity lies before the next key. -/
theorem Consistent.cached_nextKey_iff (consistent : cache.Consistent)
    (written : cache.store.store.Written) :
    (∃ held, cache.cached.get? cache.store.store.nextKey = some held) ↔
      cache.isDirty cache.store.store.nextKey = true ∧
          cache.row cache.store.store.nextKey = none ∨
        (∃ held, cache.cached.get? Int64.maxValue = some held) ∧
          cache.row Int64.maxValue ≠ none := by
  constructor
  · rintro ⟨held, found⟩
    by_cases saved : cache.row cache.store.store.nextKey = none
    · refine .inl ⟨?_, saved⟩
      by_contra clean
      rw [consistent.cleanStored found (Bool.eq_false_of_not_eq_true clean)] at saved
      cases saved
    · -- The counter lies behind every key in use but the greatest one.
      have top := written.clears.eq_maxValue saved (Int64.le_refl _)
      rw [top] at found saved
      exact .inr ⟨⟨held, found⟩, saved⟩
  · rintro (⟨waiting, -⟩ | ⟨cached, saved⟩)
    · exact consistent.dirtyCached waiting
    · rwa [written.clears.eq_maxValue saved (Int64.le_maxValue _)]

/-- An entity that is created without a key takes the place of a cached one exactly when the latter
waits to be written and has never been saved, or when the greatest key is in use. Nothing else in
the cache changes. -/
theorem create_displaces_iff [LawfulEntity ε] (store : FaultyStore ε)
    (written : store.store.Written) (attempts : List (Attempt ε))
    (keyed : ∀ attempt ∈ attempts, attempt.operation.Keyed) (outage : Outage)
    {entity saved : ε} {after : Cache ε (FaultyStore ε)} (unkeyed : Entity.key? entity = none)
    (created : (((fresh store).run attempts).during outage).create entity = (.ok saved, after)) :
    let cache := (fresh store).run attempts
    ∃ key : EntityKey, Entity.key? saved = some key ∧
      ((∃ held, cache.cached.get? key = some held) ↔
        cache.isDirty key = true ∧ cache.row key = none ∨
          (∃ held, cache.cached.get? Int64.maxValue = some held) ∧
            cache.row Int64.maxValue ≠ none) ∧
      after.cached.get? key = some saved ∧
      (∀ other, other ≠ key → after.cached.get? other = cache.cached.get? other) ∧
      after.dirty = cache.dirty := by
  intro cache
  have consistent : cache.Consistent := (consistent_fresh store written.keyed).run keyed
  have kept : cache.store.store.Written := written_run (fresh store) written attempts
  rcases (cache.during outage).create_cases entity with
    ⟨_, answer⟩ | ⟨_, key, _, answer, given, -, cached, marks, -, next, -⟩
  · rw [answer] at created
    cases created
  rw [answer] at created
  cases created
  rw [unkeyed] at next
  have taken := consistent.cached_nextKey_iff kept
  refine ⟨key, given, next ▸ taken, ?_, ?_, marks⟩
  · rw [cached]
    exact OrderedMap.get?_insert_self _ _ _
  · intro other apart
    rw [cached]
    exact OrderedMap.get?_insert_ne _ (Ne.symm apart) _

/-- A note is created while another one waits: it is given the key behind the note that has been
saved, which is the key of the one that waits. -/
theorem create_displaces_iff_notes :
    let attempts : List (Attempt Note) :=
      [⟨.none, .create ⟨none, "one"⟩⟩, ⟨{ saves := true }, .mark 2 ⟨some 2, "two"⟩⟩]
    let cache := (fresh ({} : FaultyStore Note)).run attempts
    let next : Note := ⟨none, "next"⟩
    let answer := (cache.during .none).create next
    (∀ attempt ∈ attempts, attempt.operation.Keyed) ∧ Entity.key? next = none ∧
      answer.1 = .ok ⟨some 2, "next"⟩ ∧
      ((∃ held, cache.cached.get? 2 = some held) ↔
        cache.isDirty 2 = true ∧ cache.row 2 = none ∨
          (∃ held, cache.cached.get? Int64.maxValue = some held) ∧
            cache.row Int64.maxValue ≠ none) ∧
      answer.2.cached.get? 2 = some ⟨some 2, "next"⟩ ∧
      (∀ other, other ≠ 2 → answer.2.cached.get? other = cache.cached.get? other) ∧
      answer.2.dirty = cache.dirty := by
  intro attempts cache next answer
  have keyed : ∀ attempt ∈ attempts, attempt.operation.Keyed := by
    simp only [attempts, List.mem_cons, List.not_mem_nil, or_false, forall_eq_or_imp, forall_eq]
    exact ⟨trivial, rfl⟩
  have unkeyed : Entity.key? next = none := rfl
  have served : answer.1 = .ok ⟨some 2, "next"⟩ := by decide
  obtain ⟨key, given, rest⟩ :=
    create_displaces_iff {} .empty attempts keyed .none unkeyed (Prod.ext served rfl)
  cases given
  exact ⟨keyed, unkeyed, served, rest⟩

/-- A note that waits to be written is gone when another one is created, and the next flush writes
the new one in its place. -/
theorem create_displaces_waiting :
    let waiting : Note := ⟨some 1, "waiting"⟩
    let next : Note := ⟨none, "next"⟩
    let saved : Note := ⟨some 1, "next"⟩
    let cache := (fresh ({} : FaultyStore Note)).run [⟨.none, .mark 1 waiting⟩]
    let after := (cache.create next).2
    cache.isDirty 1 = true ∧ cache.cached.get? 1 = some waiting ∧ cache.row 1 = none ∧
      Entity.key? next = none ∧ (cache.create next).1 = .ok saved ∧
      Entity.key? saved = some 1 ∧ saved ≠ waiting ∧
      after.cached.get? 1 = some saved ∧ after.flush.2.visible 1 = some saved ∧
      after.flush.2.row 1 = some saved ∧ after.flush.1 = ⟨1, 0⟩ := by
  decide

end Cache

end SessionServer
