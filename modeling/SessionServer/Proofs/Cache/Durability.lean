import SessionServer.Proofs.Cache.Refinement

/-!
Contract: what has been changed in a cache is not lost on its way to the rows.

Owns:
- what the report of a flush says about the marks that are left;
- the theorem that after any attempts a marked key has its entity in the cache and an unmarked one
  has it in its row as well, so that a flush that reports no failure leaves everything in the rows.

Does not own: the invariant behind it, which is `Cache.Consistent`.
-/

namespace SessionServer.Cache

variable {ε : Type} [Entity ε]

section Reports

variable {cache : Cache ε (FaultyStore ε)}

/-- A flush reports a failure for each key whose mark it leaves, and for no other. -/
theorem failed_flush_eq_zero_iff :
    cache.flush.1.failed = 0 ↔ ∀ key, cache.flush.2.isDirty key = false := by
  have count : cache.flush.1.failed = (saveAll cache.store cache.batch).1.length := rfl
  have marks : ∀ key, cache.flush.2.isDirty key =
      (saveAll cache.store cache.batch).1.contains key := OrderedSet.contains_ofList _
  rw [count, List.length_eq_zero_iff]
  constructor
  · intro unfailed key
    rw [marks, unfailed]
    rfl
  · intro unmarked
    apply List.eq_nil_iff_forall_not_mem.mpr
    intro key failed
    have marked := List.contains_iff_mem.mpr failed
    rw [← marks, unmarked] at marked
    cases marked

/-- Where no mark is left, the rows are what is visible. -/
theorem Consistent.row_eq_visible (consistent : cache.Consistent)
    (unmarked : ∀ key, cache.isDirty key = false) : cache.row = cache.visible := by
  funext key
  cases found : cache.cached.get? key with
  | some entity =>
      rw [visible_of_cached found]
      exact consistent.cleanStored found (unmarked key)
  | none => exact (visible_of_missing found).symm

end Reports

/-- However many loads and saves have failed, a marked key has its entity in the cache, and the
entity of an unmarked one is its row. So a flush that reports no failure leaves no mark behind, and
all that was visible before it is in the rows. -/
theorem run_loses_nothing [LawfulEntity ε] (store : FaultyStore ε)
    (stored : ∀ {key : EntityKey} {entity : ε},
      store.row key = some entity → Entity.key? entity = some key)
    (attempts : List (Attempt ε))
    (keyed : ∀ attempt ∈ attempts, attempt.operation.Keyed) :
    let cache := (fresh store).run attempts
    (∀ key, cache.isDirty key = true → ∃ entity, cache.cached.get? key = some entity) ∧
      (∀ key entity, cache.cached.get? key = some entity → cache.isDirty key = false →
        cache.row key = some entity) ∧
      ∀ outage,
        let flush := (cache.during outage).flush
        flush.1.failed = 0 →
          (∀ key, flush.2.isDirty key = false) ∧
            (∀ key entity, flush.2.cached.get? key = some entity →
              flush.2.row key = some entity) ∧
            flush.2.row = cache.visible := by
  intro cache
  have consistent : cache.Consistent := (consistent_fresh store stored).run keyed
  refine ⟨?_, ?_, ?_⟩
  · intro key marked
    exact consistent.dirtyCached marked
  · intro key entity found clean
    exact consistent.cleanStored found clean
  intro outage flush unfailed
  have ready : (cache.during outage).Consistent := consistent.during outage
  have unmarked : ∀ key, flush.2.isDirty key = false := failed_flush_eq_zero_iff.mp unfailed
  refine ⟨unmarked, ?_, ?_⟩
  · intro key entity found
    exact ready.flush.cleanStored found (unmarked key)
  · -- A flush shows what was visible before it, and an outage hides nothing.
    exact (ready.flush.row_eq_visible unmarked).trans (visible_flush ready)

/-- A note is changed, its first save fails and a second note is marked meanwhile; the flush after
the outage reports no failure, and both are in the rows. -/
theorem run_loses_nothing_notes :
    let store : FaultyStore Note := { store := (MemoryStore.empty.save ⟨some 1, "one"⟩).2 }
    let append : Note → Note := fun note => { note with text := note.text ++ "!" }
    let attempts : List (Attempt Note) :=
      [⟨.none, .update 1 append⟩, ⟨{ keys := [1] }, .flush⟩,
        ⟨{ saves := true }, .create ⟨none, "three"⟩⟩, ⟨.none, .mark 2 ⟨some 2, "two"⟩⟩]
    let cache := (fresh store).run attempts
    let flush := (cache.during .none).flush
    cache.isDirty 1 = true ∧ cache.row 1 = some ⟨some 1, "one"⟩ ∧ flush.1.failed = 0 ∧
      flush.2.isDirty 1 = false ∧ flush.2.row = cache.visible ∧
      flush.2.row 1 = some ⟨some 1, "one!"⟩ ∧ flush.2.row 2 = some ⟨some 2, "two"⟩ := by
  intro store append attempts
  have stored : ∀ {key : EntityKey} {entity : Note},
      store.row key = some entity → Entity.key? entity = some key := by
    intro key entity found
    have rows : store.row = Function.update ({} : FaultyStore Note).row 1 (some ⟨some 1, "one"⟩) :=
      FaultyStore.row_of_insert rfl
    rw [rows] at found
    exact FaultyStore.keyed_update rfl (fun missing => by cases missing) found
  have keyed : ∀ attempt ∈ attempts, attempt.operation.Keyed := by
    simp only [attempts, List.mem_cons, List.not_mem_nil, or_false, forall_eq_or_imp, forall_eq]
    exact ⟨fun _ => rfl, trivial, trivial, rfl⟩
  have flushes := (run_loses_nothing store stored attempts keyed).2.2 .none (by decide)
  exact ⟨by decide, by decide, by decide, flushes.1 1, flushes.2.2, by decide, by decide⟩

end SessionServer.Cache
