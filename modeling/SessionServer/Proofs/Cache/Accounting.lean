import SessionServer.Proofs.Cache.Refinement
import SessionServer.Proofs.Data.OrderedMap
import SessionServer.Proofs.Store.FileNames

/-!
Contract: what a flush writes, what it reports and what it leaves for the next one.

Owns:
- `Cache.marked` and `Outage.stopped`, the keys that wait to be written and those that cannot be;
- `Cache.flushIn`, a flush that takes the marked keys in an order of its own;
- `FlushAccount`, the balance of a flush by these two sets of keys;
- the theorem that every flush of every run is accounted for, in whatever order it goes, and that
  the next one takes up what it could not write and nothing else.

Does not own: which rows a flush writes, which is told beside `Cache.Consistent`.
-/

namespace SessionServer

/-! ## Keys -/

/-- The keys under which nothing can be saved. -/
def Outage.stopped (outage : Outage) : Set EntityKey :=
  {key | outage.saves = true ∨ key ∈ outage.keys}

theorem Outage.stopsSave_iff {ε : Type} [Entity ε] {outage : Outage} {entity : ε} {key : EntityKey}
    (keyed : Entity.key? entity = some key) :
    outage.stopsSave entity = true ↔ key ∈ outage.stopped := by
  rw [stopsSave, keyed, Bool.or_eq_true, List.contains_iff_mem]
  rfl

/-! ## Saves in either order -/

theorem EntityKey.max_right_comm (top left right : EntityKey) :
    max (max top left) right = max (max top right) left := by
  apply Int64.toInt_inj.mp
  simp only [toInt_max]
  omega

section Order

variable {ε : Type} [Entity ε] {first second : ε} {left right : EntityKey}

theorem MemoryStore.snd_save_of_keyed (store : MemoryStore ε)
    (keyed : Entity.key? first = some left) :
    (store.save first).2 =
      { rows := store.rows.insert left first
        nextKey := max store.nextKey left.next
        saves := store.saves + 1 } := by
  simp only [save, keyed, Option.getD_some, Option.isSome_some, ↓reduceIte]

theorem MemoryStore.save_comm (store : MemoryStore ε) (firstKeyed : Entity.key? first = some left)
    (secondKeyed : Entity.key? second = some right) (apart : left ≠ right) :
    ((store.save first).2.save second).2 = ((store.save second).2.save first).2 := by
  simp only [snd_save_of_keyed _ firstKeyed, snd_save_of_keyed _ secondKeyed,
    OrderedMap.insert_comm _ apart, EntityKey.max_right_comm _ left.next]

theorem FaultyStore.snd_save (faulty : FaultyStore ε) (entity : ε) :
    (faulty.save entity).2 =
      if faulty.outage.stopsSave entity then faulty
      else { faulty with store := (faulty.store.save entity).2 } := by
  unfold save
  split <;> rfl

theorem FaultyStore.save_comm (faulty : FaultyStore ε) (firstKeyed : Entity.key? first = some left)
    (secondKeyed : Entity.key? second = some right) (apart : left ≠ right) :
    ((faulty.save first).2.save second).2 = ((faulty.save second).2.save first).2 := by
  simp only [snd_save]
  cases firstStopped : faulty.outage.stopsSave first <;>
    cases secondStopped : faulty.outage.stopsSave second <;>
      simp only [firstStopped, secondStopped, Bool.false_eq_true, ↓reduceIte]
  rw [faulty.store.save_comm firstKeyed secondKeyed apart]

end Order

namespace Cache

variable {ε : Type}

/-! ## Orders of a flush -/

section Orders

variable {σ : Type} [EntityStore σ ε]

/-- The keys whose entity waits to be written. -/
def marked (cache : Cache ε σ) : Set EntityKey := {key | cache.isDirty key = true}

omit [EntityStore σ ε] in
theorem mem_dirty_keys (cache : Cache ε σ) (key : EntityKey) :
    key ∈ cache.dirty.keys ↔ key ∈ cache.marked := by
  rw [OrderedMap.mem_keys_iff, ← OrderedMap.contains_iff]
  rfl

omit [EntityStore σ ε] in
theorem finite_marked (cache : Cache ε σ) : cache.marked.Finite :=
  cache.dirty.keys.finite_toSet.subset fun key => (cache.mem_dirty_keys key).mpr

/-- The entities of the given keys that are in the cache. -/
def batchIn (cache : Cache ε σ) (order : List EntityKey) : List (EntityKey × ε) :=
  order.filterMap fun key => (cache.cached.get? key).map fun entity => (key, entity)

/-- A flush that takes the marked keys in the given order. -/
def flushIn (cache : Cache ε σ) (order : List EntityKey) : FlushReport × Cache ε σ :=
  let batch := cache.batchIn order
  let (failed, store) := saveAll cache.store batch
  (⟨batch.length - failed.length, failed.length⟩,
    { cache with store, dirty := OrderedSet.ofList failed })

/-- A flush goes by ascending keys. -/
theorem flush_eq_flushIn (cache : Cache ε σ) : cache.flush = cache.flushIn cache.dirty.keys := rfl

theorem snd_saveAll (batch : List (EntityKey × ε)) (store : σ) :
    (saveAll store batch).2 =
      batch.foldl (fun store entry => (EntityStore.save store entry.2).2) store := by
  induction batch generalizing store with
  | nil => rfl
  | cons entry rest inductionHypothesis =>
      rw [List.foldl_cons, ← inductionHypothesis, saveAll]
      rcases EntityStore.save store entry.2 with ⟨error | saved, after⟩ <;> rfl

end Orders

variable [Entity ε] {cache : Cache ε (FaultyStore ε)}

/-- Entities under keys of their own are saved in any order with the same result. -/
theorem saveAll_perm {batch others : List (EntityKey × ε)} (same : batch.Perm others)
    (keyed : ∀ entry ∈ batch, Entity.key? entry.2 = some entry.1)
    (single : ∀ key first second, (key, first) ∈ batch → (key, second) ∈ batch → first = second)
    (faulty : FaultyStore ε) : (saveAll faulty batch).2 = (saveAll faulty others).2 := by
  rw [snd_saveAll, snd_saveAll]
  refine same.foldl_eq' ?_ faulty
  rintro ⟨left, first⟩ firstMember ⟨right, second⟩ secondMember store
  by_cases same : left = right
  · -- Two entries of one key hold the same entity, so there is nothing to exchange.
    subst same
    rw [single left first second firstMember secondMember]
  · exact store.save_comm (keyed _ firstMember) (keyed _ secondMember) same

/-- A flush has the same result in every order. -/
theorem Consistent.flushIn_eq_flush (consistent : cache.Consistent) {order : List EntityKey}
    (same : order.Perm cache.dirty.keys) : cache.flushIn order = cache.flush := by
  have batches : (cache.batchIn order).Perm cache.batch := same.filterMap _
  have failures : (saveAll cache.store (cache.batchIn order)).1.Perm
      (saveAll cache.store cache.batch).1 := by
    rw [saveAll_failed, saveAll_failed]
    exact (batches.filter _).map _
  have stores : (saveAll cache.store cache.batch).2 =
      (saveAll cache.store (cache.batchIn order)).2 := by
    refine saveAll_perm batches.symm consistent.batchKeyed ?_ cache.store
    intro key first second firstMember secondMember
    have found := (mem_batch.mp firstMember).2.symm.trans (mem_batch.mp secondMember).2
    exact Option.some.inj found
  unfold Cache.flushIn Cache.flush
  dsimp only
  rw [batches.length_eq, failures.length_eq, stores, OrderedSet.ofList_perm failures]

/-! ## The balance of a flush -/

/-- A flush writes the marked keys whose saves do not fail and leaves the others marked. It reports
the number of both, and touches neither the cached entities nor any other row. -/
structure FlushAccount (failing : Set EntityKey) (before : Cache ε (FaultyStore ε))
    (flush : FlushReport × Cache ε (FaultyStore ε)) : Prop where
  saved : flush.1.saved = (before.marked \ failing).ncard
  failed : flush.1.failed = (before.marked ∩ failing).ncard
  marked : flush.2.marked = before.marked ∩ failing
  cached : flush.2.cached = before.cached
  saves : flush.2.store.store.saves = before.store.store.saves + flush.1.saved
  written : ∀ key ∈ before.marked \ failing, ∃ entity,
    before.cached.get? key = some entity ∧ flush.2.row key = some entity
  others : ∀ key ∉ before.marked \ failing, flush.2.row key = before.row key

/-- Every save of a batch is counted by the store or reported as failed. -/
theorem saves_saveAll (batch : List (EntityKey × ε)) (faulty : FaultyStore ε) :
    (saveAll faulty batch).2.store.saves + (saveAll faulty batch).1.length =
      faulty.store.saves + batch.length := by
  induction batch generalizing faulty with
  | nil => rfl
  | cons entry rest inductionHypothesis =>
      obtain ⟨key, entity⟩ := entry
      cases answer : faulty.outage.stopsSave entity with
      | true =>
          have counted := inductionHypothesis faulty
          rw [saveAll_stopped answer]
          dsimp only [List.length_cons]
          omega
      | false =>
          have counted := inductionHypothesis (faulty.save entity).2
          have once : (faulty.save entity).2.store.saves = faulty.store.saves + 1 := by
            rw [FaultyStore.save_of_served answer]
            rfl
          rw [saveAll_served answer, List.length_cons]
          omega

namespace Consistent

/-- No marked key is without its entity, so none is left out. -/
theorem map_fst_batch (consistent : cache.Consistent) :
    cache.batch.map Prod.fst = cache.dirty.keys := by
  have listed : ∀ key ∈ cache.dirty.keys,
      ((cache.cached.get? key).map fun entity => (key, entity)).map Prod.fst = some key := by
    intro key member
    obtain ⟨entity, found⟩ := consistent.dirtyCached ((cache.mem_dirty_keys key).mp member)
    rw [found]
    rfl
  rw [batch, List.map_filterMap, List.filterMap_congr listed, List.filterMap_some]

theorem ncard_marked (consistent : cache.Consistent) :
    cache.marked.ncard = cache.batch.length := by
  rw [ncard_of_list cache.dirty.nodup_keys cache.mem_dirty_keys, ← consistent.map_fst_batch,
    List.length_map]

theorem marked_flush (consistent : cache.Consistent) :
    cache.flush.2.marked = cache.marked ∩ cache.store.outage.stopped := by
  ext key
  constructor
  · intro left
    obtain ⟨waiting, entity, found, stopped⟩ := isDirty_flush.mp left
    exact ⟨waiting, (Outage.stopsSave_iff (consistent.cachedKeyed found)).mp stopped⟩
  · rintro ⟨waiting, stopped⟩
    obtain ⟨entity, found⟩ := consistent.dirtyCached waiting
    have refused := (Outage.stopsSave_iff (consistent.cachedKeyed found)).mpr stopped
    exact isDirty_flush.mpr ⟨waiting, entity, found, refused⟩

theorem failed_flush (consistent : cache.Consistent) :
    cache.flush.1.failed = (cache.marked ∩ cache.store.outage.stopped).ncard := by
  have report : cache.flush.1.failed = (saveAll cache.store cache.batch).1.length := rfl
  have once : (saveAll cache.store cache.batch).1.Nodup := by
    have keys := cache.dirty.nodup_keys
    rw [← consistent.map_fst_batch] at keys
    rw [saveAll_failed]
    exact keys.sublist (List.filter_sublist.map Prod.fst)
  rw [report, ← consistent.marked_flush, ncard_of_list once]
  intro key
  rw [← List.contains_iff_mem, ← OrderedSet.contains_ofList]
  rfl

theorem flushAccount (consistent : cache.Consistent) :
    FlushAccount cache.store.outage.stopped cache cache.flush := by
  have parts := Set.ncard_inter_add_ncard_sdiff_eq_ncard cache.marked
    cache.store.outage.stopped cache.finite_marked
  rw [← consistent.failed_flush, consistent.ncard_marked] at parts
  have report : cache.flush.1.saved = cache.batch.length - cache.flush.1.failed := rfl
  have counted : cache.flush.2.store.store.saves + cache.flush.1.failed =
      cache.store.store.saves + cache.batch.length := saves_saveAll cache.batch cache.store
  refine ⟨by omega, consistent.failed_flush, consistent.marked_flush, rfl, by omega, ?_, ?_⟩
  · rintro key ⟨waiting, served⟩
    obtain ⟨entity, found⟩ := consistent.dirtyCached waiting
    refine ⟨entity, found, row_flush_of_served consistent waiting found ?_⟩
    rw [← Bool.not_eq_true, Outage.stopsSave_iff (consistent.cachedKeyed found)]
    exact served
  · intro key spared
    refine row_flush_of_stopped consistent ?_
    intro entity waiting found
    rw [Outage.stopsSave_iff (consistent.cachedKeyed found)]
    exact not_not.mp fun served => spared ⟨waiting, served⟩

end Consistent

/-- Where nothing is marked, a flush does nothing. -/
theorem flush_of_unmarked (unmarked : cache.marked = ∅) :
    cache.flush = (⟨0, 0⟩, cache) := by
  have keys : cache.dirty.keys = [] := by
    apply List.eq_nil_iff_forall_not_mem.mpr
    intro key member
    rw [cache.mem_dirty_keys, unmarked] at member
    exact member
  have clean : cache.dirty = OrderedMap.empty :=
    OrderedMap.ext_entries (List.map_eq_nil_iff.mp keys)
  have nothing : cache.batch = [] := by
    rw [batch, keys, List.filterMap_nil]
  have same : ({ cache with dirty := OrderedMap.empty } : Cache ε (FaultyStore ε)) = cache := by
    rw [← clean]
  unfold Cache.flush
  rw [nothing]
  exact congrArg (Prod.mk _) same

/-! ## Between two flushes -/

/-- Look-ups and creations mark nothing. -/
def Operation.KeepsMarks : Operation ε → Prop
  | .get _ => True
  | .create _ => True
  | _ => False

section Between

variable [LawfulEntity ε]

theorem dirty_perform (cache : Cache ε (FaultyStore ε)) {operation : Operation ε}
    (keeps : operation.KeepsMarks) : (cache.perform operation).2.dirty = cache.dirty := by
  cases operation with
  | get key => exact cache.dirty_get key
  | create entity =>
      show (cache.create entity).2.dirty = cache.dirty
      rcases cache.create_cases entity with ⟨_, refused⟩ | ⟨_, _, _, served, _, _, _, dirty, _⟩
      · rw [refused]
      · rw [served]
        exact dirty
  | mark => cases keeps
  | update => cases keeps
  | flush => cases keeps

theorem dirty_run (cache : Cache ε (FaultyStore ε)) {attempts : List (Attempt ε)}
    (keep : ∀ attempt ∈ attempts, attempt.operation.KeepsMarks) :
    (cache.run attempts).dirty = cache.dirty := by
  induction attempts generalizing cache with
  | nil => rfl
  | cons first rest inductionHypothesis =>
      rw [run, inductionHypothesis _ fun attempt member =>
        keep attempt (List.mem_cons_of_mem _ member)]
      exact dirty_perform (cache.during first.outage) (keep first List.mem_cons_self)

end Between

/-- Whatever has been asked of a cache before, a flush writes the marked entities whose saves do not
fail, reports how many it wrote and how many it could not, and leaves the marks of the latter. The
order in which it goes does not matter. Unless something is marked or changed in between, the next
flush has only those left to write, and it does nothing if there are none. -/
theorem run_flush_accounted [LawfulEntity ε] (store : FaultyStore ε)
    (stored : ∀ {key : EntityKey} {entity : ε},
      store.row key = some entity → Entity.key? entity = some key)
    (attempts : List (Attempt ε)) (keyed : ∀ attempt ∈ attempts, attempt.operation.Keyed)
    (outage : Outage) :
    let cache := ((fresh store).run attempts).during outage
    FlushAccount outage.stopped cache cache.flush ∧
      (∀ order : List EntityKey, order.Perm cache.dirty.keys →
        cache.flushIn order = cache.flush) ∧
      ∀ between : List (Attempt ε), (∀ attempt ∈ between, attempt.operation.KeepsMarks) →
        ∀ nextOutage : Outage,
          let later := (cache.flush.2.run between).during nextOutage
          later.marked = cache.marked ∩ outage.stopped ∧
            FlushAccount nextOutage.stopped later later.flush ∧
            (cache.flush.1.failed = 0 → later.flush = (⟨0, 0⟩, later)) := by
  intro cache
  have consistent : cache.Consistent := ((consistent_fresh store stored).run keyed).during outage
  refine ⟨consistent.flushAccount, fun _ same => consistent.flushIn_eq_flush same, ?_⟩
  intro between keep nextOutage later
  have ready : later.Consistent := by
    refine (consistent.flush.run ?_).during nextOutage
    intro attempt member
    have keeps := keep attempt member
    cases operation : attempt.operation with
    | get => trivial
    | create => trivial
    | mark => rw [operation] at keeps; cases keeps
    | update => rw [operation] at keeps; cases keeps
    | flush => trivial
  have left : later.marked = cache.flush.2.marked :=
    congrArg (fun dirty => {key | OrderedMap.contains dirty key = true}) (dirty_run _ keep)
  rw [consistent.marked_flush] at left
  refine ⟨left, ready.flushAccount, ?_⟩
  intro unfailed
  apply flush_of_unmarked
  have finite : (cache.marked ∩ outage.stopped).Finite := cache.finite_marked.inter_of_left _
  rw [left]
  exact (Set.ncard_eq_zero finite).mp (consistent.failed_flush.symm.trans unfailed)

/-- Three notes wait, one of which cannot be saved; a fourth one is created before the next flush,
which writes the one that is left. -/
theorem run_flush_accounted_notes :
    let append : Note → Note := fun note => { note with text := note.text ++ "!" }
    let attempts : List (Attempt Note) :=
      [⟨.none, .create ⟨none, "one"⟩⟩, ⟨.none, .update 1 append⟩, ⟨.none, .mark 2 ⟨some 2, "two"⟩⟩,
        ⟨{ saves := true }, .flush⟩, ⟨{ loads := true }, .mark 3 ⟨some 3, "three"⟩⟩]
    let outage : Outage := { keys := [2] }
    let cache := ((fresh {}).run attempts).during outage
    let between : List (Attempt Note) := [⟨.none, .create ⟨none, "four"⟩⟩, ⟨.none, .get 1⟩]
    let later := (cache.flush.2.run between).during .none
    (∀ attempt ∈ attempts, attempt.operation.Keyed) ∧
      (∀ attempt ∈ between, attempt.operation.KeepsMarks) ∧
      cache.flush.1 = ⟨2, 1⟩ ∧ FlushAccount outage.stopped cache cache.flush ∧
      [3, 1, 2].Perm cache.dirty.keys ∧ cache.flushIn [3, 1, 2] = cache.flush ∧
      later.marked = cache.marked ∩ outage.stopped ∧
      later.flush.1 = ⟨1, 0⟩ ∧ FlushAccount Outage.none.stopped later later.flush := by
  intro append attempts outage cache between later
  have keyed : ∀ attempt ∈ attempts, attempt.operation.Keyed := by
    simp only [attempts, List.mem_cons, List.not_mem_nil, or_false, forall_eq_or_imp, forall_eq]
    exact ⟨trivial, fun _ => rfl, rfl, trivial, rfl⟩
  have keep : ∀ attempt ∈ between, attempt.operation.KeepsMarks := by
    simp only [between, List.mem_cons, List.not_mem_nil, or_false, forall_eq_or_imp, forall_eq]
    exact ⟨trivial, trivial⟩
  obtain ⟨account, orders, next⟩ :=
    run_flush_accounted ({} : FaultyStore Note) (fun missing => by cases missing) attempts keyed
      outage
  obtain ⟨left, nextAccount, -⟩ := next between keep .none
  have order : [3, 1, 2].Perm cache.dirty.keys := by decide
  exact ⟨keyed, keep, by decide, account, order, orders _ order, left, by decide, nextAccount⟩

end Cache

end SessionServer
