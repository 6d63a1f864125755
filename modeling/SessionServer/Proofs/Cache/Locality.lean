import SessionServer.Cache

/-!
Contract: a cache treats every key by itself.

Owns:
- `Cache.fetch`, what can be had for a key, and `Cache.touch`, the one form that look-ups and changes
  of an entity share;
- the proof that touching one key leaves what can be had for the others alone, and that touches of
  two keys can trade places.

The store behind the cache may be of any kind: a touch reads it and does not change it.
-/

namespace SessionServer.Cache

variable {ε σ : Type} [EntityStore σ ε]

/-! ## Touches -/

/-- What can be had for a key at present: the cached entity, or else what the store loads. -/
def fetch (cache : Cache ε σ) (key : EntityKey) : Except StoreError (Option ε) :=
  match cache.cached.get? key with
  | some entity => .ok (some entity)
  | none => EntityStore.load cache.store key

omit [EntityStore σ ε] in
/-- Keeps an entity in memory, and marks its key if the entity has changed. -/
def keep (cache : Cache ε σ) (key : EntityKey) (entity : ε) (changed : Bool) : Cache ε σ :=
  { cache with
    cached := cache.cached.insert key entity
    dirty := if changed then OrderedSet.add cache.dirty key else cache.dirty }

/-- What is kept can be had from then on, whatever the store says. -/
theorem fetch_keep (cache : Cache ε σ) (key : EntityKey) (entity : ε) (changed : Bool) :
    (cache.keep key entity changed).fetch key = .ok (some entity) := by
  rw [fetch, keep, OrderedMap.get?_insert_self]

/-- Fetches the entity of a key and keeps it, with a change if there is one and it does not break
off. Where it breaks off there is no answer. -/
def touch (cache : Cache ε σ) (key : EntityKey) (change : Option (ε → Option ε)) :
    Option (Except StoreError (Option ε)) × Cache ε σ :=
  match cache.fetch key with
  | .ok (some entity) =>
      let changed := change.bind fun apply => apply entity
      (if change.isSome && changed.isNone then none else some (.ok (some (changed.getD entity))),
        cache.keep key (changed.getD entity) changed.isSome)
  | .ok none => (some (.ok none), cache)
  | .error error => (some (.error error), cache)

theorem get_eq (cache : Cache ε σ) (key : EntityKey) :
    cache.get key =
      (cache.fetch key,
        match cache.fetch key with
        | .ok (some entity) => cache.keep key entity false
        | _ => cache) := by
  unfold get fetch
  cases found : cache.cached.get? key with
  | some entity =>
      -- A cached entity is put where it already stands.
      show (_, cache) = (_, { cache with cached := cache.cached.insert key entity })
      rw [OrderedMap.insert_of_get? found]
  | none =>
      rcases (EntityStore.load cache.store key : Except StoreError (Option ε)) with
        error | _ | entity <;> rfl

theorem fst_get (cache : Cache ε σ) (key : EntityKey) : (cache.get key).1 = cache.fetch key := by
  rw [get_eq]

/-- A look-up is a touch without a change, and always has an answer. -/
theorem touch_none (cache : Cache ε σ) (key : EntityKey) :
    cache.touch key none = (some (cache.get key).1, (cache.get key).2) := by
  rw [get_eq, touch]
  rcases cache.fetch key with error | _ | entity <;> rfl

/-- There is no answer only where a change breaks off. -/
theorem of_fst_touch_eq_none {cache : Cache ε σ} {key : EntityKey}
    {change : Option (ε → Option ε)} (unanswered : (cache.touch key change).1 = none) :
    ∃ apply entity, change = some apply ∧ cache.fetch key = .ok (some entity) ∧
      apply entity = none := by
  unfold touch at unanswered
  split at unanswered
  · next entity there =>
      cases change with
      | none => cases unanswered
      | some apply =>
          refine ⟨apply, entity, rfl, there, ?_⟩
          dsimp only [Option.bind_some] at unanswered
          cases became : apply entity with
          | none => rfl
          | some changed =>
              rw [became] at unanswered
              cases unanswered
  · cases unanswered
  · cases unanswered

theorem revise_eq_touch (cache : Cache ε σ) (key : EntityKey) (change : ε → Option ε) :
    cache.revise key change = cache.touch key (some change) := by
  rw [revise, get_eq, touch]
  rcases cache.fetch key with error | _ | entity
  · rfl
  · rfl
  · dsimp only [Option.bind_some]
    cases change entity with
    | none => rfl
    | some changed => simp [keep, mark]

/-! ## Other keys -/

section Locality

variable (cache : Cache ε σ) {key other : EntityKey}

theorem fetch_touch_of_ne (apart : key ≠ other) (change : Option (ε → Option ε)) :
    (cache.touch key change).2.fetch other = cache.fetch other := by
  unfold touch
  rcases cache.fetch key with error | _ | entity
  · rfl
  · rfl
  · simp only [fetch, keep, OrderedMap.get?_insert_ne _ apart]

omit [EntityStore σ ε] in
theorem keep_comm (apart : key ≠ other) (entity another : ε) (changed alsoChanged : Bool) :
    (cache.keep key entity changed).keep other another alsoChanged =
      (cache.keep other another alsoChanged).keep key entity changed := by
  unfold keep
  cases changed <;> cases alsoChanged <;>
    simp [OrderedMap.insert_comm _ apart, OrderedSet.add_comm _ key other]

/-- A touch answers as if nothing had been done to another key before. -/
theorem fst_touch_touch (apart : key ≠ other) (change another : Option (ε → Option ε)) :
    ((cache.touch key change).2.touch other another).1 = (cache.touch other another).1 := by
  have same := cache.fetch_touch_of_ne apart change
  generalize (cache.touch key change).2 = touched at same ⊢
  unfold touch
  rw [same]
  rcases cache.fetch other with error | _ | entity <;> rfl

/-- Touches of two keys leave the same behind in either order. -/
theorem snd_touch_comm (apart : key ≠ other) (change another : Option (ε → Option ε)) :
    ((cache.touch key change).2.touch other another).2 =
      ((cache.touch other another).2.touch key change).2 := by
  have first := cache.fetch_touch_of_ne apart change
  have second := cache.fetch_touch_of_ne (Ne.symm apart) another
  unfold touch at *
  rw [first, second]
  rcases cache.fetch key with error | _ | entity
  · rcases cache.fetch other with error | _ | entity <;> rfl
  · rcases cache.fetch other with error | _ | entity <;> rfl
  · rcases cache.fetch other with error | _ | other
    · rfl
    · rfl
    · exact cache.keep_comm apart _ _ _ _

end Locality

end SessionServer.Cache
