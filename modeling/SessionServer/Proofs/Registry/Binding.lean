import SessionServer.Proofs.Machine
import SessionServer.Proofs.Registry.Sessions

/-!
Contract: who holds an identity, told from what has been asked of the registry.

Owns:
- `Registry.Operation`, what can be asked of a registry, and `Registry.machine`, which does it;
- `Registry.LastBound`, the last bind of an identity as far as nothing has undone it;
- the theorem that after any operations the holder of an identity is the connection that it was last
  bound to, in whatever order the sessions are searched.
-/

namespace SessionServer.Registry

/-! ## Histories -/

/-- What can be asked of a registry. -/
inductive Operation where
  | accept
  | close (connection : ConnectionId)
  | setState (connection : ConnectionId) (state : State)
  | bind (connection : ConnectionId) (identity : Identity)

def perform (registry : Registry) : Operation → Registry
  | .accept => registry.accept.2
  | .close connection => (registry.close connection).2
  | .setState connection state => (registry.setState connection state).2
  | .bind connection identity => (registry.bind connection identity).2

def machine : Machine Registry Operation := ⟨perform⟩

/-- An operation on a registry with the registries before and after it. -/
abbrev Event := Occurrence Registry Operation

/-- A bind that the registry has answered with success. -/
def Binds (connection : ConnectionId) (identity : Identity) (event : Event) : Prop :=
  event.step = .bind connection identity ∧ (event.before.bind connection identity).1 = true

/-- What undoes the bind of a connection to an identity: a bind of the identity to any connection, a
bind of the connection to another identity, or the end of the connection. -/
def Unbinds (connection : ConnectionId) (identity : Identity) (event : Event) : Prop :=
  (∃ other, Binds other identity event) ∨
    (∃ other, other ≠ identity ∧ Binds connection other event) ∨
    event.step = .close connection

/-- The connection was the last one to be bound to the identity, and has since neither been closed
nor been bound to another one. -/
def LastBound (history : List Event) (connection : ConnectionId) (identity : Identity) : Prop :=
  Since (Binds connection identity) (Unbinds connection identity) history

/-! ## Single operations -/

section Steps

variable {registry : Registry} {connection : ConnectionId} {identity : Identity}

theorem Numbered.perform (numbered : registry.Numbered) (operation : Operation) :
    (registry.perform operation).Numbered := by
  cases operation with
  | accept => exact numbered.accept
  | close closed => exact numbered.close closed
  | setState changed state =>
      refine numbered.of_le ?_ (Nat.le_of_eq (registry.nextNumber_setState changed state).symm)
      intro connection isOpen
      rwa [Registry.perform, contains_setState] at isOpen
  | bind bound identity =>
      refine numbered.of_le ?_ (Nat.le_of_eq (registry.nextNumber_bind bound identity).symm)
      intro connection isOpen
      rwa [Registry.perform, contains_bind] at isOpen

/-- What every operation keeps: numbers are given out once, and identities are exclusive. -/
structure Orderly (registry : Registry) : Prop where
  numbered : registry.Numbered
  exclusive : registry.Exclusive

theorem Orderly.perform (orderly : registry.Orderly) (operation : Operation) :
    (registry.perform operation).Orderly := by
  refine ⟨orderly.numbered.perform operation, ?_⟩
  cases operation with
  | accept =>
      apply Exclusive.of_le orderly.exclusive
      intro connection identity held
      rwa [Registry.perform, identity?_accept orderly.numbered] at held
  | close closed =>
      apply Exclusive.of_le orderly.exclusive
      intro connection identity held
      rw [Registry.perform, identity?_close] at held
      split at held
      · cases held
      · exact held
  | setState changed state =>
      apply Exclusive.of_le orderly.exclusive
      intro connection identity held
      rwa [Registry.perform, identity?_setState] at held
  | bind bound identity =>
      cases isOpen : registry.contains bound with
      | true => exact Exclusive.bind orderly.exclusive isOpen identity
      | false =>
          rw [Registry.perform, bind_of_closed isOpen]
          exact orderly.exclusive

theorem binds_iff {operation : Operation} {after : Registry} :
    Binds connection identity ⟨registry, operation, after⟩ ↔
      operation = .bind connection identity ∧ registry.contains connection = true := by
  unfold Binds
  rw [bind_fst]

theorem unbinds_iff {operation : Operation} {after : Registry} :
    Unbinds connection identity ⟨registry, operation, after⟩ ↔
      (∃ other, operation = .bind other identity ∧ registry.contains other = true) ∨
        (∃ other, other ≠ identity ∧ operation = .bind connection other ∧
          registry.contains connection = true) ∨
        operation = .close connection := by
  unfold Unbinds
  simp only [binds_iff]

/-- A connection has an identity after an operation if it has just been bound to it, or if it had it
before and has not been unbound. -/
theorem identity?_perform (numbered : registry.Numbered) (operation : Operation)
    (connection : ConnectionId) (identity : Identity) :
    (registry.perform operation).identity? connection = some identity ↔
      Binds connection identity ⟨registry, operation, registry.perform operation⟩ ∨
        registry.identity? connection = some identity ∧
          ¬Unbinds connection identity ⟨registry, operation, registry.perform operation⟩ := by
  rw [binds_iff, unbinds_iff]
  cases operation with
  | accept =>
      rw [perform, identity?_accept numbered]
      simp
  | close closed =>
      rw [perform, identity?_close]
      by_cases same : closed = connection <;> simp [same]
  | setState changed state =>
      rw [perform, identity?_setState]
      simp
  | bind bound account =>
      cases isOpen : registry.contains bound with
      | false =>
          rw [perform, bind_of_closed isOpen]
          have silent : ∀ other taken, ¬(Operation.bind bound account = .bind other taken ∧
              registry.contains other = true) := by
            rintro other taken ⟨same, known⟩
            cases same
            rw [isOpen] at known
            cases known
          simp only [silent, and_false, exists_false, reduceCtorEq, or_false, false_or,
            not_false_eq_true, and_true]
      | true =>
          rw [perform, identity?_bind isOpen]
          by_cases same : bound = connection
          · subst same
            by_cases agree : account = identity <;> simp [isOpen, agree]
          · by_cases agree : account = identity
            · subst agree
              simp [same, isOpen]
            · have other : registry.identity? connection = some identity →
                  registry.identity? connection ≠ some account := by
                intro held taken
                exact agree (Option.some.inj (taken.symm.trans held))
              simpa [same, agree] using other

end Steps

/-! ## Whole histories -/

section Runs

variable {capacity : Nat}

theorem orderly_run (operations : List Operation) :
    (machine.run { capacity } operations).Orderly := by
  refine Machine.run_invariant Orderly ?_ ?_ operations
  · exact ⟨fun _ isOpen => (by cases isOpen), fun held => (by cases held)⟩
  · intro registry operation orderly
    exact orderly.perform operation

/-- The identity of a connection is the one that it was last bound to. -/
theorem identity?_run (operations : List Operation) (connection : ConnectionId)
    (identity : Identity) :
    (machine.run { capacity } operations).identity? connection = some identity ↔
      LastBound (machine.trace { capacity } operations) connection identity := by
  refine Machine.since_run
    (fun registry : Registry => registry.identity? connection = some identity)
    (fun held => by cases held) ?_ operations
  intro earlier last
  have orderly : (machine.run { capacity } earlier).Orderly := orderly_run earlier
  exact identity?_perform orderly.numbered last connection identity

end Runs

/-! ## The order of the search -/

/-- Where identities are exclusive, a search through the sessions in any order finds the holder. -/
theorem find?_perm {registry : Registry} (exclusive : registry.Exclusive) (identity : Identity)
    {entries : List (ConnectionId × Session)} (order : entries.Perm registry.sessions.toList) :
    (entries.find? fun entry => entry.2.identity = some identity).map Prod.fst =
      registry.holder? identity := by
  have holds : ∀ entry ∈ entries, entry.2.identity = some identity →
      registry.holder? identity = some entry.1 := by
    intro entry member bound
    have listed := registry.sessions.get?_eq_some_iff.mpr (order.mem_iff.mp member)
    exact (holder?_eq_some_iff exclusive).mpr
      (identity?_eq_some_iff.mpr ⟨entry.2, listed, bound⟩)
  cases search : entries.find? fun entry => entry.2.identity = some identity with
  | some entry =>
      have bound : entry.2.identity = some identity := by simpa using List.find?_some search
      exact (holds entry (List.mem_of_find?_eq_some search) bound).symm
  | none =>
      cases held : registry.holder? identity with
      | none => rfl
      | some holder =>
          obtain ⟨session, listed, bound⟩ :=
            identity?_eq_some_iff.mp ((holder?_eq_some_iff exclusive).mp held)
          have member := order.mem_iff.mpr (registry.sessions.get?_eq_some_iff.mp listed)
          exact absurd (decide_eq_true bound) (List.find?_eq_none.mp search _ member)

/-! ## The last bind wins -/

/-- After any operations an identity is held by the connection that it was last bound to, unless
that connection has since been closed or bound to another identity. Nobody else holds it, and the
holder is found in whatever order the sessions are searched. -/
theorem last_bind_wins (capacity : Nat) (operations : List Operation) :
    let registry := machine.run { capacity } operations
    let history := machine.trace { capacity } operations
    (∀ identity connection, registry.holder? identity = some connection ↔
        LastBound history connection identity) ∧
      (∀ identity connection, registry.holder? identity = some connection ↔
        registry.identity? connection = some identity) ∧
      (∀ first second identity, registry.identity? first = some identity →
        registry.identity? second = some identity → first = second) ∧
      ∀ identity (entries : List (ConnectionId × Session)),
        entries.Perm registry.sessions.toList →
          (entries.find? fun entry => entry.2.identity = some identity).map Prod.fst =
            registry.holder? identity := by
  intro registry history
  have orderly : registry.Orderly := orderly_run operations
  have holds : ∀ identity connection, registry.holder? identity = some connection ↔
      registry.identity? connection = some identity :=
    fun _ _ => holder?_eq_some_iff orderly.exclusive
  refine ⟨?_, holds, fun _ _ _ => orderly.exclusive, ?_⟩
  · intro identity connection
    exact (holds identity connection).trans (identity?_run operations connection identity)
  · intro identity entries order
    exact find?_perm orderly.exclusive identity order

/-- A bind of an unknown connection takes an identity from nobody. -/
example : (machine.run { capacity := 4 }
    [.accept, .accept, .bind ⟨1⟩ 7, .bind ⟨2⟩ 7, .bind ⟨9⟩ 7]).holder? 7 = some ⟨2⟩ := by
  decide

end SessionServer.Registry
