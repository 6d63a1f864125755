import SessionServer.Proofs.Registry.Binding

/-!
Contract: the life of a session, from the number under which it is opened to its end.

Owns:
- `Registry.opened`, the connections that have been opened, and `Registry.Departed`, a connection
  that has been open and never will be again;
- the proof that a registry holds no more sessions than its capacity, whatever is asked of it;
- the theorem that numbers are given out one after the other, each once, and that a connection which
  has been closed is unknown to everything that is asked later.

Does not own: who holds which identity, which is in `Proofs.Registry.Binding`.
-/

namespace SessionServer.Registry

/-! ## Histories -/

/-- The connection that an operation has opened. -/
def Event.opened? (event : Event) : Option ConnectionId :=
  match event.step with
  | .accept => event.before.accept.1
  | _ => none

/-- The connections that have been opened, in order. -/
def opened (history : List Event) : List ConnectionId := history.filterMap Event.opened?

/-- The operation is the end of the session of a connection. -/
def Closes (connection : ConnectionId) (event : Event) : Prop :=
  event.step = .close connection ∧ event.before.contains connection = true

theorem opened_snoc (history : List Event) (event : Event) :
    opened (history ++ [event]) = opened history ++ event.opened?.toList := by
  cases opens : event.opened? <;> simp [opened, opens]

/-! ## Capacity -/

section Capacity

variable (registry : Registry)

theorem accept_of_full (full : registry.capacity ≤ registry.size) :
    registry.accept = (none, registry) :=
  if_pos full

theorem fst_accept_of_room (room : registry.size < registry.capacity) :
    registry.accept.1 = some ⟨registry.nextNumber⟩ := by
  unfold accept
  rw [if_neg (Nat.not_le.mpr room)]

theorem capacity_perform (operation : Operation) :
    (registry.perform operation).capacity = registry.capacity := by
  cases operation with
  | accept =>
      show registry.accept.2.capacity = registry.capacity
      unfold accept
      split <;> rfl
  | close connection => rfl
  | setState connection state =>
      show (registry.setState connection state).2.capacity = registry.capacity
      unfold setState
      split <;> rfl
  | bind connection identity =>
      show (registry.bind connection identity).2.capacity = registry.capacity
      unfold bind
      split <;> rfl

/-- Only a registry with room for it gets another session. -/
theorem size_perform_le (bounded : registry.size ≤ registry.capacity) (operation : Operation) :
    (registry.perform operation).size ≤ registry.capacity := by
  cases operation with
  | accept =>
      show registry.accept.2.size ≤ registry.capacity
      unfold accept
      split
      · exact bounded
      · next room =>
          show (registry.sessions.insert _ _).size ≤ registry.capacity
          rw [OrderedMap.size_insert]
          unfold size at room
          split <;> omega
  | close connection =>
      exact Nat.le_trans (registry.sessions.size_erase_le connection) bounded
  | setState connection state =>
      show (registry.setState connection state).2.size ≤ registry.capacity
      unfold setState
      split
      · exact bounded
      · next session found =>
          have known : registry.sessions.contains connection = true :=
            contains_iff.mpr ⟨session, found⟩
          show (registry.sessions.insert _ _).size ≤ registry.capacity
          rw [OrderedMap.size_insert, if_pos known]
          exact bounded
  | bind connection identity =>
      show (registry.bind connection identity).2.size ≤ registry.capacity
      unfold bind
      split
      · exact bounded
      · next session found =>
          have known : registry.sessions.contains connection = true :=
            contains_iff.mpr ⟨session, found⟩
          show ((registry.sessions.mapValues _).insert _ _).size ≤ registry.capacity
          rw [OrderedMap.size_insert, OrderedMap.contains_mapValues, if_pos known,
            OrderedMap.size_mapValues]
          exact bounded

end Capacity

/-! ## Numbers -/

/-- Numbers are counted up by the connections that are opened and by nothing else. -/
theorem nextNumber_perform (registry : Registry) (operation : Operation) :
    (registry.perform operation).nextNumber = registry.nextNumber +
      (Event.opened? ⟨registry, operation, registry.perform operation⟩).toList.length := by
  cases operation with
  | accept =>
      show registry.accept.2.nextNumber = registry.nextNumber + registry.accept.1.toList.length
      rcases registry.accept_cases with full | ⟨opened, answer, next, -⟩
      · rw [full]
        rfl
      · rw [answer, next]
        rfl
  | close connection => rfl
  | setState connection state => exact registry.nextNumber_setState connection state
  | bind connection identity => exact registry.nextNumber_bind connection identity

/-- A connection that is opened has the next number. -/
theorem number_of_opened? {registry : Registry} {operation : Operation} {connection : ConnectionId}
    (opens : Event.opened? ⟨registry, operation, registry.perform operation⟩ = some connection) :
    connection = ⟨registry.nextNumber⟩ := by
  cases operation with
  | accept =>
      rcases registry.accept_cases with full | ⟨opened, answer, -⟩
      · rw [Event.opened?, full] at opens
        cases opens
      · rw [Event.opened?, answer] at opens
        exact (Option.some.inj opens).symm
  | close connection => cases opens
  | setState connection state => cases opens
  | bind connection identity => cases opens

/-- A session is live after an operation if it has just been started, or if it was live before and
has not been ended. -/
theorem contains_perform (registry : Registry) (operation : Operation)
    (connection : ConnectionId) :
    (registry.perform operation).contains connection = true ↔
      Event.opened? ⟨registry, operation, registry.perform operation⟩ = some connection ∨
        registry.contains connection = true ∧ operation ≠ .close connection := by
  cases operation with
  | accept =>
      show registry.accept.2.contains connection = true ↔
        registry.accept.1 = some connection ∨ registry.contains connection = true ∧ _
      rcases registry.accept_cases with full | ⟨after, answer, -, sessions⟩
      · simp [full]
      · simp only [answer, contains, sessions, Option.some.injEq]
        by_cases same : ⟨registry.nextNumber⟩ = connection <;> simp [same]
  | close closed =>
      show (registry.close closed).2.contains connection = true ↔ none = some connection ∨ _
      simp only [contains, session?_close]
      by_cases same : closed = connection <;> simp [same]
  | setState changed state =>
      show (registry.setState changed state).2.contains connection = true ↔
        none = some connection ∨ _
      simp [contains_setState]
  | bind bound identity =>
      show (registry.bind bound identity).2.contains connection = true ↔
        none = some connection ∨ _
      simp [contains_bind]

/-! ## Departures -/

/-- The number of the connection has been given out, and its session has ended. -/
structure Departed (registry : Registry) (connection : ConnectionId) : Prop where
  missing : registry.session? connection = none
  given : connection.number < registry.nextNumber

section Departures

variable {registry : Registry} {connection : ConnectionId}

theorem Departed.not_contains (departed : registry.Departed connection) :
    registry.contains connection = false := by
  rw [contains, departed.missing]
  rfl

theorem Departed.perform (departed : registry.Departed connection) (operation : Operation) :
    (registry.perform operation).Departed connection := by
  have given : connection.number < (registry.perform operation).nextNumber := by
    rw [nextNumber_perform]
    exact Nat.lt_add_right _ departed.given
  refine ⟨?_, given⟩
  cases operation with
  | accept =>
      show registry.accept.2.session? connection = none
      rcases registry.accept_cases with full | ⟨opened, answer, -, sessions⟩
      · rw [full]
        exact departed.missing
      · rw [answer, sessions, if_neg, departed.missing]
        rintro rfl
        exact Nat.lt_irrefl _ departed.given
  | close closed =>
      show (registry.close closed).2.session? connection = none
      rw [session?_close, departed.missing, ite_self]
  | setState changed state =>
      apply session?_of_closed
      show (registry.setState changed state).2.contains connection = false
      rw [contains_setState]
      exact departed.not_contains
  | bind bound identity =>
      apply session?_of_closed
      show (registry.bind bound identity).2.contains connection = false
      rw [contains_bind]
      exact departed.not_contains

/-- The end of a session is a departure. -/
theorem Numbered.departed_of_close (numbered : registry.Numbered)
    (isOpen : registry.contains connection = true) :
    (registry.close connection).2.Departed connection where
  missing := by rw [session?_close, if_pos rfl]
  given := numbered connection isOpen

/-- Nothing is known of a connection, and nothing that is asked about it changes anything. -/
structure Unknown (registry : Registry) (connection : ConnectionId) : Prop where
  contains : registry.contains connection = false
  session : registry.session? connection = none
  state : registry.state? connection = none
  identity : registry.identity? connection = none
  holder : ∀ identity, registry.holder? identity ≠ some connection
  setState : ∀ state, registry.setState connection state = (false, registry)
  bind : ∀ identity, registry.bind connection identity = (false, registry)
  close : registry.close connection = (none, registry)

theorem Orderly.unknown_of_missing (orderly : registry.Orderly)
    (missing : registry.session? connection = none) : registry.Unknown connection := by
  have closed : registry.contains connection = false := by
    rw [Registry.contains, missing]
    rfl
  have nameless : registry.identity? connection = none := by
    rw [identity?, missing]
    rfl
  refine ⟨closed, missing, ?_, nameless, ?_, setState_of_closed closed, bind_of_closed closed, ?_⟩
  · rw [state?, missing]
    rfl
  · intro identity holds
    rw [(holder?_eq_some_iff orderly.exclusive).mp holds] at nameless
    cases nameless
  · rw [Registry.close, missing, OrderedMap.erase_of_missing missing]

end Departures

/-! ## The life of a session -/

/-- What is true of a registry with a history behind it. -/
structure Lifecycle (capacity : Nat) (history : List Event) (registry : Registry) : Prop where
  bounded : registry.size ≤ capacity
  /-- The connections opened so far are numbered from one, and a word of 64 bits holds the next
  number for as long as there are not more of them than it can count. -/
  numbers : opened history = (List.range (opened history).length).map fun earlier => ⟨earlier + 1⟩
  fits : (opened history).length < UInt64.size - 1 → registry.nextNumber < UInt64.size
  refused : registry.accept.1 = none ↔ registry.size = capacity
  unchanged : registry.accept.1 = none → registry.accept.2 = registry
  /-- A new connection is behind all earlier ones and has a fresh session. -/
  accepted : ∀ connection, registry.accept.1 = some connection →
    (∀ earlier ∈ opened history, earlier.number < connection.number) ∧
      registry.session? connection = none ∧
      registry.accept.2.session? connection = some ⟨State.none, none⟩ ∧
      ∀ other, other ≠ connection →
        registry.accept.2.session? other = registry.session? other
  ended : ∀ connection,
    (registry.close connection).1 = registry.session? connection ∧
      (registry.close connection).2.session? connection = none ∧
      ∀ other, other ≠ connection →
        (registry.close connection).2.session? other = registry.session? other
  /-- A session that has once been ended is unknown for good. -/
  departed : ∀ connection, (∃ event ∈ history, Closes connection event) →
    registry.Unknown connection

section Runs

variable (capacity : Nat)

theorem bounded_run (operations : List Operation) :
    (machine.run { capacity } operations).capacity = capacity ∧
      (machine.run { capacity } operations).size ≤ capacity := by
  refine Machine.run_invariant (fun registry : Registry => registry.capacity = capacity ∧
    registry.size ≤ capacity) ⟨rfl, Nat.zero_le _⟩ ?_ operations
  rintro registry operation ⟨rfl, bounded⟩
  exact ⟨registry.capacity_perform operation, registry.size_perform_le bounded operation⟩

theorem numbers_run (operations : List Operation) :
    let history := machine.trace { capacity } operations
    (machine.run { capacity } operations).nextNumber = (opened history).length + 1 ∧
      opened history = (List.range (opened history).length).map fun earlier => ⟨earlier + 1⟩ := by
  refine Machine.run_induction (fun history registry =>
    registry.nextNumber = (opened history).length + 1 ∧
      opened history = (List.range (opened history).length).map fun earlier => ⟨earlier + 1⟩)
    ⟨rfl, rfl⟩ ?_ operations
  rintro history registry operation ⟨counted, numbers⟩
  have next := registry.nextNumber_perform operation
  rw [opened_snoc, List.length_append]
  refine ⟨?_, ?_⟩
  · show (registry.perform operation).nextNumber = _
    rw [next, counted]
    exact Nat.add_right_comm _ _ _
  · cases opens : Event.opened? ⟨registry, operation, machine.apply registry operation⟩ with
    | none => simpa using numbers
    | some connection =>
        have number : connection = ⟨registry.nextNumber⟩ := number_of_opened? opens
        rw [Option.toList_some, List.length_singleton, List.range_succ, List.map_append, ← numbers,
          number, counted]
        rfl

theorem departed_run (operations : List Operation) (connection : ConnectionId)
    (closed : ∃ event ∈ machine.trace { capacity } operations, Closes connection event) :
    (machine.run { capacity } operations).Departed connection := by
  induction operations using List.reverseRecOn with
  | nil =>
      obtain ⟨_, member, -⟩ := closed
      cases member
  | append_singleton operations last inductionHypothesis =>
      obtain ⟨event, member, closes⟩ := closed
      rw [Machine.trace_append] at member
      rw [Machine.run_append]
      rcases List.mem_append.mp member with earlier | now
      · exact (inductionHypothesis ⟨event, earlier, closes⟩).perform last
      · obtain rfl := List.mem_singleton.mp now
        obtain ⟨rfl, isOpen⟩ := closes
        exact (orderly_run operations).numbered.departed_of_close isOpen

end Runs

/-- After any operations a registry holds no more sessions than it may. It refuses a connection
exactly when it is full, and otherwise opens a fresh session under a number behind all earlier ones.
A session is ended and handed back as it was, and from then on nothing that names its connection
finds or changes anything. -/
theorem sessions_live_once (capacity : Nat) (operations : List Operation) :
    Lifecycle capacity (machine.trace { capacity } operations)
      (machine.run { capacity } operations) := by
  have orderly : (machine.run { capacity } operations).Orderly := orderly_run operations
  obtain ⟨limit, bounded⟩ := bounded_run capacity operations
  obtain ⟨counted, numbers⟩ := numbers_run capacity operations
  have departed := departed_run capacity operations
  generalize machine.run { capacity } operations = registry at *
  generalize machine.trace { capacity } operations = history at *
  have refused : registry.accept.1 = none ↔ registry.size = capacity := by
    rcases Nat.lt_or_ge registry.size registry.capacity with room | full
    · rw [registry.fst_accept_of_room room]
      exact iff_of_false nofun (Nat.ne_of_lt (limit ▸ room))
    · rw [registry.accept_of_full full]
      exact iff_of_true rfl (Nat.le_antisymm bounded (limit ▸ full))
  refine ⟨bounded, numbers, ?_, refused, ?_, ?_, ?_, ?_⟩
  · intro few
    omega
  · intro none
    rw [registry.accept_of_full (Nat.le_of_eq (limit.trans (refused.mp none).symm))]
  · intro connection answer
    rcases registry.accept_cases with full | ⟨after, accepted, -, sessions⟩
    · rw [full] at answer
      cases answer
    · rw [accepted] at answer ⊢
      obtain rfl := Option.some.inj answer
      refine ⟨?_, orderly.numbered.session?_next, ?_, ?_⟩
      · intro earlier member
        rw [numbers] at member
        obtain ⟨index, below, rfl⟩ := List.mem_map.mp member
        have := List.mem_range.mp below
        show index + 1 < registry.nextNumber
        omega
      · rw [sessions, if_pos rfl]
        rfl
      · intro other apart
        rw [sessions, if_neg (Ne.symm apart)]
  · intro connection
    refine ⟨rfl, ?_, ?_⟩
    · rw [session?_close, if_pos rfl]
    · intro other apart
      rw [session?_close, if_neg (Ne.symm apart)]
  · intro connection closed
    exact orderly.unknown_of_missing (departed connection closed).missing

end SessionServer.Registry
