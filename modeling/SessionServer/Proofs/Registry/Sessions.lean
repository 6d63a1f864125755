import SessionServer.Registry

/-!
Contract: what becomes of each session when a registry changes.

Owns:
- for each operation one equation that says what it does to every look-up, and what that makes of the
  open connections and of their identities;
- `Registry.enroll`, the two changes of a login taken together, and `Registry.Turnover`, the changes
  that a registry goes through at all;
- `Registry.Sound`: a session is fresh or authorized, its number has been given out, and no
  identity is held twice;
- the proof that every turnover keeps `Sound`.
-/

namespace SessionServer

namespace Registry

/-! ## Look-ups -/

section Lookups

variable (registry : Registry)

/-- A full registry stays as it is; another one gives out its next number. -/
theorem accept_cases :
    registry.accept = (none, registry) ∨
      ∃ opened, registry.accept = (some ⟨registry.nextNumber⟩, opened) ∧
        opened.nextNumber = registry.nextNumber + 1 ∧
        ∀ connection, opened.session? connection =
          if ⟨registry.nextNumber⟩ = connection then some .fresh
          else registry.session? connection := by
  unfold accept
  split
  · exact .inl rfl
  · refine .inr ⟨_, rfl, rfl, ?_⟩
    intro connection
    exact registry.sessions.get?_insert _ connection .fresh

theorem session?_close (closed connection : ConnectionId) :
    (registry.close closed).2.session? connection =
      if closed = connection then none else registry.session? connection :=
  registry.sessions.get?_erase closed connection

theorem session?_bind {connection : ConnectionId} {session : Session}
    (found : registry.session? connection = some session) (identity : Identity)
    (other : ConnectionId) :
    (registry.bind connection identity).2.session? other =
      if connection = other then some { session with identity := some identity }
      else (registry.session? other).map (Session.release identity) := by
  unfold bind
  rw [found]
  dsimp only [session?]
  rw [OrderedMap.get?_insert, OrderedMap.get?_mapValues]

theorem session?_setState {connection : ConnectionId} {session : Session}
    (found : registry.session? connection = some session) (state : State)
    (other : ConnectionId) :
    (registry.setState connection state).2.session? other =
      if connection = other then some { session with state := state }
      else registry.session? other := by
  unfold setState
  rw [found]
  exact registry.sessions.get?_insert connection other _

end Lookups

section Views

variable {registry : Registry} {connection : ConnectionId}

theorem contains_iff :
    registry.contains connection = true ↔ ∃ session, registry.session? connection = some session :=
  Option.isSome_iff_exists

theorem contains_of_state? {state : State} (found : registry.state? connection = some state) :
    registry.contains connection = true := by
  obtain ⟨session, known, -⟩ := Option.map_eq_some_iff.mp found
  exact contains_iff.mpr ⟨session, known⟩

theorem identity?_eq_some_iff {identity : Identity} :
    registry.identity? connection = some identity ↔
      ∃ session, registry.session? connection = some session ∧
        session.identity = some identity :=
  Option.bind_eq_some_iff

theorem session?_of_closed (closed : registry.contains connection = false) :
    registry.session? connection = none :=
  Option.isNone_iff_eq_none.mp (Option.isSome_eq_false_iff.mp closed)

theorem bind_of_closed (closed : registry.contains connection = false) (identity : Identity) :
    registry.bind connection identity = (false, registry) := by
  unfold bind
  rw [session?_of_closed closed]

theorem setState_of_closed (closed : registry.contains connection = false) (state : State) :
    registry.setState connection state = (false, registry) := by
  unfold setState
  rw [session?_of_closed closed]

/-- A connection can be bound exactly while it is open. -/
theorem bind_fst (registry : Registry) (connection : ConnectionId) (identity : Identity) :
    (registry.bind connection identity).1 = registry.contains connection := by
  unfold bind contains
  split
  · next unknown =>
      rw [unknown]
      rfl
  · next session known =>
      rw [known]
      rfl

end Views

/-! ## Who is open, and as whom -/

section Holders

variable (registry : Registry) {connection : ConnectionId}

theorem contains_setState (connection other : ConnectionId) (state : State) :
    (registry.setState connection state).2.contains other = registry.contains other := by
  cases known : registry.contains connection with
  | false => rw [setState_of_closed known]
  | true =>
      obtain ⟨session, found⟩ := contains_iff.mp known
      unfold contains
      rw [session?_setState registry found]
      split
      · next same => rw [← same, found]; rfl
      · rfl

theorem contains_bind (connection other : ConnectionId) (identity : Identity) :
    (registry.bind connection identity).2.contains other = registry.contains other := by
  cases known : registry.contains connection with
  | false => rw [bind_of_closed known]
  | true =>
      obtain ⟨session, found⟩ := contains_iff.mp known
      unfold contains
      rw [session?_bind registry found]
      split
      · next same => rw [← same, found]; rfl
      · exact Option.isSome_map

theorem nextNumber_setState (connection : ConnectionId) (state : State) :
    (registry.setState connection state).2.nextNumber = registry.nextNumber := by
  unfold setState
  split <;> rfl

theorem nextNumber_bind (connection : ConnectionId) (identity : Identity) :
    (registry.bind connection identity).2.nextNumber = registry.nextNumber := by
  unfold bind
  split <;> rfl

theorem identity?_close (closed connection : ConnectionId) :
    (registry.close closed).2.identity? connection =
      if closed = connection then none else registry.identity? connection := by
  unfold identity?
  rw [session?_close]
  split <;> rfl

theorem identity?_setState (connection other : ConnectionId) (state : State) :
    (registry.setState connection state).2.identity? other = registry.identity? other := by
  cases known : registry.contains connection with
  | false => rw [setState_of_closed known]
  | true =>
      obtain ⟨session, found⟩ := contains_iff.mp known
      unfold identity?
      rw [session?_setState registry found]
      split
      · next same => rw [← same, found]; rfl
      · rfl

variable {registry}

theorem identity?_bind (isOpen : registry.contains connection = true) (identity : Identity)
    (other : ConnectionId) :
    (registry.bind connection identity).2.identity? other =
      if connection = other then some identity
      else if registry.identity? other = some identity then none
      else registry.identity? other := by
  obtain ⟨session, found⟩ := contains_iff.mp isOpen
  unfold identity?
  rw [session?_bind registry found]
  split
  · rfl
  · cases registry.session? other with
    | none => rfl
    | some session =>
        simp only [Option.map_some, Option.bind_some, Session.release]
        split <;> rfl

end Holders

/-! ## Logins -/

/-- The registry once a connection has taken an identity and is authorized. -/
def enroll (registry : Registry) (connection : ConnectionId) (identity : Identity) : Registry :=
  ((registry.bind connection identity).2.setState connection State.authorized).2

section Enrolment

variable {registry : Registry} {connection : ConnectionId}

theorem session?_enroll (isOpen : registry.contains connection = true) (identity : Identity)
    (other : ConnectionId) :
    (registry.enroll connection identity).session? other =
      if connection = other then some ⟨State.authorized, some identity⟩
      else (registry.session? other).map (Session.release identity) := by
  obtain ⟨session, found⟩ := contains_iff.mp isOpen
  have bound : (registry.bind connection identity).2.session? connection =
      some { session with identity := some identity } := by
    rw [session?_bind registry found, if_pos rfl]
  rw [enroll, session?_setState _ bound, session?_bind registry found]
  split
  · rfl
  · rfl

theorem nextNumber_enroll (registry : Registry) (connection : ConnectionId) (identity : Identity) :
    (registry.enroll connection identity).nextNumber = registry.nextNumber := by
  rw [enroll, nextNumber_setState, nextNumber_bind]

theorem contains_enroll (registry : Registry) (connection other : ConnectionId)
    (identity : Identity) :
    (registry.enroll connection identity).contains other = registry.contains other := by
  rw [enroll, contains_setState, contains_bind]

theorem identity?_enroll (isOpen : registry.contains connection = true) (identity : Identity)
    (other : ConnectionId) :
    (registry.enroll connection identity).identity? other =
      if connection = other then some identity
      else if registry.identity? other = some identity then none
      else registry.identity? other := by
  rw [enroll, identity?_setState, identity?_bind isOpen]

/-- Whoever loses the identity stays in its state. -/
theorem state?_enroll (isOpen : registry.contains connection = true) (identity : Identity)
    (other : ConnectionId) :
    (registry.enroll connection identity).state? other =
      if connection = other then some State.authorized else registry.state? other := by
  unfold state?
  rw [session?_enroll isOpen]
  split
  · rfl
  · cases registry.session? other with
    | none => rfl
    | some session =>
        simp only [Option.map_some, Session.release]
        split <;> rfl

end Enrolment

/-! ## Soundness -/

/-- Every open connection has a number that has been given out. -/
def Numbered (registry : Registry) : Prop :=
  ∀ connection : ConnectionId,
    registry.contains connection = true → connection.number < registry.nextNumber

/-- No identity is held by two connections. -/
def Exclusive (registry : Registry) : Prop :=
  ∀ {first second : ConnectionId} {identity : Identity},
    registry.identity? first = some identity → registry.identity? second = some identity →
      first = second

/-- The sessions of a server whose only way out of the initial state is the login. -/
structure Sound (registry : Registry) : Prop where
  standing : ∀ {connection : ConnectionId} {session : Session},
    registry.session? connection = some session →
      session = .fresh ∨ session.state = State.authorized
  numbered : ∀ {connection : ConnectionId},
    registry.contains connection = true → connection.number < registry.nextNumber
  exclusive : registry.Exclusive

section Numbers

variable {registry : Registry}

theorem Numbered.of_le {after : Registry} (numbered : registry.Numbered)
    (kept : ∀ connection : ConnectionId,
      after.contains connection = true → registry.contains connection = true)
    (next : registry.nextNumber ≤ after.nextNumber) : after.Numbered :=
  fun connection isOpen => Nat.lt_of_lt_of_le (numbered connection (kept connection isOpen)) next

theorem Numbered.accept (numbered : registry.Numbered) : registry.accept.2.Numbered := by
  rcases registry.accept_cases with full | ⟨opened, answer, next, sessions⟩
  · rw [full]
    exact numbered
  · rw [answer]
    intro connection isOpen
    rw [next]
    obtain ⟨session, found⟩ := contains_iff.mp isOpen
    rw [sessions] at found
    split at found
    · next same =>
        rw [← same]
        exact Nat.lt_succ_self _
    · exact Nat.lt_succ_of_lt (numbered connection (contains_iff.mpr ⟨session, found⟩))

theorem Numbered.close (numbered : registry.Numbered) (closed : ConnectionId) :
    (registry.close closed).2.Numbered := by
  refine numbered.of_le ?_ (Nat.le_refl _)
  intro connection isOpen
  obtain ⟨session, found⟩ := contains_iff.mp isOpen
  rw [session?_close] at found
  split at found
  · cases found
  · exact contains_iff.mpr ⟨session, found⟩

/-- Nothing is known under the number that is given out next. -/
theorem Numbered.session?_next (numbered : registry.Numbered) :
    registry.session? ⟨registry.nextNumber⟩ = none := by
  cases found : registry.session? ⟨registry.nextNumber⟩ with
  | none => rfl
  | some session =>
      exact absurd (numbered _ (contains_iff.mpr ⟨session, found⟩)) (Nat.lt_irrefl _)

/-- A new connection has no identity. -/
theorem identity?_accept (numbered : registry.Numbered) (connection : ConnectionId) :
    registry.accept.2.identity? connection = registry.identity? connection := by
  rcases registry.accept_cases with full | ⟨opened, answer, -, sessions⟩
  · rw [full]
  · rw [answer]
    unfold identity?
    rw [sessions]
    split
    · next same =>
        rw [← same, numbered.session?_next]
        rfl
    · rfl

end Numbers

theorem Exclusive.of_le {before after : Registry} (exclusive : before.Exclusive)
    (kept : ∀ {connection : ConnectionId} {identity : Identity},
      after.identity? connection = some identity → before.identity? connection = some identity) :
    after.Exclusive :=
  fun first second => exclusive (kept first) (kept second)

/-- Whoever else held the new identity of a connection is released from it. -/
theorem Exclusive.bind {registry : Registry} (exclusive : registry.Exclusive)
    {connection : ConnectionId} (isOpen : registry.contains connection = true)
    (identity : Identity) : (registry.bind connection identity).2.Exclusive := by
  intro first second common firstHeld secondHeld
  rw [identity?_bind isOpen] at firstHeld secondHeld
  split at firstHeld <;> split at secondHeld
  · next firstSame secondSame => exact firstSame.symm.trans secondSame
  · cases firstHeld
    split at secondHeld
    · cases secondHeld
    · next apart => exact absurd secondHeld apart
  · cases secondHeld
    split at firstHeld
    · cases firstHeld
    · next apart => exact absurd firstHeld apart
  · split at firstHeld
    · cases firstHeld
    · split at secondHeld
      · cases secondHeld
      · exact exclusive firstHeld secondHeld

/-- The holder of an identity is the one connection that has it. -/
theorem holder?_eq_some_iff {registry : Registry} (exclusive : registry.Exclusive)
    {identity : Identity} {connection : ConnectionId} :
    registry.holder? identity = some connection ↔
      registry.identity? connection = some identity := by
  have sound : ∀ {holder : ConnectionId}, registry.holder? identity = some holder →
      registry.identity? holder = some identity := by
    intro holder found
    obtain ⟨entry, search, rfl⟩ := Option.map_eq_some_iff.mp found
    have held := List.find?_some search
    rw [decide_eq_true_iff] at held
    have listed := registry.sessions.get?_eq_some_iff.mpr (List.mem_of_find?_eq_some search)
    exact identity?_eq_some_iff.mpr ⟨entry.2, listed, held⟩
  refine ⟨sound, ?_⟩
  intro held
  cases found : registry.holder? identity with
  | some holder => rw [exclusive (sound found) held]
  | none =>
      obtain ⟨session, listed, bound⟩ := identity?_eq_some_iff.mp held
      have search := List.find?_eq_none.mp (Option.map_eq_none_iff.mp found)
      have missed := search _ (registry.sessions.get?_eq_some_iff.mp listed)
      exact absurd (decide_eq_true bound) missed

theorem sound_fresh (capacity : Nat) : Sound { capacity } where
  standing found := by cases found
  numbered isOpen := by cases isOpen
  exclusive found := by cases found

section Changes

variable {registry : Registry}

theorem Sound.toNumbered (sound : registry.Sound) : registry.Numbered := fun _ => sound.numbered

theorem Sound.session?_of_none (sound : registry.Sound) {connection : ConnectionId}
    (state : registry.state? connection = some State.none) :
    registry.session? connection = some .fresh := by
  obtain ⟨session, found, none⟩ := Option.map_eq_some_iff.mp state
  rcases sound.standing found with rfl | authorized
  · exact found
  · rw [authorized] at none
    exact absurd none (by decide)

theorem Sound.accept (sound : registry.Sound) : registry.accept.2.Sound := by
  refine ⟨?_, sound.toNumbered.accept _, ?_⟩
  · intro connection session found
    rcases registry.accept_cases with full | ⟨opened, answer, -, sessions⟩
    · rw [full] at found
      exact sound.standing found
    · rw [answer, sessions] at found
      split at found
      · cases found
        exact .inl rfl
      · exact sound.standing found
  · apply Exclusive.of_le sound.exclusive
    intro connection identity held
    rwa [identity?_accept sound.toNumbered] at held

theorem Sound.close (sound : registry.Sound) (closed : ConnectionId) :
    (registry.close closed).2.Sound := by
  refine ⟨?_, sound.toNumbered.close closed _, ?_⟩
  · intro connection session found
    rw [session?_close] at found
    split at found
    · cases found
    · exact sound.standing found
  · apply Exclusive.of_le sound.exclusive
    intro connection identity held
    rw [identity?_close] at held
    split at held
    · cases held
    · exact held

theorem Sound.enroll (sound : registry.Sound) {connection : ConnectionId}
    (isOpen : registry.contains connection = true) (identity : Identity) :
    (registry.enroll connection identity).Sound := by
  refine ⟨?_, ?_, ?_⟩
  · intro other session found
    rw [session?_enroll isOpen] at found
    split at found
    · cases found
      exact .inr rfl
    · obtain ⟨before, known, rfl⟩ := Option.map_eq_some_iff.mp found
      rcases sound.standing known with rfl | authorized
      · exact .inl rfl
      · refine .inr ?_
        unfold Session.release
        split <;> exact authorized
  · intro other known
    rw [contains_enroll] at known
    rw [nextNumber_enroll]
    exact sound.numbered known
  · apply Exclusive.of_le (Exclusive.bind sound.exclusive isOpen identity)
    intro other common held
    rwa [Registry.enroll, identity?_setState] at held

end Changes

/-! ## Turnover -/

/-- What a single step can do to a registry, with the login that it is, if it is one. -/
inductive Turnover (before after : Registry) : Option (ConnectionId × Identity) → Prop where
  | kept (same : after = before) : Turnover before after none
  | opened (accepted : after = before.accept.2) : Turnover before after none
  | closed (connection : ConnectionId) (shut : after = (before.close connection).2) :
      Turnover before after none
  | enrolled (connection : ConnectionId) (identity : Identity)
      (isOpen : before.contains connection = true)
      (enrolled : after = before.enroll connection identity) :
      Turnover before after (some (connection, identity))

namespace Turnover

variable {before after : Registry} {login : Option (ConnectionId × Identity)}

theorem sound (turnover : Turnover before after login) (sound : before.Sound) : after.Sound := by
  cases turnover with
  | kept same => exact same ▸ sound
  | opened accepted => exact accepted ▸ sound.accept
  | closed connection shut => exact shut ▸ sound.close connection
  | enrolled connection identity isOpen enrolled => exact enrolled ▸ sound.enroll isOpen identity

theorem nextNumber_le (turnover : Turnover before after login) :
    before.nextNumber ≤ after.nextNumber := by
  cases turnover with
  | kept same => exact Nat.le_of_eq (congrArg nextNumber same.symm)
  | opened accepted =>
      rw [accepted]
      rcases before.accept_cases with full | ⟨opened, answer, next, -⟩
      · exact Nat.le_of_eq (congrArg (fun answer => nextNumber answer.2) full).symm
      · rw [answer, next]
        exact Nat.le_succ _
  | closed connection shut =>
      subst shut
      exact Nat.le_refl before.nextNumber
  | enrolled connection identity isOpen enrolled =>
      exact Nat.le_of_eq ((congrArg nextNumber enrolled).trans (nextNumber_enroll _ _ _)).symm

/-- Without a login a session is as it was, or has just been opened under a new number. -/
theorem session?_of_no_login (turnover : Turnover before after login) (apart : login = none)
    {connection : ConnectionId} {session : Session}
    (found : after.session? connection = some session) :
    before.session? connection = some session ∨
      session = .fresh ∧ connection.number = before.nextNumber := by
  cases turnover with
  | kept same => exact .inl (same ▸ found)
  | opened accepted =>
      rw [accepted] at found
      rcases before.accept_cases with full | ⟨opened, answer, -, sessions⟩
      · rw [full] at found
        exact .inl found
      · rw [answer, sessions] at found
        split at found
        · next same =>
            cases found
            exact .inr ⟨rfl, (congrArg ConnectionId.number same).symm⟩
        · exact .inl found
  | closed closed shut =>
      rw [shut, session?_close] at found
      split at found
      · cases found
      · exact .inl found
  | enrolled connection identity isOpen enrolled => cases apart

end Turnover

end Registry

end SessionServer
