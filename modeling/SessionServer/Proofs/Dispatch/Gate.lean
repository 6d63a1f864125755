import SessionServer.Server

/-!
Contract: the way of an inbound text to its handler.

Owns:
- the three ways in which a dispatch can go;
- `Server.Passage`, the six ways in which a text can go;
- `Server.Gated`, what a text has to pass before a handler is called and what each failure leaves
  behind, and the proof that every text has to, whatever the table serves.

The follower is any: the answer to a text that passes is what following one procedure comes to, and
nothing is followed for any other text.
-/

namespace SessionServer

theorem AllowedStates.permits_ofList_eq_false_iff {states : List State} {state : State} :
    (ofList states).permits state = false ↔ states ≠ [] ∧ state ∉ states := by
  rw [permits_ofList, Bool.or_eq_false_iff, List.isEmpty_eq_false_iff, List.contains_eq_mem,
    decide_eq_false_iff_not]

namespace Server

variable {μ : Type} {table : Table μ}

/-! ## Dispatch -/

section Dispatch

variable (follower : Follower μ) (server : Server μ) {code : Code} {state : State}
  (connection : ConnectionId) (args : Args)

/-- What the caller of a handler makes of the way in which it ended. -/
def concluded (code : Code) : Ending × Server μ → Option FrameOutcome × Server μ
  | (.aborted, server) => (none, server)
  | (_, server) => (some (.handled code), server)

theorem dispatch_of_unknown (unknown : table.get? code = none) :
    dispatch table follower server code state connection args =
      (some (.unknownCode code), server) := by
  unfold dispatch
  rw [unknown]

theorem dispatch_of_forbidden {entry : Entry μ} (found : table.get? code = some entry)
    (forbidden : entry.allowed.permits state = false) :
    dispatch table follower server code state connection args =
      (some (.rejected code state), server) := by
  unfold dispatch
  rw [found]
  exact if_neg (Bool.eq_false_iff.mp forbidden)

theorem dispatch_of_permitted {entry : Entry μ} (found : table.get? code = some entry)
    (permitted : entry.allowed.permits state = true) :
    dispatch table follower server code state connection args =
      concluded code (follower (entry.handler ⟨connection, state, args⟩) server) := by
  unfold dispatch
  rw [found]
  dsimp only
  rw [if_pos permitted]
  rcases follower (entry.handler ⟨connection, state, args⟩) server with ⟨ending, after⟩
  cases ending <;> rfl

end Dispatch

/-- A call of a handler is answered as handled, or not at all. -/
theorem fst_concluded (code : Code) (followed : Ending × Server μ) :
    (concluded code followed).1 =
      if followed.1 = .aborted then none else some (.handled code) := by
  obtain ⟨ending, after⟩ := followed
  cases ending <;> rfl

/-! ## Inbound texts -/

variable {follower : Follower μ} {server : Server μ} {connection : ConnectionId} {text : String}

theorem receiveWith_of_parsed {envelope : Envelope} {state : State}
    (parsed : Envelope.parse text = .ok envelope)
    (known : server.registry.state? connection = some state) :
    receiveWith table follower server connection text =
      dispatch table follower server envelope.value state connection envelope.args := by
  unfold receiveWith
  rw [parsed]
  dsimp only
  rw [known]

/-- The ways in which a text can go. -/
inductive Passage (table : Table μ) (follower : Follower μ) (server : Server μ)
    (connection : ConnectionId) (text : String) : Option FrameOutcome × Server μ → Prop
  | empty (blank : text = "") : Passage table follower server connection text (some .empty, server)
  | malformed {error : EnvelopeError} (written : text ≠ "")
      (failed : Envelope.parse text = .error error) :
      Passage table follower server connection text (some .malformed, server)
  | unknownConnection {envelope : Envelope} (parsed : Envelope.parse text = .ok envelope)
      (absent : server.registry.session? connection = none) :
      Passage table follower server connection text (some .unknownConnection, server)
  | unknownCode {envelope : Envelope} {session : Session}
      (parsed : Envelope.parse text = .ok envelope)
      (present : server.registry.session? connection = some session)
      (unknown : table.get? envelope.value = none) :
      Passage table follower server connection text (some (.unknownCode envelope.value), server)
  | rejected {envelope : Envelope} {session : Session} {entry : Entry μ}
      (parsed : Envelope.parse text = .ok envelope)
      (present : server.registry.session? connection = some session)
      (found : table.get? envelope.value = some entry)
      (forbidden : entry.allowed.permits session.state = false) :
      Passage table follower server connection text
        (some (.rejected envelope.value session.state), server)
  | called {envelope : Envelope} {session : Session} {entry : Entry μ}
      (parsed : Envelope.parse text = .ok envelope)
      (present : server.registry.session? connection = some session)
      (found : table.get? envelope.value = some entry)
      (permitted : entry.allowed.permits session.state = true) :
      Passage table follower server connection text
        (concluded envelope.value
          (follower (entry.handler ⟨connection, session.state, envelope.args⟩) server))

theorem passage_receiveWith (table : Table μ) (follower : Follower μ) (server : Server μ)
    (connection : ConnectionId) (text : String) :
    Passage table follower server connection text
      (receiveWith table follower server connection text) := by
  cases parsed : Envelope.parse text with
  | error error =>
      unfold receiveWith
      rw [parsed]
      by_cases blank : text = ""
      · rw [(Envelope.parse_eq_error_empty_iff text).mpr blank] at parsed
        cases parsed
        exact .empty blank
      · cases error with
        | empty => exact absurd ((Envelope.parse_eq_error_empty_iff text).mp parsed) blank
        | invalid => exact .malformed blank parsed
        | notObject => exact .malformed blank parsed
        | missingCode => exact .malformed blank parsed
  | ok envelope =>
      cases present : server.registry.session? connection with
      | none =>
          have unknown : server.registry.state? connection = none := by
            rw [Registry.state?, present]
            rfl
          unfold receiveWith
          rw [parsed]
          dsimp only
          rw [unknown]
          exact .unknownConnection parsed present
      | some session =>
          have known : server.registry.state? connection = some session.state := by
            rw [Registry.state?, present]
            rfl
          rw [receiveWith_of_parsed parsed known]
          cases found : table.get? envelope.value with
          | none =>
              rw [dispatch_of_unknown _ _ _ _ found]
              exact .unknownCode parsed present found
          | some entry =>
              cases permitted : entry.allowed.permits session.state with
              | false =>
                  rw [dispatch_of_forbidden _ _ _ _ found permitted]
                  exact .rejected parsed present found permitted
              | true =>
                  rw [dispatch_of_permitted _ _ _ _ found permitted]
                  exact .called parsed present found permitted

/-- What a text has to pass before a handler is called, one check after the other, and what comes of
it. -/
structure Gated (table : Table μ) (follower : Follower μ) (server : Server μ)
    (connection : ConnectionId) (text : String) (answer : Option FrameOutcome × Server μ) :
    Prop where
  empty : answer.1 = some .empty ↔ text = ""
  malformed : text ≠ "" →
    (answer.1 = some .malformed ↔ ∃ error, Envelope.parse text = .error error)
  unknownConnection : ∀ envelope, Envelope.parse text = .ok envelope →
    (answer.1 = some .unknownConnection ↔ server.registry.session? connection = none)
  unknownCode : ∀ envelope session, Envelope.parse text = .ok envelope →
    server.registry.session? connection = some session →
      (answer.1 = some (.unknownCode envelope.value) ↔ table.get? envelope.value = none)
  rejected : ∀ envelope session entry, Envelope.parse text = .ok envelope →
    server.registry.session? connection = some session →
      table.get? envelope.value = some entry →
        (answer.1 = some (.rejected envelope.value session.state) ↔
          entry.allowed.permits session.state = false)
  /-- The same for an entry whose states are listed. -/
  unlisted : ∀ envelope session entry states, Envelope.parse text = .ok envelope →
    server.registry.session? connection = some session →
      table.get? envelope.value = some entry → entry.allowed = .ofList states →
        (answer.1 = some (.rejected envelope.value session.state) ↔
          states ≠ [] ∧ session.state ∉ states)
  /-- What passes comes to what following the handler comes to, for this very request. -/
  called : ∀ envelope session entry, Envelope.parse text = .ok envelope →
    server.registry.session? connection = some session →
      table.get? envelope.value = some entry → entry.allowed.permits session.state = true →
        answer = concluded envelope.value
          (follower (entry.handler ⟨connection, session.state, envelope.args⟩) server)
  /-- What is not handled leaves no trace. -/
  unchanged : ∀ outcome, answer.1 = some outcome → (∀ code, outcome ≠ .handled code) →
    answer.2 = server

/-! ### What the ways settle

Each way has passed the checks before its end and is told from their outcomes, and it has the
outcome of the check at which it ends. The checks behind that do not apply. -/

section Ways

variable {envelope : Envelope} {session : Session} {entry : Entry μ}

/-- Where there is no envelope, nothing behind the first two checks applies. -/
theorem gated_of_unread {error : EnvelopeError} (failed : Envelope.parse text = .error error)
    {outcome : FrameOutcome} (empty : outcome = .empty ↔ text = "")
    (malformed : text ≠ "" → outcome = .malformed) :
    Gated table follower server connection text (some outcome, server) := by
  have unread : ∀ {envelope}, Envelope.parse text ≠ .ok envelope := by
    intro envelope parsed
    cases failed.symm.trans parsed
  constructor
  case empty =>
    rw [Option.some.injEq]
    exact empty
  case malformed =>
    exact fun written => iff_of_true (congrArg some (malformed written)) ⟨error, failed⟩
  case unknownConnection => exact fun _ parsed => absurd parsed unread
  case unknownCode => exact fun _ _ parsed => absurd parsed unread
  case rejected => exact fun _ _ _ parsed => absurd parsed unread
  case unlisted => exact fun _ _ _ _ parsed => absurd parsed unread
  case called => exact fun _ _ _ parsed => absurd parsed unread
  case unchanged => exact fun _ _ _ => rfl

theorem gated_of_blank (blank : text = "") :
    Gated table follower server connection text (some .empty, server) :=
  gated_of_unread ((Envelope.parse_eq_error_empty_iff text).mpr blank) (iff_of_true rfl blank)
    fun written => absurd blank written

theorem gated_of_error {error : EnvelopeError} (written : text ≠ "")
    (failed : Envelope.parse text = .error error) :
    Gated table follower server connection text (some .malformed, server) :=
  gated_of_unread failed (iff_of_false nofun written) fun _ => rfl

/-- An envelope is neither empty nor malformed, and the checks behind speak of no other one. -/
theorem gated_of_parsed (parsed : Envelope.parse text = .ok envelope)
    {answer : Option FrameOutcome × Server μ}
    (notEmpty : answer.1 ≠ some .empty) (wellFormed : answer.1 ≠ some .malformed)
    (unknownConnection : answer.1 = some .unknownConnection ↔
      server.registry.session? connection = none)
    (unknownCode : ∀ session, server.registry.session? connection = some session →
      (answer.1 = some (.unknownCode envelope.value) ↔ table.get? envelope.value = none))
    (rejected : ∀ session entry, server.registry.session? connection = some session →
      table.get? envelope.value = some entry →
        (answer.1 = some (.rejected envelope.value session.state) ↔
          entry.allowed.permits session.state = false))
    (called : ∀ session entry, server.registry.session? connection = some session →
      table.get? envelope.value = some entry → entry.allowed.permits session.state = true →
        answer = concluded envelope.value
          (follower (entry.handler ⟨connection, session.state, envelope.args⟩) server))
    (unchanged : ∀ outcome, answer.1 = some outcome → (∀ code, outcome ≠ .handled code) →
      answer.2 = server) :
    Gated table follower server connection text answer := by
  have only : ∀ {other}, Envelope.parse text = .ok other → other = envelope :=
    fun alsoParsed => Except.ok.inj (alsoParsed.symm.trans parsed)
  constructor
  case empty =>
    refine iff_of_false notEmpty ?_
    rintro rfl
    cases parsed
  case malformed =>
    refine fun _ => iff_of_false wellFormed ?_
    rintro ⟨error, failed⟩
    cases failed.symm.trans parsed
  case unknownConnection =>
    intro other alsoParsed
    exact unknownConnection
  case unknownCode =>
    intro other session alsoParsed
    rw [only alsoParsed]
    exact unknownCode session
  case rejected =>
    intro other session entry alsoParsed
    rw [only alsoParsed]
    exact rejected session entry
  case unlisted =>
    intro other session entry states alsoParsed present found listed
    rw [only alsoParsed] at found ⊢
    rw [rejected session entry present found, listed, AllowedStates.permits_ofList_eq_false_iff]
  case called =>
    intro other session entry alsoParsed
    rw [only alsoParsed]
    exact called session entry
  case unchanged => exact unchanged

theorem gated_of_absent (parsed : Envelope.parse text = .ok envelope)
    (absent : server.registry.session? connection = none) :
    Gated table follower server connection text (some .unknownConnection, server) := by
  have nobody : ∀ {session}, server.registry.session? connection ≠ some session := by
    intro session present
    cases absent.symm.trans present
  apply gated_of_parsed parsed
  case notEmpty => exact nofun
  case wellFormed => exact nofun
  case unknownConnection => exact iff_of_true rfl absent
  case unknownCode => exact fun _ present => absurd present nobody
  case rejected => exact fun _ _ present => absurd present nobody
  case called => exact fun _ _ present => absurd present nobody
  case unchanged => exact fun _ _ _ => rfl

/-- For a connection that has a session the checks behind speak of that session. -/
theorem gated_of_present (parsed : Envelope.parse text = .ok envelope)
    (present : server.registry.session? connection = some session)
    {answer : Option FrameOutcome × Server μ}
    (notEmpty : answer.1 ≠ some .empty) (wellFormed : answer.1 ≠ some .malformed)
    (known : answer.1 ≠ some .unknownConnection)
    (unknownCode : answer.1 = some (.unknownCode envelope.value) ↔
      table.get? envelope.value = none)
    (rejected : ∀ entry, table.get? envelope.value = some entry →
      (answer.1 = some (.rejected envelope.value session.state) ↔
        entry.allowed.permits session.state = false))
    (called : ∀ entry, table.get? envelope.value = some entry →
      entry.allowed.permits session.state = true →
        answer = concluded envelope.value
          (follower (entry.handler ⟨connection, session.state, envelope.args⟩) server))
    (unchanged : ∀ outcome, answer.1 = some outcome → (∀ code, outcome ≠ .handled code) →
      answer.2 = server) :
    Gated table follower server connection text answer := by
  have only : ∀ {other}, server.registry.session? connection = some other → other = session :=
    fun alsoPresent => Option.some.inj (alsoPresent.symm.trans present)
  apply gated_of_parsed parsed
  case notEmpty => exact notEmpty
  case wellFormed => exact wellFormed
  case unknownConnection =>
    rw [present]
    exact iff_of_false known (Option.some_ne_none session)
  case unknownCode => exact fun _ _ => unknownCode
  case rejected =>
    intro other entry alsoPresent
    rw [only alsoPresent]
    exact rejected entry
  case called =>
    intro other entry alsoPresent
    rw [only alsoPresent]
    exact called entry
  case unchanged => exact unchanged

theorem gated_of_unknown (parsed : Envelope.parse text = .ok envelope)
    (present : server.registry.session? connection = some session)
    (unknown : table.get? envelope.value = none) :
    Gated table follower server connection text (some (.unknownCode envelope.value), server) := by
  have unserved : ∀ {entry}, table.get? envelope.value ≠ some entry := by
    intro entry found
    cases unknown.symm.trans found
  apply gated_of_present parsed present
  case notEmpty => exact nofun
  case wellFormed => exact nofun
  case known => exact nofun
  case unknownCode => exact iff_of_true rfl unknown
  case rejected => exact fun _ found => absurd found unserved
  case called => exact fun _ found => absurd found unserved
  case unchanged => exact fun _ _ _ => rfl

theorem gated_of_forbidden (parsed : Envelope.parse text = .ok envelope)
    (present : server.registry.session? connection = some session)
    (found : table.get? envelope.value = some entry)
    (forbidden : entry.allowed.permits session.state = false) :
    Gated table follower server connection text
      (some (.rejected envelope.value session.state), server) := by
  apply gated_of_present parsed present
  case notEmpty => exact nofun
  case wellFormed => exact nofun
  case known => exact nofun
  case unknownCode =>
    rw [found]
    exact iff_of_false nofun (Option.some_ne_none entry)
  case rejected =>
    intro other alsoFound
    cases found.symm.trans alsoFound
    exact iff_of_true rfl forbidden
  case called =>
    intro other alsoFound permitted
    cases found.symm.trans alsoFound
    cases forbidden.symm.trans permitted
  case unchanged => exact fun _ _ _ => rfl

/-- A call has no outcome but that of a handled text. -/
theorem fst_concluded_ne {code : Code} {outcome : FrameOutcome}
    (unhandled : outcome ≠ .handled code) (followed : Ending × Server μ) :
    (concluded code followed).1 ≠ some outcome := by
  rw [fst_concluded]
  split
  · exact nofun
  · exact fun same => unhandled (Option.some.inj same).symm

theorem gated_of_permitted (parsed : Envelope.parse text = .ok envelope)
    (present : server.registry.session? connection = some session)
    (found : table.get? envelope.value = some entry)
    (permitted : entry.allowed.permits session.state = true) :
    Gated table follower server connection text
      (concluded envelope.value
        (follower (entry.handler ⟨connection, session.state, envelope.args⟩) server)) := by
  have handled : ∀ outcome, outcome ≠ .handled envelope.value →
      (concluded envelope.value
        (follower (entry.handler ⟨connection, session.state, envelope.args⟩) server)).1 ≠
          some outcome := fun _ unhandled => fst_concluded_ne unhandled _
  apply gated_of_present parsed present
  case notEmpty => exact handled _ nofun
  case wellFormed => exact handled _ nofun
  case known => exact handled _ nofun
  case unknownCode =>
    rw [found]
    exact iff_of_false (handled _ nofun) (Option.some_ne_none entry)
  case rejected =>
    intro other alsoFound
    cases found.symm.trans alsoFound
    rw [permitted]
    exact iff_of_false (handled _ nofun) nofun
  case called =>
    intro other alsoFound _
    cases found.symm.trans alsoFound
    rfl
  case unchanged =>
    intro outcome answered unhandled
    exact absurd answered (handled outcome (unhandled envelope.value))

end Ways

theorem Passage.gated {answer : Option FrameOutcome × Server μ}
    (passage : Passage table follower server connection text answer) :
    Gated table follower server connection text answer := by
  cases passage with
  | empty blank => exact gated_of_blank blank
  | malformed written failed => exact gated_of_error written failed
  | unknownConnection parsed absent => exact gated_of_absent parsed absent
  | unknownCode parsed present unknown => exact gated_of_unknown parsed present unknown
  | rejected parsed present found forbidden =>
      exact gated_of_forbidden parsed present found forbidden
  | called parsed present found permitted =>
      exact gated_of_permitted parsed present found permitted

/-- Whatever the table serves, a text is dropped as empty, as malformed, for an unknown connection,
for an unknown code or for the state of its session, in this order and for no other reason, and a
dropped text changes nothing. Any other text comes to one call of the handler of its code, with the
connection, the state of its session and its arguments. What following a procedure means has no part
in this, so handlers that take in texts themselves pass them through the same gate. -/
theorem receive_gated (table : Table μ) (server : Server μ) (connection : ConnectionId)
    (text : String) :
    Gated table (run table) server connection text (server.receive table connection text) ∧
      ∀ follower, Gated table follower server connection text
        (receiveWith table follower server connection text) := by
  have gated (follower : Follower μ) : Gated table follower server connection text
      (receiveWith table follower server connection text) :=
    (passage_receiveWith table follower server connection text).gated
  exact ⟨gated (run table), gated⟩

end Server

end SessionServer
