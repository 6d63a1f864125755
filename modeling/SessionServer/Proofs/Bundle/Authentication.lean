import SessionServer.Proofs.Bundle.Effects

/-!
Contract: a session is authorized by one login of its own, and by nothing else.

Owns:
- `Bundle.logins`, the accounts that a connection has logged in to;
- `Bundle.Recorded`, the link between these and the state and identity of every session;
- the proof that the handler behind the check of players takes part in nothing but logins.
-/

namespace SessionServer.Bundle

open Server

variable {σ : Type}

/-! ## Logins on record -/

/-- The accounts that a connection has logged in to, in order. -/
def logins (connection : ConnectionId) (history : List (Event σ)) : List Identity :=
  history.filterMap fun event =>
    event.login?.bind fun login => if login.1 = connection then some login.2 else none

section Logins

variable (connection : ConnectionId) (history : List (Event σ)) {event : Event σ}

theorem logins_append (later : List (Event σ)) :
    logins connection (history ++ later) = logins connection history ++ logins connection later :=
  List.filterMap_append

theorem logins_snoc_of_none (none : event.login? = none) :
    logins connection (history ++ [event]) = logins connection history := by
  rw [logins_append]
  simp only [logins, List.filterMap_cons, none, Option.bind_none, List.filterMap_nil,
    List.append_nil]

theorem logins_snoc {who : ConnectionId} {uid : Identity} (login : event.login? = some (who, uid)) :
    logins connection (history ++ [event]) =
      logins connection history ++ if who = connection then [uid] else [] := by
  rw [logins_append]
  congr 1
  simp only [logins, List.filterMap_cons, login, Option.bind_some, List.filterMap_nil]
  by_cases same : who = connection
  · simp only [if_pos same]
  · simp only [if_neg same]

end Logins

/-- What the sessions owe to the logins on record. A number that is still to be given out has no
logins, so that a new session starts without any. -/
structure Recorded (history : List (Event σ)) (server : Server (Features σ)) : Prop where
  sessions : ∀ {connection : ConnectionId} {session : Session},
    server.registry.session? connection = some session →
      session = .fresh ∧ logins connection history = [] ∨
        session.state = State.authorized ∧ ∃ uid, logins connection history = [uid] ∧
          ∀ identity, session.identity = some identity → identity = uid
  ahead : ∀ {connection : ConnectionId},
    server.registry.nextNumber ≤ connection.number → logins connection history = []

section Record

variable [EntityStore σ Player] {history : List (Event σ)} {before after : Server (Features σ)}
  {step : Step σ}

theorem Recorded.of_no_login (recorded : Recorded history before)
    (effect : Effect before after step) (apart : step.login? before = none) :
    Recorded (history ++ [⟨before, step, after⟩]) after := by
  have same : ∀ connection, logins connection (history ++ [⟨before, step, after⟩]) =
      logins connection history := fun connection => logins_snoc_of_none connection history apart
  constructor
  · intro connection session found
    rw [same]
    rcases effect.turnover.session?_of_no_login apart found with kept | ⟨rfl, new⟩
    · exact recorded.sessions kept
    · exact .inl ⟨rfl, recorded.ahead (Nat.le_of_eq new.symm)⟩
  · intro connection ahead
    rw [same]
    exact recorded.ahead (Nat.le_trans effect.turnover.nextNumber_le ahead)

theorem Recorded.of_login (recorded : Recorded history before) (sound : before.registry.Sound)
    (effect : Effect before after step) {who : ConnectionId} {uid : Identity}
    (login : step.login? before = some (who, uid)) :
    Recorded (history ++ [⟨before, step, after⟩]) after := by
  have moves := effect.admission login
  have isOpen : before.registry.contains who = true := Step.isOpen_of_login? login
  have start := sound.session?_of_none (Step.state?_of_login? login)
  have extended : ∀ connection, logins connection (history ++ [⟨before, step, after⟩]) =
      logins connection history ++ if who = connection then [uid] else [] :=
    fun connection => logins_snoc connection history login
  constructor
  · intro connection session found
    rw [moves.registry, Registry.session?_enroll isOpen] at found
    rw [extended]
    split at found
    · next same =>
        subst same
        cases found
        -- The session was at its start, so this is its first login.
        have first : logins who history = [] := by
          rcases recorded.sessions start with ⟨-, nothing⟩ | ⟨authorized, -⟩
          · exact nothing
          · exact absurd authorized (by decide)
        rw [first, if_pos rfl]
        refine .inr ⟨rfl, uid, rfl, ?_⟩
        intro identity same
        exact (Option.some.inj same).symm
    · next apart =>
        obtain ⟨former, known, rfl⟩ := Option.map_eq_some_iff.mp found
        rw [if_neg apart, List.append_nil]
        rcases recorded.sessions known with ⟨rfl, nothing⟩ | ⟨authorized, account, once, bound⟩
        · exact .inl ⟨rfl, nothing⟩
        · unfold Session.release
          split
          · exact .inr ⟨authorized, account, once, nofun⟩
          · exact .inr ⟨authorized, account, once, bound⟩
  · intro connection ahead
    have earlier : before.registry.nextNumber ≤ connection.number :=
      Nat.le_trans effect.turnover.nextNumber_le ahead
    have apart : ¬who = connection := by
      rintro rfl
      exact absurd (sound.numbered isOpen) (Nat.not_lt.mpr earlier)
    rw [extended, if_neg apart, List.append_nil]
    exact recorded.ahead earlier

end Record

/-! ## The check of players -/

section Exchange

variable [EntityStore σ Player] {table : Table (Features σ)} {heartbeat flushPeriod : Nat}
  {server : Server (Features σ)}

/-- Following the tasks of the bundled providers needs no table. -/
theorem run_routine {body : Procedure (Features σ)} (routine : Routine body)
    (first second : Table (Features σ)) :
    Server.run first body server = Server.run second body server := by
  rw [run_eq, run_eq]
  rcases routine with rfl | ⟨connection, rfl⟩
  · rw [follow_flush, follow_flush]
  · rw [follow_beat, follow_beat]

theorem fire_eq (routine : server.scheduler.Each Routine) (first second : Table (Features σ))
    (task : TaskId) :
    (clockwork first).fire server task = (clockwork second).fire server task := by
  cases found : server.scheduler.task? task with
  | none =>
      rw [Clockwork.fire_of_missing (clockwork first) found,
        Clockwork.fire_of_missing (clockwork second) found]
  | some entry =>
      cases stopped : server.scheduler.isStopped entry.id with
      | true =>
          rw [Clockwork.fire_of_stopped (clockwork first) found stopped,
            Clockwork.fire_of_stopped (clockwork second) found stopped]
          rfl
      | false =>
          rw [Clockwork.fire_of_running (clockwork first) found stopped,
            Clockwork.fire_of_running (clockwork second) found stopped]
          have performed : (clockwork first).perform task entry.body server =
              (clockwork second).perform task entry.body server :=
            run_routine (routine entry (List.mem_of_find?_eq_some found)) first second
          rw [performed]
          rfl

/-- Without a login a step does the same whatever handler stands behind the check of players. -/
theorem apply_withHandler_of_no_login (serves : Serves table Players.check heartbeat flushPeriod)
    (standing : Standing server) {step : Step σ} (apart : step.login? server = none)
    (handler : Handler (Features σ)) :
    step.apply (table.withHandler Code.playerCheck handler) server = step.apply table server := by
  cases step with
  | receive connection text =>
      have refused : server.login? connection text = none := Option.map_eq_none_iff.mp apart
      obtain ⟨result, -, equation⟩ := answered refused (standing.outside connection)
      rw [Step.apply, Step.apply, equation serves, equation (serves.withHandler handler)]
  | fire task => exact fire_eq standing.routine _ _ task
  | flush => exact congrArg Prod.snd (run_routine (.inl rfl) _ _)
  | _ => rfl

/-- A successful login hands over to the check of players once the account is bound. -/
theorem apply_of_login {check : Handler (Features σ)}
    (serves : Serves table check heartbeat flushPeriod) {step : Step σ}
    {connection : ConnectionId} {uid : Identity}
    (login : step.login? server = some (connection, uid)) :
    step.apply table server =
      (followWithin table (callDepth - 1)
        (check ⟨connection, State.program, Login.checkArgs uid⟩)
        (server.enroll heartbeat connection uid)).2 := by
  cases step with
  | receive sender text =>
      obtain ⟨account, found, same⟩ := Option.map_eq_some_iff.mp login
      cases same
      rw [Step.apply, receive_of_login serves found]
      rcases followWithin table (callDepth - 1) (check ⟨connection, State.program,
        Login.checkArgs uid⟩) (server.enroll heartbeat connection uid) with ⟨ending, after⟩
      cases ending <;> rfl
  | _ => cases login

end Exchange

/-! ## Authentication -/

section Authentication

variable [EntityStore σ Player] {store : σ} {table : Table (Features σ)}
  {start : Server (Features σ)}

/-- The record of every run fits the sessions, and the secret never changes. -/
theorem Started.recorded (started : Started store table start) (steps : List (Step σ)) :
    Recorded ((machine table).trace start steps) ((machine table).run start steps) ∧
      ((machine table).run start steps).memory.login = start.memory.login := by
  obtain ⟨heartbeat, flushPeriod, serves⟩ := started.serves
  obtain ⟨⟨capacity, registry⟩, -, -, -⟩ := started.spec
  have initial : Recorded [] start := by
    refine ⟨?_, fun _ => rfl⟩
    intro connection session found
    rw [registry] at found
    cases found
  have both : Standing ((machine table).run start steps) ∧
      Recorded ((machine table).trace start steps) ((machine table).run start steps) ∧
        ((machine table).run start steps).memory.login = start.memory.login := by
    refine Machine.run_induction (fun history server => Standing server ∧ Recorded history server ∧
      server.memory.login = start.memory.login) ⟨started.standing, initial, rfl⟩ ?_ steps
    rintro history server step ⟨standing, recorded, secret⟩
    obtain ⟨effect, routine⟩ := effect_apply serves standing step
    refine ⟨⟨effect.turnover.sound standing.sound, routine⟩, ?_, effect.login_eq.trans secret⟩
    cases login : step.login? server with
    | none => exact recorded.of_no_login effect login
    | some entry => exact recorded.of_login standing.sound effect login
  exact both.2

/-- The check of players cannot be reached from outside. -/
theorem Started.receive_playerCheck (started : Started store table start) (steps : List (Step σ))
    {connection : ConnectionId} {text : String} {envelope : Envelope}
    (isOpen : ((machine table).run start steps).registry.contains connection = true)
    (parsed : Envelope.parse text = .ok envelope) (code : envelope.value = Code.playerCheck) :
    ∃ state, ((machine table).run start steps).registry.state? connection = some state ∧
      ((machine table).run start steps).receive table connection text =
        (some (.rejected Code.playerCheck state), (machine table).run start steps) := by
  obtain ⟨heartbeat, flushPeriod, serves⟩ := started.serves
  obtain ⟨session, found⟩ := Registry.contains_iff.mp isOpen
  have known : ((machine table).run start steps).registry.state? connection =
      some session.state := by
    rw [Registry.state?, found, Option.map_some]
  have inside : session.state ≠ State.program := by
    intro program
    exact (started.standing_run steps).outside connection (known.trans (congrArg some program))
  refine ⟨session.state, known, ?_⟩
  rw [receive_of_parsed parsed known, code,
    dispatch_of_forbidden _ _ _ _ serves.check (permits_of_ne inside)]

/-- In every run a session is at its start or authorized, and authorized exactly if it has logged
in once; only then it may have an account, which is that of its login. So the check of players is
out of reach for every text, and only a successful login comes to it, with its account bound. -/
theorem authentication_integrity (started : Started store table start) (steps : List (Step σ)) :
    let server := (machine table).run start steps
    let accounts := fun connection => logins connection ((machine table).trace start steps)
    server.memory.login.secret = start.memory.login.secret ∧
    (∀ connection session, server.registry.session? connection = some session →
      (session.state = State.none ∧ session.identity = none ∨
        session.state = State.authorized) ∧
      (session.state = State.authorized ↔ (accounts connection).length = 1) ∧
      (∀ uid, session.identity = some uid → accounts connection = [uid]) ∧
      session.state ≠ State.program) ∧
    (∀ connection text envelope, server.registry.contains connection = true →
      Envelope.parse text = .ok envelope → envelope.value = Code.playerCheck →
      ∃ state, server.registry.state? connection = some state ∧
        server.receive table connection text =
          (some (.rejected Code.playerCheck state), server)) ∧
    (∀ (step : Step σ) handler, step.login? server = none →
      step.apply (table.withHandler Code.playerCheck handler) server =
        step.apply table server) ∧
    ∀ (step : Step σ) connection uid, step.login? server = some (connection, uid) →
      ∃ bound : Server (Features σ), bound.registry.identity? connection = some uid ∧
        step.apply table server =
          (followWithin table (callDepth - 1)
            (Players.check ⟨connection, State.program, Login.checkArgs uid⟩) bound).2 ∧
        ∀ handler, step.apply (table.withHandler Code.playerCheck handler) server =
          (followWithin (table.withHandler Code.playerCheck handler) (callDepth - 1)
            (handler ⟨connection, State.program, Login.checkArgs uid⟩) bound).2 := by
  intro server accounts
  obtain ⟨heartbeat, flushPeriod, serves⟩ := started.serves
  obtain ⟨recorded, secret⟩ := started.recorded steps
  have standing : Standing server := started.standing_run steps
  refine ⟨congrArg LoginMemory.secret secret, ?_, ?_, ?_, ?_⟩
  · intro connection session found
    rcases recorded.sessions found with ⟨rfl, nothing⟩ | ⟨authorized, uid, once, bound⟩
    · refine ⟨.inl ⟨rfl, rfl⟩, ?_, nofun, by decide⟩
      show _ ↔ (logins connection _).length = 1
      rw [nothing]
      decide
    · refine ⟨.inr authorized, ?_, ?_, ?_⟩
      · show _ ↔ (logins connection _).length = 1
        rw [once]
        exact ⟨fun _ => rfl, fun _ => authorized⟩
      · intro identity held
        rw [bound identity held]
        exact once
      · rw [authorized]
        decide
  · intro connection text envelope isOpen parsed code
    exact started.receive_playerCheck steps isOpen parsed code
  · intro step handler apart
    exact apply_withHandler_of_no_login serves standing apart handler
  · intro step connection uid login
    have isOpen : server.registry.contains connection = true := Step.isOpen_of_login? login
    refine ⟨server.enroll heartbeat connection uid, ?_, apply_of_login serves login, ?_⟩
    · obtain ⟨scheduler, admitted, -⟩ := enroll_eq server connection heartbeat uid
      rw [admitted]
      exact (Registry.identity?_enroll isOpen uid connection).trans (if_pos rfl)
    · intro handler
      exact apply_of_login (serves.withHandler handler) login

/-- A connection logs in to account 7 and then asks for the check of players itself. -/
theorem authentication_integrity_sample :
    let steps : List (Step (FaultyStore Player)) := [.accept, .receive ⟨1⟩ sampleLogin]
    let server := (machine sampleTable).run (sampleServer {}) steps
    let check := "\x7b\"value\":300,\"args\":\x7b\"uid\":7\x7d\x7d"
    (∃ session, server.registry.session? ⟨1⟩ = some session ∧
      session.state = State.authorized) ∧
      (logins ⟨1⟩ ((machine sampleTable).trace (sampleServer {}) steps)).length = 1 ∧
      ∃ state, server.receive sampleTable ⟨1⟩ check =
        (some (.rejected Code.playerCheck state), server) := by
  let steps : List (Step (FaultyStore Player)) := [.accept, .receive ⟨1⟩ sampleLogin]
  let check := "\x7b\"value\":300,\"args\":\x7b\"uid\":7\x7d\x7d"
  have found : ((machine sampleTable).run (sampleServer {}) steps).registry.session? ⟨1⟩ =
      some ⟨State.authorized, some 7⟩ := by decide +kernel
  have isOpen : ((machine sampleTable).run (sampleServer {}) steps).registry.contains ⟨1⟩ =
      true := by
    decide +kernel
  obtain ⟨-, sessions, checks, -⟩ := authentication_integrity (started_sample {}) steps
  have code : (Envelope.parse check).toOption.map Envelope.value = some Code.playerCheck := by
    decide +kernel
  obtain ⟨envelope, parsed⟩ : ∃ envelope, Envelope.parse check = .ok envelope := by
    cases parsed : Envelope.parse check with
    | error error =>
        rw [parsed] at code
        cases code
    | ok envelope => exact ⟨envelope, rfl⟩
  rw [parsed] at code
  obtain ⟨state, -, rejected⟩ := checks ⟨1⟩ check envelope isOpen parsed (Option.some.inj code)
  exact ⟨⟨_, found, rfl⟩, (sessions _ _ found).2.1.mp rfl, state, rejected⟩

end Authentication

end SessionServer.Bundle
