import SessionServer.Proofs.Bundle.Stopping

/-!
Contract: what a login that fails does, and what its sender can learn from it.

Owns:
- `Login.Fails`, the arguments that make a login fail, with the code that says why;
- `Bundle.StartedWith` and `Bundle.Secured`, servers whose secret is known: it is the configured one
  or the one made of random bytes, and no step and no stop changes it;
- the theorem that a login that fails changes nothing but the queue, and that its answer is the same
  for all servers with one secret, whoever is logged in and whatever is stored.
-/

namespace SessionServer

/-! ## Arguments -/

namespace Request

variable {request : Request} {name : String}

theorem identity?_eq_some_iff {uid : Identity} :
    request.identity? name = some uid ↔ request.args.get? name = some (.integer uid.toInt) := by
  have fits : Json.leastInteger ≤ uid.toInt ∧ uid.toInt < Json.signedBound :=
    ⟨uid.le_toInt, uid.toInt_lt⟩
  unfold identity? integer?
  constructor
  · intro found
    obtain ⟨value, read, rfl⟩ := Option.map_eq_some_iff.mp found
    obtain ⟨json, present, number⟩ := Option.bind_eq_some_iff.mp read
    cases json with
    | integer own =>
        obtain ⟨bounds, same⟩ := Option.ite_none_right_eq_some.mp number
        cases same
        have size : (Int64.ofInt value).toInt = value :=
          Int64.toInt_ofInt_of_le bounds.1 bounds.2
        rw [size]
        exact present
    | _ => cases number
  · intro present
    rw [present, Option.bind_some, Json.integer?, if_pos fits, Option.map_some,
      Int64.ofInt_toInt]

theorem text?_eq_some_iff {text : String} :
    request.text? name = some text ↔ request.args.get? name = some (.string text) := by
  unfold text?
  constructor
  · intro found
    obtain ⟨json, present, read⟩ := Option.bind_eq_some_iff.mp found
    cases json with
    | string own =>
        cases read
        exact present
    | _ => cases read
  · intro present
    rw [present]
    rfl

end Request

namespace Login

/-- There is no account number of 64 bits or no text as secret, be it that the argument is missing,
of another kind or out of range. -/
def Incomplete (args : Args) : Prop :=
  (∀ uid : Identity, args.get? "uid" ≠ some (.integer uid.toInt)) ∨
    ∀ presented, args.get? "secret" ≠ some (.string presented)

/-- The parameters are complete, but the secret is another one. -/
def Wrong (secret : String) (args : Args) : Prop :=
  ∃ (uid : Identity) (presented : String), args.get? "uid" = some (.integer uid.toInt) ∧
    args.get? "secret" = some (.string presented) ∧ presented ≠ secret

/-- The arguments make a login fail, for the reason that the code tells. -/
inductive Fails (secret : String) (args : Args) : Code → Prop
  | incomplete (incomplete : Incomplete args) : Fails secret args Code.parameterError
  | wrong (wrong : Wrong secret args) : Fails secret args Code.secretError

theorem Fails.spec {secret : String} {memory : LoginMemory} {request : Request} {reason : Code}
    (fails : Fails secret request.args reason) (known : memory.secret = some secret) :
    account? memory request = none ∧ refusal request = reason := by
  cases fails with
  | incomplete incomplete =>
      rcases incomplete with numberless | textless
      · have missing : request.identity? "uid" = none :=
          Option.eq_none_iff_forall_ne_some.mpr fun uid found =>
            numberless uid (Request.identity?_eq_some_iff.mp found)
        simp only [account?, refusal, missing, and_self]
      · have missing : request.text? "secret" = none :=
          Option.eq_none_iff_forall_ne_some.mpr fun text found =>
            textless text (Request.text?_eq_some_iff.mp found)
        cases number : request.identity? "uid" <;>
          simp only [account?, refusal, number, missing, and_self]
  | wrong wrong =>
      obtain ⟨uid, presented, number, text, apart⟩ := wrong
      have differs : ¬memory.secret = some presented := by
        rw [known]
        exact fun same => apart (Option.some.inj same).symm
      simp only [account?, refusal, Request.identity?_eq_some_iff.mpr number,
        Request.text?_eq_some_iff.mpr text, if_neg differs, and_self]

end Login

namespace Bundle

open Server

/-! ## The secret -/

section Secret

variable {σ : Type} [EntityStore σ Player]

/-- The server has come up with the bundled table and this secret, the configured one or else the
digits of the random bytes. -/
def StartedWith (store : σ) (secret : String) (table : Table (Features σ))
    (server : Server (Features σ)) : Prop :=
  ∃ heartbeat flushPeriod capacity configured entropy epoch,
    secret = configured.getD (Hexadecimal.ofBytes entropy) ∧
      bundledTable heartbeat flushPeriod = .ok table ∧
      (Server.fresh capacity (.fresh configured entropy store) epoch).start table =
        (some (.ok ()), server)

variable {store : σ} {secret : String} {table : Table (Features σ)}
  {start server : Server (Features σ)}

theorem StartedWith.started (started : StartedWith store secret table server) :
    Started store table server := by
  obtain ⟨heartbeat, flushPeriod, capacity, configured, entropy, epoch, -, made, up⟩ := started
  exact ⟨heartbeat, flushPeriod, capacity, configured, entropy, epoch, made, up⟩

theorem StartedWith.known (started : StartedWith store secret table server) :
    server.memory.login.secret = some secret := by
  obtain ⟨heartbeat, flushPeriod, capacity, configured, entropy, epoch, rfl, made, up⟩ := started
  obtain ⟨memory, -, known, rfl⟩ := start_eq made up
  exact known

/-- Neither steps nor stops touch what the login provider keeps. -/
theorem Reachable.login (reached : Reachable table start server)
    (started : Started store table start) :
    server.memory.login = start.memory.login := by
  obtain ⟨heartbeat, flushPeriod, serves⟩ := started.serves
  induction reached with
  | start => rfl
  | step reached step inductionHypothesis =>
      exact (effect_apply serves (reached.standing started) step).1.login_eq.trans
        inductionHypothesis
  | stop _ inductionHypothesis =>
      obtain ⟨after, equation, stopped⟩ := stop_eq serves _
      rw [equation]
      exact stopped.login.trans inductionHypothesis

/-- A server that a started one with this secret has become. -/
def Secured (secret : String) (table : Table (Features σ)) (server : Server (Features σ)) : Prop :=
  ∃ (store : σ) (start : Server (Features σ)),
    StartedWith store secret table start ∧ Reachable table start server

/-! ## Failed logins -/

theorem Secured.receive_of_fails {before : Server (Features σ)} {connection : ConnectionId}
    {text : String} {args : Args} {reason : Code} (secured : Secured secret table before)
    (starts : before.registry.state? connection = some State.none)
    (parsed : Envelope.parse text = .ok ⟨Code.login, args⟩)
    (fails : Login.Fails secret args reason) :
    before.receive table connection text = (some (.handled Code.login),
      before.say [.envelope connection reason .empty, ⟨connection, .close⟩]) := by
  obtain ⟨store, start, started, reached⟩ := secured
  obtain ⟨heartbeat, flushPeriod, serves⟩ := started.started.serves
  have known : before.memory.login.secret = some secret := by
    rw [reached.login started.started]
    exact started.known
  have permitted : (AllowedStates.ofList [State.none]).permits State.none = true := by decide
  have outcome : Login.account? before.memory.login ⟨connection, State.none, args⟩ = none ∧
      Login.refusal ⟨connection, State.none, args⟩ = reason := fails.spec known
  obtain ⟨refused, told⟩ := outcome
  rw [receive_of_parsed parsed starts, dispatch_of_permitted _ _ _ _ serves.login permitted,
    run_eq, follow_login_of_refused _ _ _ _ _ refused, told]
  rfl

end Secret

section Disclosure

variable {σ τ : Type} [EntityStore σ Player] [EntityStore τ Player]

/-- A login that fails leaves sessions, records, dirty marks, tasks and clock as they are, and is
answered by one envelope without arguments, whose code is 11 or 101, and a request to close. Two
servers with one secret answer it alike, so the answer tells nothing of who is logged in and what is
stored. -/
theorem failed_login_undisclosing {secret text : String} {args : Args} {reason : Code}
    (parsed : Envelope.parse text = .ok ⟨Code.login, args⟩)
    (fails : Login.Fails secret args reason)
    {table : Table (Features σ)} {before : Server (Features σ)} {connection : ConnectionId}
    (secured : Secured secret table before)
    (starts : before.registry.state? connection = some State.none)
    {otherTable : Table (Features τ)} {other : Server (Features τ)}
    {otherConnection : ConnectionId} (otherSecured : Secured secret otherTable other)
    (otherStarts : other.registry.state? otherConnection = some State.none) :
    let result := before.receive table connection text
    let otherResult := other.receive otherTable otherConnection text
    result.1 = some (.handled Code.login) ∧
      result.2 = { before with
        queue := ⟨before.queue.frames ++
          [⟨connection, .text (Envelope.bare reason).toText⟩, ⟨connection, .close⟩]⟩ } ∧
      result.1 = otherResult.1 ∧
      (Event.sent ⟨before, .receive connection text, result.2⟩).map Frame.payload =
        (Event.sent ⟨other, .receive otherConnection text, otherResult.2⟩).map Frame.payload := by
  intro result otherResult
  have refused : result = _ := secured.receive_of_fails starts parsed fails
  have alsoRefused : otherResult = _ := otherSecured.receive_of_fails otherStarts parsed fails
  rw [refused, alsoRefused]
  refine ⟨rfl, rfl, rfl, ?_⟩
  simp only [Event.sent, say, List.drop_left, List.map_cons, List.map_nil, Frame.envelope]

/-- Whoever tries a wrong secret for account 7 is told the same where the account is logged in and
where nobody has ever been. -/
theorem failed_login_undisclosing_sample :
    let text := "\x7b\"value\":100,\"args\":\x7b\"uid\":7,\"secret\":\"x\"\x7d\x7d"
    let busy := (machine sampleTable).run (sampleServer {})
      [.accept, .accept, .receive ⟨1⟩ sampleLogin]
    let idle := (machine sampleTable).run (sampleServer { outage := { loads := true } }) [.accept]
    busy.registry.identity? ⟨1⟩ = some 7 ∧
      (busy.receive sampleTable ⟨2⟩ text).2.registry = busy.registry ∧
      (Event.sent ⟨busy, .receive ⟨2⟩ text, (busy.receive sampleTable ⟨2⟩ text).2⟩).map
          Frame.payload =
        (Event.sent ⟨idle, .receive ⟨1⟩ text, (idle.receive sampleTable ⟨1⟩ text).2⟩).map
          Frame.payload := by
  intro text busy idle
  have secured : ∀ store steps,
      Secured "s" sampleTable ((machine sampleTable).run (sampleServer store) steps) :=
    fun store steps => ⟨store, sampleServer store,
      ⟨10, 60, 8, some "s", [], 0, rfl, rfl, rfl⟩, Reachable.start.run steps⟩
  have busySecured : Secured "s" sampleTable busy := secured _ _
  have idleSecured : Secured "s" sampleTable idle := secured _ _
  have read : (Envelope.parse text).toOption.map (fun envelope =>
      (envelope.value, Request.identity? ⟨⟨2⟩, State.none, envelope.args⟩ "uid",
        Request.text? ⟨⟨2⟩, State.none, envelope.args⟩ "secret")) =
      some (Code.login, some 7, some "x") := by decide +kernel
  cases parsed : Envelope.parse text with
  | error error =>
      rw [parsed] at read
      cases read
  | ok envelope =>
      rw [parsed] at read
      obtain ⟨code, args⟩ := envelope
      obtain ⟨login, arguments⟩ := Prod.mk.inj (Option.some.inj read)
      obtain ⟨number, presented⟩ := Prod.mk.inj arguments
      subst login
      have fails : Login.Fails "s" args Code.secretError :=
        .wrong ⟨7, "x", Request.identity?_eq_some_iff.mp number,
          Request.text?_eq_some_iff.mp presented, by decide⟩
      have starts : busy.registry.state? ⟨2⟩ = some State.none := by decide +kernel
      have otherStarts : idle.registry.state? ⟨1⟩ = some State.none := by decide +kernel
      obtain ⟨-, after, -, same⟩ :=
        failed_login_undisclosing parsed fails busySecured starts idleSecured otherStarts
      refine ⟨by decide +kernel, ?_, same⟩
      rw [after]

end Disclosure

end Bundle

end SessionServer
