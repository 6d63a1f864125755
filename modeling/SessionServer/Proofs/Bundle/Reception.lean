import SessionServer.Proofs.Bundle.Handlers
import SessionServer.Proofs.Cache.Locality
import SessionServer.Proofs.Dispatch.Assembly
import SessionServer.Proofs.Dispatch.Gate
import SessionServer.Provider.Bundle

/-!
Contract: what becomes of an inbound text when the bundled providers serve it.

Owns:
- `Bundle.Serves`, the entries of the bundled table, with any handler behind the check of players;
- `Server.login?`, the account of a text that is a successful login, and what such a login does;
- `Bundle.Reaction`, what the providers make of a text, told from the secret and the session of the
  sender alone, and the proof that every text comes to the reaction to it;
- `Bundle.Answered`, the few things that any text but a login can come to, and the proof that the
  check of players has no part in them.
-/

namespace SessionServer

variable {σ : Type}

/-! ## The table -/

/-- The entries of the bundled table, with the given handler behind the check of players. -/
structure Bundle.Serves [EntityStore σ Player] (table : Table (Features σ))
    (check : Handler (Features σ)) (heartbeat flushPeriod : Nat) : Prop where
  echo : table.get? Code.echo = some ⟨Code.echo, .any, "echo", Echo.echo⟩
  login : table.get? Code.login =
    some ⟨Code.login, .ofList [State.none], "auth", Login.login heartbeat⟩
  check : table.get? Code.playerCheck =
    some ⟨Code.playerCheck, .ofList [State.program], "player", check⟩
  addGold : table.get? Code.playerAddGold =
    some ⟨Code.playerAddGold, Players.playing, "player", Players.addGold⟩
  info : table.get? Code.playerInfo =
    some ⟨Code.playerInfo, Players.playing, "player", Players.info⟩
  others : ∀ code, code ∉ [Code.echo, Code.login, Code.playerCheck, Code.playerAddGold,
    Code.playerInfo] → table.get? code = none
  providers : table.providers = bundledProviders heartbeat flushPeriod

namespace Bundle

section Serving

variable [EntityStore σ Player] {table : Table (Features σ)} {heartbeat flushPeriod : Nat}

theorem serves_of_bundledTable (made : bundledTable heartbeat flushPeriod = .ok table) :
    Serves table Players.check heartbeat flushPeriod := by
  obtain ⟨providers, entries⟩ := Table.ofProviders_spec made
  refine ⟨entries _, entries _, entries _, entries _, entries _, ?_, providers⟩
  intro code foreign
  rw [entries]
  apply List.find?_eq_none.mpr
  intro entry offered same
  have listed := List.mem_map_of_mem (f := Entry.code) offered
  rw [of_decide_eq_true same] at listed
  exact foreign listed

theorem Serves.withHandler {check : Handler (Features σ)}
    (serves : Serves table check heartbeat flushPeriod) (handler : Handler (Features σ)) :
    Serves (table.withHandler Code.playerCheck handler) handler heartbeat flushPeriod where
  echo := by
    rw [Table.get?_withHandler, serves.echo]
    rfl
  login := by
    rw [Table.get?_withHandler, serves.login]
    rfl
  check := by
    rw [Table.get?_withHandler, serves.check]
    rfl
  addGold := by
    rw [Table.get?_withHandler, serves.addGold]
    rfl
  info := by
    rw [Table.get?_withHandler, serves.info]
    rfl
  others code foreign := by
    rw [Table.get?_withHandler, serves.others code foreign]
    rfl
  providers := serves.providers

end Serving

end Bundle

/-! ## Logins -/

/-- The account of a login, if its parameters are complete and its secret is the right one. -/
def Login.account? (memory : LoginMemory) (request : Request) : Option Identity :=
  match request.identity? "uid", request.text? "secret" with
  | some uid, some secret => if memory.secret = some secret then some uid else none
  | _, _ => none

theorem Login.account?_eq_some_iff {memory : LoginMemory} {request : Request} {uid : Identity} :
    account? memory request = some uid ↔
      request.identity? "uid" = some uid ∧
        ∃ secret, request.text? "secret" = some secret ∧ memory.secret = some secret := by
  unfold account?
  cases request.identity? "uid" with
  | none => exact ⟨fun found => (by cases found), fun found => (by cases found.1)⟩
  | some account =>
      cases request.text? "secret" with
      | none =>
          constructor
          · intro found
            cases found
          · rintro ⟨-, secret, presented, -⟩
            cases presented
      | some presented =>
          dsimp only
          constructor
          · intro found
            split at found
            · next right => exact ⟨found, presented, rfl, right⟩
            · cases found
          · rintro ⟨same, secret, found, right⟩
            cases found
            rw [if_pos right, same]

/-- The code that answers a login which fails. -/
def Login.refusal (request : Request) : Code :=
  match request.identity? "uid", request.text? "secret" with
  | some _, some _ => Code.secretError
  | _, _ => Code.parameterError

theorem Login.refusal_cases (request : Request) :
    refusal request = Code.secretError ∨ refusal request = Code.parameterError := by
  unfold refusal
  split
  · exact .inl rfl
  · exact .inr rfl

/-- The account that a text logs in to: the text is the envelope of a login with an account number
and the right secret, and the session is at its start. -/
def Server.login? (server : Server (Features σ)) (connection : ConnectionId) (text : String) :
    Option Identity :=
  match Envelope.parse text with
  | .error _ => none
  | .ok envelope =>
      if envelope.value = Code.login ∧ server.registry.state? connection = some State.none then
        Login.account? server.memory.login ⟨connection, State.none, envelope.args⟩
      else none

namespace Server

section Login

variable (table : Table (Features σ)) (follower : Follower (Features σ))
  (server : Server (Features σ))

theorem follow_login_of_refused (heartbeat : Nat) (request : Request)
    (refused : Login.account? server.memory.login request = none) :
    follow table follower (Login.login heartbeat request) server =
      (.again, server.say [.envelope request.connection (Login.refusal request) .empty,
        ⟨request.connection, .close⟩]) := by
  unfold Login.login Login.refusal
  cases account : request.identity? "uid" with
  | none => exact follow_refuse _ _ _ _ _
  | some uid =>
      cases presented : request.text? "secret" with
      | none => exact follow_refuse _ _ _ _ _
      | some secret =>
          have wrong : ¬server.memory.login.secret = some secret := by
            intro right
            rw [Login.account?_eq_some_iff.mpr ⟨account, secret, presented, right⟩] at refused
            cases refused
          dsimp only
          rw [follow_recall, if_neg wrong, follow_refuse]

theorem follow_login_of_account {heartbeat : Nat} {request : Request} {uid : Identity}
    (account : Login.account? server.memory.login request = some uid)
    (isOpen : server.registry.contains request.connection = true) :
    follow table follower (Login.login heartbeat request) server =
      ended (dispatch table follower (server.enroll heartbeat request.connection uid)
        Code.playerCheck State.program request.connection (Login.checkArgs uid)) := by
  obtain ⟨account, secret, presented, right⟩ := Login.account?_eq_some_iff.mp account
  unfold Login.login
  rw [account, presented]
  dsimp only
  rw [follow_recall, if_pos right, follow_welcome _ _ _ _ isOpen]

end Login

/-! ## Dispatch -/

/-- A route for one state is closed to every other state. -/
theorem permits_of_ne {allowed state : State} (apart : state ≠ allowed) :
    (AllowedStates.ofList [allowed]).permits state = false := by
  rw [AllowedStates.permits_ofList]
  simp [apart]

theorem run_eq {μ : Type} (table : Table μ) :
    Server.run table = follow table (followWithin table (callDepth - 1)) := rfl

end Server

/-! ## Reactions -/

namespace Bundle

/-- What a sender can have done about its own player. -/
inductive Service where
  /-- The player is given gold. -/
  | grant
  /-- The player is shown. -/
  | view

namespace Service

def code : Service → Code
  | grant => Code.playerAddGold
  | view => Code.playerInfo

def handler [EntityStore σ Player] : Service → Handler (Features σ)
  | grant => Players.addGold
  | view => Players.info

/-- What happens to the record on the way, if it has room for it. -/
def change (now : UInt64) : Service → Option (Player → Option Player)
  | grant => some fun player => player.granted? now
  | view => none

def frames (connection : ConnectionId) (service : Service)
    (result : Option (Except StoreError (Option Player))) : List Frame :=
  match service with
  | grant => Players.goldFrames connection result
  | view => result.elim [] (Players.infoFrames connection)

end Service

/-- What the bundled providers make of a text. -/
inductive Reaction where
  /-- The sender is answered, and nothing else happens. -/
  | reply (outcome : FrameOutcome) (payloads : List Payload)
  /-- The sender logs in to the account. -/
  | login (uid : Identity)
  /-- The sender is served its own player. -/
  | serve (service : Service) (uid : Identity)

namespace Reaction

def ofLogin (memory : LoginMemory) (request : Request) : Reaction :=
  match Login.account? memory request with
  | some uid => .login uid
  | none =>
      .reply (.handled Code.login)
        [.text (Envelope.toText ⟨Login.refusal request, .empty⟩), .close]

/-- A sender is served if it plays and has an account. -/
def ofService (service : Service) (session : Session) : Reaction :=
  if Players.playing.permits session.state then
    match session.identity with
    | none => .reply (.handled service.code) []
    | some uid => .serve service uid
  else .reply (.rejected service.code session.state) []

def ofEnvelope (memory : LoginMemory) (connection : ConnectionId) (session : Session)
    (envelope : Envelope) : Reaction :=
  if envelope.value = Code.echo then
    .reply (.handled Code.echo)
      (if envelope.args.isEmpty then [] else [.text envelope.args.toText])
  else if envelope.value = Code.login then
    if session.state = State.none then ofLogin memory ⟨connection, State.none, envelope.args⟩
    else .reply (.rejected Code.login session.state) []
  else if envelope.value = Code.playerCheck then
    .reply (.rejected Code.playerCheck session.state) []
  else if envelope.value = Code.playerAddGold then ofService .grant session
  else if envelope.value = Code.playerInfo then ofService .view session
  else .reply (.unknownCode envelope.value) []

/-- The reaction to a text depends on the secret and on the session of the sender, and on no other
session and no record. -/
def ofText (memory : LoginMemory) (connection : ConnectionId) (session : Option Session)
    (text : String) : Reaction :=
  match Envelope.parse text with
  | .error .empty => .reply .empty []
  | .error _ => .reply .malformed []
  | .ok envelope =>
      match session with
      | none => .reply .unknownConnection []
      | some session => ofEnvelope memory connection session envelope

/-- The account that a reaction logs the sender in to. -/
def account? : Reaction → Option Identity
  | .login uid => some uid
  | _ => none

end Reaction

end Bundle

namespace Server

open SessionServer.Bundle

def reaction (server : Server (Features σ)) (connection : ConnectionId) (text : String) :
    Reaction :=
  .ofText server.memory.login connection (server.registry.session? connection) text

/-- The outcome of a text and the server after the reaction to it. What a login comes to is given. -/
def react [EntityStore σ Player] (server : Server (Features σ)) (connection : ConnectionId)
    (welcome : Identity → Option FrameOutcome × Server (Features σ)) :
    Reaction → Option FrameOutcome × Server (Features σ)
  | .reply outcome payloads =>
      (some outcome, server.say (payloads.map fun payload => ⟨connection, payload⟩))
  | .login uid => welcome uid
  | .serve service uid =>
      let (result, cache) := server.memory.cache.touch uid (service.change server.clock)
      (result.map fun _ => .handled service.code,
        (server.withCache cache).say (service.frames connection result))

end Server

/-! ## Inbound texts -/

namespace Bundle

open Server

section Receiving

variable {table : Table (Features σ)} {check : Handler (Features σ)}
  {heartbeat flushPeriod : Nat} {server : Server (Features σ)} {connection : ConnectionId}
  {text : String} {envelope : Envelope} {state : State}

/-- Only a session at its start can log in. -/
theorem state?_of_login? {uid : Identity} (login : server.login? connection text = some uid) :
    server.registry.state? connection = some State.none := by
  unfold Server.login? at login
  split at login
  · cases login
  · split at login
    · next both => exact both.2
    · cases login

theorem isOpen_of_login? {uid : Identity} (login : server.login? connection text = some uid) :
    server.registry.contains connection = true :=
  Registry.contains_of_state? (state?_of_login? login)

theorem account?_ofLogin (memory : LoginMemory) (request : Request) :
    (Reaction.ofLogin memory request).account? = Login.account? memory request := by
  unfold Reaction.ofLogin
  cases Login.account? memory request <;> rfl

theorem account?_ofService (service : Service) (session : Session) :
    (Reaction.ofService service session).account? = none := by
  unfold Reaction.ofService
  split
  · split <;> rfl
  · rfl

/-- The reaction to a text is a login just if the text is one. -/
theorem account?_reaction (server : Server (Features σ)) (connection : ConnectionId)
    (text : String) : (server.reaction connection text).account? = server.login? connection text := by
  unfold Server.reaction Reaction.ofText Server.login?
  cases Envelope.parse text with
  | error error => cases error <;> rfl
  | ok envelope =>
      unfold Registry.state?
      cases server.registry.session? connection with
      | none => simp [Reaction.account?]
      | some session =>
          have distinct : Code.echo ≠ Code.login := by decide
          simp only [Reaction.ofEnvelope, Option.map_some, Option.some.injEq]
          split
          · next echo => simp [echo, distinct, Reaction.account?]
          split
          · next login =>
              split
              · next starts => simp [login, starts, account?_ofLogin]
              · next started => simp [started, Reaction.account?]
          · next apart =>
              simp only [apart, false_and, if_false]
              split
              · rfl
              split
              · exact account?_ofService .grant session
              split
              · exact account?_ofService .view session
              · rfl

theorem of_ofService {service wanted : Service} {session : Session} {uid : Identity}
    (serves : Reaction.ofService service session = .serve wanted uid) :
    service = wanted ∧ session.identity = some uid := by
  unfold Reaction.ofService at serves
  split at serves
  · split at serves
    · cases serves
    · next bound =>
        cases serves
        exact ⟨rfl, bound⟩
  · cases serves

/-- Whoever is served has asked for it and has the account of the player. -/
theorem of_reaction_serve {service : Service} {uid : Identity}
    (serves : server.reaction connection text = .serve service uid) :
    (∃ args, Envelope.parse text = .ok ⟨service.code, args⟩) ∧
      server.registry.identity? connection = some uid := by
  unfold Server.reaction Reaction.ofText at serves
  cases parsed : Envelope.parse text with
  | error error =>
      rw [parsed] at serves
      cases error <;> cases serves
  | ok envelope =>
      rw [parsed] at serves
      cases found : server.registry.session? connection with
      | none =>
          rw [found] at serves
          cases serves
      | some session =>
          rw [found] at serves
          dsimp only at serves
          have asked : ∀ wanted : Service, envelope.value = wanted.code →
              Reaction.ofService wanted session = .serve service uid →
                (∃ args, (.ok envelope : Except EnvelopeError Envelope) = .ok ⟨service.code, args⟩) ∧
                  server.registry.identity? connection = some uid := by
            intro wanted code serving
            obtain ⟨rfl, bound⟩ := of_ofService serving
            refine ⟨⟨envelope.args, ?_⟩, Registry.identity?_eq_some_iff.mpr ⟨session, found, bound⟩⟩
            rw [← code]
          unfold Reaction.ofEnvelope at serves
          split at serves
          · cases serves
          split at serves
          · unfold Reaction.ofLogin at serves
            split at serves
            · split at serves <;> cases serves
            · cases serves
          split at serves
          · cases serves
          split at serves
          · next grants => exact asked .grant grants serves
          split at serves
          · next views => exact asked .view views serves
          · cases serves

theorem receive_of_parsed (parsed : Envelope.parse text = .ok envelope)
    (known : server.registry.state? connection = some state) :
    server.receive table connection text =
      dispatch table (Server.run table) server envelope.value state connection envelope.args :=
  receiveWith_of_parsed parsed known

variable [EntityStore σ Player]

/-- A reaction without an answer leaves no trace. -/
theorem react_reply_nil (server : Server (Features σ)) (connection : ConnectionId)
    (welcome : Identity → Option FrameOutcome × Server (Features σ)) (outcome : FrameOutcome) :
    server.react connection welcome (.reply outcome []) = (some outcome, server) := by
  rw [react, List.map_nil, say_nil]

section Codes

variable {session : Session}

private theorem dispatch_echo (serves : Serves table check heartbeat flushPeriod)
    (server : Server (Features σ)) (connection : ConnectionId) (state : State) (args : Args) :
    dispatch table (Server.run table) server Code.echo state connection args =
      (some (.handled Code.echo),
        server.say ((if args.isEmpty then [] else [Payload.text args.toText]).map
          fun payload => ⟨connection, payload⟩)) := by
  rw [dispatch_of_permitted _ _ _ _ serves.echo rfl, run_eq, follow_echo]
  split
  · exact congrArg (Prod.mk _) (say_nil server).symm
  · rfl

private theorem dispatch_login (serves : Serves table check heartbeat flushPeriod)
    (found : server.registry.session? connection = some session) (args : Args) :
    dispatch table (Server.run table) server Code.login session.state connection args =
      server.react connection
        (fun uid => concluded Code.login (followWithin table (callDepth - 1)
          (check ⟨connection, State.program, Login.checkArgs uid⟩)
          (server.enroll heartbeat connection uid)))
        (if session.state = State.none then
          .ofLogin server.memory.login ⟨connection, State.none, args⟩
        else .reply (.rejected Code.login session.state) []) := by
  split
  · next starts =>
      have permitted : (AllowedStates.ofList [State.none]).permits State.none = true := by decide
      have checks : (AllowedStates.ofList [State.program]).permits State.program = true := by
        decide
      rw [starts, dispatch_of_permitted _ _ _ _ serves.login permitted, run_eq,
        Reaction.ofLogin]
      cases account : Login.account? server.memory.login ⟨connection, State.none, args⟩ with
      | none =>
          rw [follow_login_of_refused _ _ _ _ _ account]
          rfl
      | some uid =>
          have isOpen := Registry.contains_iff.mpr ⟨session, found⟩
          rw [follow_login_of_account table _ server account isOpen,
            dispatch_of_permitted _ _ _ _ serves.check checks]
          show concluded Code.login (ended (concluded Code.playerCheck _)) = concluded Code.login _
          generalize followWithin table _ _ _ = followed
          obtain ⟨ending, after⟩ := followed
          cases ending <;> rfl
  · next started =>
      rw [dispatch_of_forbidden _ _ _ _ serves.login (permits_of_ne started), react_reply_nil]

theorem Serves.service (serves : Serves table check heartbeat flushPeriod) (service : Service) :
    table.get? service.code =
      some ⟨service.code, Players.playing, "player", service.handler⟩ := by
  cases service with
  | grant => exact serves.addGold
  | view => exact serves.info

theorem follow_service (table : Table (Features σ)) (follower : Follower (Features σ))
    (server : Server (Features σ)) (service : Service) (connection : ConnectionId) (state : State)
    (args : Args) :
    follow table follower (service.handler ⟨connection, state, args⟩) server =
      match server.registry.identity? connection with
      | none => (.again, server)
      | some uid =>
          let (result, cache) := server.memory.cache.touch uid (service.change server.clock)
          (if result.isSome then .again else .aborted,
            (server.withCache cache).say (service.frames connection result)) := by
  cases service with
  | grant =>
      simp only [Service.change, ← Cache.revise_eq_touch]
      exact follow_addGold table follower server connection state args
  | view =>
      simp only [Service.change, Cache.touch_none]
      exact follow_info table follower server connection state args

private theorem dispatch_service (serves : Serves table check heartbeat flushPeriod)
    (found : server.registry.session? connection = some session) (service : Service) (args : Args)
    (welcome : Identity → Option FrameOutcome × Server (Features σ)) :
    dispatch table (Server.run table) server service.code session.state connection args =
      server.react connection welcome (.ofService service session) := by
  have identity : server.registry.identity? connection = session.identity := by
    rw [Registry.identity?, found, Option.bind_some]
  unfold Reaction.ofService
  cases permitted : Players.playing.permits session.state with
  | false =>
      rw [dispatch_of_forbidden _ _ _ _ (serves.service service) permitted,
        if_neg Bool.false_ne_true, react_reply_nil]
  | true =>
      rw [dispatch_of_permitted _ _ _ _ (serves.service service) permitted, if_pos rfl, run_eq,
        follow_service, identity]
      cases session.identity with
      | none => exact (react_reply_nil server connection welcome _).symm
      | some uid =>
          dsimp only [react]
          rcases server.memory.cache.touch uid (service.change server.clock) with
            ⟨_ | result, cache⟩ <;> rfl

end Codes

/-- Every text comes to the reaction to it, whatever handler stands behind the check of players; a
login that is admitted goes on with that check and leaves it the last word. -/
theorem receive_eq_react (serves : Serves table check heartbeat flushPeriod)
    (outside : server.registry.state? connection ≠ some State.program) :
    server.receive table connection text =
      server.react connection
        (fun uid => concluded Code.login (followWithin table (callDepth - 1)
          (check ⟨connection, State.program, Login.checkArgs uid⟩)
          (server.enroll heartbeat connection uid)))
        (server.reaction connection text) := by
  have silent := fun welcome outcome => (react_reply_nil server connection welcome outcome).symm
  unfold Server.receive receiveWith Server.reaction Reaction.ofText
  cases Envelope.parse text with
  | error error => cases error <;> exact silent _ _
  | ok envelope =>
      unfold Registry.state? at outside ⊢
      cases found : server.registry.session? connection with
      | none => exact silent _ _
      | some session =>
          have inside : session.state ≠ State.program := by
            intro program
            rw [found, Option.map_some, program] at outside
            exact outside rfl
          dsimp only [Option.map_some]
          unfold Reaction.ofEnvelope
          split
          · next echo =>
              rw [echo]
              exact dispatch_echo serves server connection _ _
          split
          · next login =>
              rw [login]
              exact dispatch_login serves found _
          split
          · next check =>
              rw [check, dispatch_of_forbidden _ _ _ _ serves.check (permits_of_ne inside)]
              exact silent _ _
          split
          · next addGold =>
              rw [addGold]
              exact dispatch_service serves found .grant _ _
          split
          · next info =>
              rw [info]
              exact dispatch_service serves found .view _ _
          · next echo login check addGold info =>
              have unknown := serves.others envelope.value (by
                simp [echo, login, check, addGold, info])
              rw [dispatch_of_unknown _ _ _ _ unknown]
              exact silent _ _

/-- A successful login goes on with the check of the player and leaves it the last word. -/
theorem receive_of_login (serves : Serves table check heartbeat flushPeriod) {uid : Identity}
    (login : server.login? connection text = some uid) :
    server.receive table connection text =
      concluded Code.login (followWithin table (callDepth - 1)
        (check ⟨connection, State.program, Login.checkArgs uid⟩)
        (server.enroll heartbeat connection uid)) := by
  have outside : server.registry.state? connection ≠ some State.program := by
    rw [state?_of_login? login]
    decide
  rw [receive_eq_react serves outside]
  rw [← account?_reaction] at login
  generalize server.reaction connection text = reaction at login ⊢
  cases reaction <;> cases login
  rfl

/-! ### Answers without a login -/

/-- What a text can come to that is not a successful login. -/
inductive Answered (server : Server (Features σ)) (connection : ConnectionId) :
    Option FrameOutcome × Server (Features σ) → Prop where
  /-- Nothing happens. -/
  | ignored (outcome : FrameOutcome) : Answered server connection (some outcome, server)
  /-- The arguments go back. -/
  | echoed (args : Args) (ascending : args.Ascending) :
      Answered server connection
        (some (.handled Code.echo), server.say [⟨connection, .text args.toText⟩])
  /-- A login without the right parameters or the right secret. -/
  | refused (reason : Code) (known : reason = Code.secretError ∨ reason = Code.parameterError) :
      Answered server connection
        (some (.handled Code.login),
          server.say [.envelope connection reason .empty, ⟨connection, .close⟩])
  /-- Gold is granted; where the record has no room for it the request breaks off. -/
  | granted (uid : Identity) (holds : server.registry.identity? connection = some uid) :
      Answered server connection
        (let (result, cache) :=
          server.memory.cache.revise uid fun player => player.granted? server.clock
        (result.map fun _ => .handled Code.playerAddGold,
          (server.withCache cache).say (Players.goldFrames connection result)))
  | shown (uid : Identity) (holds : server.registry.identity? connection = some uid) :
      Answered server connection
        (some (.handled Code.playerInfo),
          let (result, cache) := server.memory.cache.get uid
          (server.withCache cache).say (Players.infoFrames connection result))

private theorem answered_serve (service : Service) {uid : Identity}
    (holds : server.registry.identity? connection = some uid)
    (welcome : Identity → Option FrameOutcome × Server (Features σ)) :
    Answered server connection (server.react connection welcome (.serve service uid)) := by
  cases service with
  | grant =>
      simp only [react, Service.change, ← Cache.revise_eq_touch]
      exact .granted uid holds
  | view =>
      simp only [react, Service.change, Cache.touch_none]
      exact .shown uid holds

/-- Whatever a reaction other than a login comes to is one of the answers. -/
private theorem answered_react (apart : (server.reaction connection text).account? = none)
    (welcome : Identity → Option FrameOutcome × Server (Features σ)) :
    Answered server connection
      (server.react connection welcome (server.reaction connection text)) := by
  have ignored : ∀ outcome,
      Answered server connection (server.react connection welcome (.reply outcome [])) := by
    intro outcome
    rw [react_reply_nil]
    exact .ignored outcome
  unfold Server.reaction Reaction.ofText at apart ⊢
  cases parsed : Envelope.parse text with
  | error error => cases error <;> exact ignored _
  | ok envelope =>
      rw [parsed] at apart
      cases found : server.registry.session? connection with
      | none => exact ignored _
      | some session =>
          rw [found] at apart
          have served : ∀ service, Answered server connection
              (server.react connection welcome (.ofService service session)) := by
            intro service
            unfold Reaction.ofService
            split
            · split
              · exact ignored _
              · next uid bound =>
                  exact answered_serve service
                    (Registry.identity?_eq_some_iff.mpr ⟨session, found, bound⟩) welcome
            · exact ignored _
          dsimp only at apart ⊢
          unfold Reaction.ofEnvelope at apart ⊢
          split
          · split
            · exact ignored _
            · exact .echoed _ (Envelope.parse_ascending parsed)
          · next echo =>
              rw [if_neg echo] at apart
              split
              · next login =>
                  rw [if_pos login] at apart
                  split
                  · next starts =>
                      rw [if_pos starts, account?_ofLogin] at apart
                      rw [Reaction.ofLogin, apart]
                      exact .refused _ (Login.refusal_cases _)
                  · exact ignored _
              split
              · exact ignored _
              split
              · exact served .grant
              split
              · exact served .view
              · exact ignored _

/-- Any text that is not a successful login comes to the same with every table, whatever handler
stands behind the check of players. -/
theorem answered (apart : server.login? connection text = none)
    (outside : server.registry.state? connection ≠ some State.program) :
    ∃ result, Answered server connection result ∧
      ∀ {table : Table (Features σ)} {check : Handler (Features σ)} {heartbeat flushPeriod : Nat},
        Serves table check heartbeat flushPeriod →
          server.receive table connection text = result := by
  rw [← account?_reaction] at apart
  refine ⟨server.react connection (fun _ => (none, server)) (server.reaction connection text),
    answered_react apart _, ?_⟩
  intro table check heartbeat flushPeriod serves
  rw [receive_eq_react serves outside]
  -- The reaction is no login, so it does not matter what a login would come to.
  generalize server.reaction connection text = reaction at apart ⊢
  cases reaction with
  | login uid => cases apart
  | reply outcome payloads => rfl
  | serve service uid => rfl

end Receiving

end Bundle

end SessionServer
