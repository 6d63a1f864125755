import Mathlib.Algebra.Group.Int.Defs
import SessionServer.Proofs.Registry.Sessions
import SessionServer.Proofs.Scheduler.Bodies
import SessionServer.Proofs.Wire.Opening
import SessionServer.Provider.Echo
import SessionServer.Provider.Login
import SessionServer.Provider.Players
import SessionServer.Server

/-!
Contract: what following the procedures of the bundled providers does to a server.

Owns:
- `Server.say`, `Server.withCache` and `Server.enroll`, the changes to which these procedures
  amount;
- `Player.granted?_eq_some_iff` and `Player.granted?_eq_none_iff`, what a grant makes of a balance;
- `Cache.enter`, what the check of a player does to the records;
- one equation for every handler, hook and task body.

Does not own: which handler an inbound text reaches.
-/

namespace SessionServer

/-! ## Changes of a server -/

/-- The frames that tell the holder of an account that another connection takes it over. -/
def Registry.notices (registry : Registry) (connection : ConnectionId) (uid : Identity) :
    List Frame :=
  match registry.holder? uid with
  | none => []
  | some previous =>
      if previous = connection then []
      else [.envelope previous Code.otherLogin .empty, ⟨previous, .close⟩]

namespace Server

section Queue

variable {μ : Type}

/-- Queues frames one behind the other. -/
def say (server : Server μ) (frames : List Frame) : Server μ :=
  { server with queue := ⟨server.queue.frames ++ frames⟩ }

theorem say_nil (server : Server μ) : server.say [] = server := by
  unfold say
  rw [List.append_nil]

theorem say_say (server : Server μ) (first second : List Frame) :
    (server.say first).say second = server.say (first ++ second) := by
  unfold say
  rw [List.append_assoc]

end Queue

/-! ## Requests -/

section Requests

variable {μ : Type} (table : Table μ) (follower : Follower μ) (server : Server μ)

theorem follow_recall (next : μ → Procedure μ) :
    follow table follower (.recall next) server =
      follow table follower (next server.memory) server := rfl

theorem follow_remember (memory : μ) (next : Procedure μ) :
    follow table follower (.remember memory next) server =
      follow table follower next { server with memory } := rfl

theorem follow_session (connection : ConnectionId) (next : Option Session → Procedure μ) :
    follow table follower (.session connection next) server =
      follow table follower (next (server.registry.session? connection)) server := rfl

theorem follow_setState (connection : ConnectionId) (state : State)
    (next : Bool → Procedure μ) :
    follow table follower (.setState connection state next) server =
      follow table follower (next (server.setState connection state).1)
        (server.setState connection state).2 := rfl

theorem follow_bindIdentity {connection : ConnectionId}
    (isOpen : server.registry.contains connection = true) (identity : Identity)
    (next : Bool → Procedure μ) :
    follow table follower (.bindIdentity connection identity next) server =
      follow table follower (next true)
        { server with registry := (server.registry.bind connection identity).2 } := by
  obtain ⟨session, found⟩ := Registry.contains_iff.mp isOpen
  show follow table follower (next (server.bind connection identity).1)
    (server.bind connection identity).2 = _
  unfold Server.bind Registry.bind
  rw [found]

theorem follow_clock (next : UInt64 → Procedure μ) :
    follow table follower (.clock next) server =
      follow table follower (next server.clock) server := rfl

theorem follow_push (connection : ConnectionId) (code : Code) (args : Args)
    (next : Procedure μ) :
    follow table follower (.push connection code args next) server =
      follow table follower next (server.say [.envelope connection code args]) := rfl

theorem follow_quit (connection : ConnectionId) (next : Procedure μ) :
    follow table follower (.quit connection next) server =
      follow table follower next (server.say [⟨connection, .close⟩]) := rfl

theorem follow_schedule (timing : Timing) (body : Procedure μ) (next : TaskId → Procedure μ) :
    follow table follower (.schedule timing body next) server =
      follow table follower (next (server.schedule timing body).1)
        (server.schedule timing body).2 := rfl

/-- How a procedure ends whose last act is a call to another handler. -/
def ended {μ : Type} : Option FrameOutcome × Server μ → Ending × Server μ
  | (none, server) => (.aborted, server)
  | (some _, server) => (.again, server)

theorem follow_invoke_done (code : Code) (state : State) (connection : ConnectionId)
    (args : Args) :
    follow table follower (.invoke code state connection args fun _ => .done) server =
      ended (dispatch table follower server code state connection args) := by
  rw [follow]
  rcases dispatch table follower server code state connection args with ⟨_ | outcome, after⟩
  · rfl
  · rfl

end Requests

variable {σ : Type}

/-- Replaces the cache of the players' records. -/
def withCache (server : Server (Features σ)) (cache : Cache Player σ) : Server (Features σ) :=
  { server with memory := server.memory.withCache cache }

/-- The server when a login has been accepted and the player of the account is to be checked. -/
def enroll (server : Server (Features σ)) (heartbeat : Nat) (connection : ConnectionId)
    (uid : Identity) : Server (Features σ) :=
  let welcomed :=
    { server with registry := server.registry.enroll connection uid }.say <|
      server.registry.notices connection uid ++
        [Frame.envelope connection Code.loginSuccess (Login.successArgs uid server.clock)]
  (welcomed.schedule (.session connection heartbeat) (Login.beat connection)).2

/-! ## Sessions -/

section Sessions

variable (table : Table (Features σ)) (follower : Follower (Features σ))
  (server : Server (Features σ)) (connection : ConnectionId)

theorem follow_echo (state : State) (args : Args) :
    follow table follower (Echo.echo ⟨connection, state, args⟩) server =
      (.again, if args.isEmpty then server else server.say [⟨connection, .text args.toText⟩]) := by
  unfold Echo.echo
  split
  · rfl
  · rfl

theorem follow_refuse (reason : Code) :
    follow table follower (Login.refuse connection reason) server =
      (.again, server.say [.envelope connection reason .empty, ⟨connection, .close⟩]) := by
  rw [Login.refuse, follow_push, follow_quit, say_say]
  rfl

theorem follow_evict (uid : Identity) (next : Procedure (Features σ)) :
    follow table follower (Login.evict uid connection next) server =
      follow table follower next (server.say (server.registry.notices connection uid)) := by
  show follow table follower
    (match server.registry.holder? uid with
      | none => next
      | some previous =>
          if previous = connection then next
          else .push previous Code.otherLogin .empty <| .quit previous next) server = _
  rw [Registry.notices]
  cases server.registry.holder? uid with
  | none => rw [say_nil]
  | some previous =>
      dsimp only
      split
      · rw [say_nil]
      · rw [follow_push, follow_quit, say_say]
        rfl

/-- A welcome ends with the check of the player. -/
theorem follow_welcome (isOpen : server.registry.contains connection = true) (heartbeat : Nat)
    (uid : Identity) :
    follow table follower (Login.welcome heartbeat uid connection) server =
      ended (dispatch table follower (server.enroll heartbeat connection uid) Code.playerCheck
        State.program connection (Login.checkArgs uid)) := by
  have stillOpen : (server.say (server.registry.notices connection uid)).registry.contains
      connection = true := isOpen
  rw [Login.welcome, follow_evict, follow_bindIdentity _ _ _ stillOpen, if_pos rfl,
    follow_setState, follow_clock, follow_push, follow_schedule, follow_invoke_done, enroll,
    ← say_say]
  rfl

/-- Scheduling changes the scheduler only, and not its clock. -/
theorem schedule_eq (timing : Timing) (body : Procedure (Features σ)) :
    ∃ scheduler, (server.schedule timing body).2 = { server with scheduler } ∧
      scheduler.now = server.scheduler.now := by
  unfold schedule
  split
  · split
    · exact ⟨_, rfl, Scheduler.now_schedule _ _⟩
    · exact ⟨_, rfl, rfl⟩
  · exact ⟨_, rfl, Scheduler.now_schedule _ _⟩

/-- A session task is bound to its connection, or not scheduled at all. -/
theorem scheduler_schedule_session (period : Nat) (body : Procedure (Features σ)) :
    (server.schedule (.session connection period) body).2.scheduler =
      if server.isOpen connection then
        (server.scheduler.schedule (.session connection period) (body.whileOpen connection)).2
      else server.scheduler.refuse.2 := by
  cases known : server.isOpen connection <;> simp only [schedule, known] <;> rfl

/-- What an admitted login leaves behind, tasks aside. -/
theorem enroll_eq (heartbeat : Nat) (uid : Identity) :
    ∃ scheduler, server.enroll heartbeat connection uid =
        { server.say (server.registry.notices connection uid ++
            [.envelope connection Code.loginSuccess (Login.successArgs uid server.clock)]) with
          registry := server.registry.enroll connection uid
          scheduler } ∧
      scheduler.now = server.scheduler.now :=
  schedule_eq _ _ _

/-- A heartbeat is sent while the connection is open, and only then goes on. -/
theorem follow_beat :
    follow table follower ((Login.beat connection).whileOpen connection) server =
      if server.registry.contains connection then
        (.again, server.say [.envelope connection Code.heartbeat
          (Args.ofList [("heartbeat", .integer server.clock.toNat)])])
      else (.stop, server) := by
  rw [Procedure.whileOpen, follow_session]
  cases found : server.registry.session? connection with
  | none =>
      rw [Registry.contains, found]
      rfl
  | some session =>
      have isOpen : server.registry.contains connection = true :=
        Registry.contains_iff.mpr ⟨session, found⟩
      rw [if_pos isOpen]
      show (if (server.registry.session? connection).isSome then Ending.again else .stop, _) = _
      rw [found]
      rfl

end Sessions

end Server

/-! ## Players' records -/

namespace Player

variable {player richer : Player} {now : UInt64}

/-- A grant adds a hundred to the gold and notes the time. -/
theorem granted?_eq_some_iff :
    player.granted? now = some richer ↔
      richer.gold.toInt = player.gold.toInt + 100 ∧
        richer = { player with gold := richer.gold, updateTime := now } := by
  have hundred : grant.toInt = 100 := rfl
  rw [granted?, hundred]
  constructor
  · intro granted
    obtain ⟨exact, same⟩ := Option.ite_none_right_eq_some.mp granted
    cases same
    exact ⟨exact, rfl⟩
  · rintro ⟨exact, whole⟩
    have sum : player.gold + grant = richer.gold := by
      rw [← Int64.ofInt_toInt richer.gold, exact, Int64.ofInt_add, Int64.ofInt_toInt]
      rfl
    rw [sum, if_pos exact, ← whole]

/-- There is no grant where the sum lies beyond the word. -/
theorem granted?_eq_none_iff : player.granted? now = none ↔ 2 ^ 63 ≤ player.gold.toInt + 100 := by
  have hundred : grant.toInt = 100 := rfl
  have least := player.gold.le_toInt
  have greatest := player.gold.toInt_lt
  have sum : (player.gold + grant).toInt = (player.gold.toInt + 100).bmod (2 ^ 64) :=
    Int64.toInt_add player.gold grant
  have fits := (player.gold + grant).toInt_lt
  rw [granted?, hundred, ite_eq_right_iff]
  constructor
  · intro overflows
    refine Int.not_lt.mp fun room => ?_
    have same : (player.gold.toInt + 100).bmod (2 ^ 64) = player.gold.toInt + 100 := by
      apply Int.bmod_eq_of_le <;> omega
    cases overflows (sum.trans same)
  · intro full exact
    omega

end Player

/-- Loads or creates the record of an account; answers the record and whether it is new. -/
def Cache.enter {σ : Type} [EntityStore σ Player] (cache : Cache Player σ) (uid : Identity)
    (now : UInt64) : Option (Player × Bool) × Cache Player σ :=
  match cache.get uid with
  | (.ok (some player), cache) => (some (player, false), cache)
  | (.ok none, cache) =>
      let (result, cache) := cache.create (Player.fresh uid now)
      (result.toOption.map fun player => (player, true), cache)
  | (.error _, cache) => (none, cache)

namespace Players

/-- The frames that send a client to the scene of its player. -/
def sceneFrames (connection : ConnectionId) : Option (Player × Bool) → List Frame
  | none => []
  | some (player, created) =>
      [.envelope connection Code.changeScene <|
        Args.ofList [("scene", .integer player.scene.toInt), ("create", .bool created)]]

/-- The frames that answer a grant of gold; where it breaks off there is no result. -/
def goldFrames (connection : ConnectionId) :
    Option (Except StoreError (Option Player)) → List Frame
  | some (.ok (some player)) =>
      [.envelope connection Code.playerGold (Args.ofList [("gold", .integer player.gold.toInt)])]
  | _ => []

/-- The frames that show the record of a player. -/
def infoFrames (connection : ConnectionId) : Except StoreError (Option Player) → List Frame
  | .ok (some player) =>
      [.envelope connection Code.playerInfoResult (Args.ofList [("player", player.toJson)])]
  | _ => []

end Players

namespace Server

section Records

variable {σ : Type} [EntityStore σ Player] (table : Table (Features σ))
  (follower : Follower (Features σ)) (server : Server (Features σ)) (connection : ConnectionId)

omit [EntityStore σ Player] in
theorem identity?_checkArgs (state : State) (uid : Identity) :
    Request.identity? ⟨connection, state, Login.checkArgs uid⟩ "uid" = some uid := by
  have found : (Login.checkArgs uid).get? "uid" = some (.integer uid.toInt) := by
    show (Args.insert .empty "uid" (.integer uid.toInt)).get? "uid" = _
    rw [Args.get?_insert, if_pos rfl]
  have fits : Json.leastInteger ≤ uid.toInt ∧ uid.toInt < Json.signedBound :=
    ⟨uid.le_toInt, uid.toInt_lt⟩
  rw [Request.identity?, Request.integer?, found, Option.bind_some, Json.integer?, if_pos fits,
    Option.map_some, Int64.ofInt_toInt]

theorem follow_create (uid : Identity) :
    follow table follower (Players.create connection uid) server =
      let (result, cache) := server.memory.cache.create (Player.fresh uid server.clock)
      (.again, (server.withCache cache).say <|
        Players.sceneFrames connection (result.toOption.map fun player => (player, true))) := by
  rw [Players.create, follow_clock, follow_recall]
  rcases server.memory.cache.create (Player.fresh uid server.clock) with ⟨error | player, cache⟩
  · dsimp only [Except.toOption, Option.map_none, Players.sceneFrames]
    rw [say_nil]
    rfl
  · rfl

theorem follow_check (state : State) (uid : Identity) :
    follow table follower (Players.check ⟨connection, state, Login.checkArgs uid⟩) server =
      (.again,
        (server.withCache (server.memory.cache.enter uid server.clock).2).say
          (Players.sceneFrames connection (server.memory.cache.enter uid server.clock).1)) := by
  unfold Players.check
  rw [identity?_checkArgs]
  dsimp only
  rw [follow_recall, Cache.enter]
  rcases server.memory.cache.get uid with ⟨error | player, cache⟩
  · rw [Players.sceneFrames, say_nil]
    rfl
  · cases player with
    | some player => rfl
    | none =>
        dsimp only
        rw [follow_remember, follow_create]
        rfl

omit [EntityStore σ Player] in
theorem follow_withIdentity (next : Identity → Procedure (Features σ)) :
    follow table follower (Players.withIdentity connection next) server =
      match server.registry.identity? connection with
      | none => (.again, server)
      | some uid => follow table follower (next uid) server := by
  rw [Players.withIdentity, follow_session]
  show follow table follower
    (match server.registry.identity? connection with | none => _ | some uid => next uid) server = _
  cases server.registry.identity? connection with
  | none => rfl
  | some uid => rfl

theorem follow_addGold (state : State) (args : Args) :
    follow table follower (Players.addGold ⟨connection, state, args⟩) server =
      match server.registry.identity? connection with
      | none => (.again, server)
      | some uid =>
          let (result, cache) :=
            server.memory.cache.revise uid fun player => player.granted? server.clock
          (if result.isSome then .again else .aborted,
            (server.withCache cache).say (Players.goldFrames connection result)) := by
  rw [Players.addGold, follow_withIdentity]
  cases server.registry.identity? connection with
  | none => rfl
  | some uid =>
      dsimp only
      rw [follow_clock, follow_recall]
      rcases server.memory.cache.revise uid fun player => player.granted? server.clock with
        ⟨_ | error | _ | player, cache⟩
      · dsimp only [Players.goldFrames]
        rw [say_nil]
        rfl
      · dsimp only [Players.goldFrames]
        rw [say_nil]
        rfl
      · dsimp only [Players.goldFrames]
        rw [say_nil]
        rfl
      · rfl

theorem follow_info (state : State) (args : Args) :
    follow table follower (Players.info ⟨connection, state, args⟩) server =
      match server.registry.identity? connection with
      | none => (.again, server)
      | some uid =>
          let (result, cache) := server.memory.cache.get uid
          (.again, (server.withCache cache).say (Players.infoFrames connection result)) := by
  rw [Players.info, follow_withIdentity]
  cases server.registry.identity? connection with
  | none => rfl
  | some uid =>
      dsimp only
      rw [follow_recall]
      rcases server.memory.cache.get uid with ⟨error | _ | player, cache⟩
      · dsimp only [Players.infoFrames]
        rw [say_nil]
        rfl
      · dsimp only [Players.infoFrames]
        rw [say_nil]
        rfl
      · rfl

theorem follow_flush :
    follow table follower Players.flush server =
      (.again, server.withCache server.memory.cache.flush.2) := rfl

end Records

end Server

end SessionServer
