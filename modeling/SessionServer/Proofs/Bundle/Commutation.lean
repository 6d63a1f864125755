import SessionServer.Proofs.Bundle.Stopping

/-!
Contract: texts of different connections can trade places.

Owns:
- `Server.receiveBoth`, the answers to two texts and the server after both;
- `Bundle.Interchange`, what the two orders have in common;
- the theorem that two texts of different connections, neither of them a login, come to the same in
  either order.

It rests on the accounts: no two connections ever have the same one, so two texts never touch the
same record. A look-up fills the cache and may fail, so it counts as a touch as well. The store may
be of any kind, and nothing but the two texts happens in between.
-/

namespace SessionServer

variable {σ : Type}

/-- The text is not the envelope of a login. -/
def Envelope.NoLogin (text : String) : Prop :=
  ∀ envelope, Envelope.parse text = .ok envelope → envelope.value ≠ Code.login

instance (text : String) : Decidable (Envelope.NoLogin text) :=
  match parsed : Envelope.parse text with
  | .error _ => isTrue fun _ found => by cases parsed.symm.trans found
  | .ok envelope =>
      decidable_of_iff (envelope.value ≠ Code.login)
        ⟨fun apart _ found => Except.ok.inj (parsed.symm.trans found) ▸ apart,
          fun noLogin => noLogin envelope parsed⟩

theorem Server.login?_of_noLogin {text : String} (noLogin : Envelope.NoLogin text)
    (server : Server (Features σ)) (connection : ConnectionId) :
    server.login? connection text = none := by
  unfold Server.login?
  cases parsed : Envelope.parse text with
  | error error => rfl
  | ok envelope => exact if_neg fun both => noLogin envelope parsed both.1

/-- The answers to a text and to a second one behind it, and the server after both. -/
def Server.receiveBoth (table : Table (Features σ)) (server : Server (Features σ))
    (first second : ConnectionId × String) :
    (Option FrameOutcome × Option FrameOutcome) × Server (Features σ) :=
  let (answer, between) := server.receive table first.1 first.2
  let (another, after) := between.receive table second.1 second.2
  ((answer, another), after)

namespace Frame

/-- Nothing that is queued for one connection is for another. -/
theorem filter_eq_nil {receiver connection : ConnectionId} (apart : receiver ≠ connection)
    {frames : List Frame} (toReceiver : ∀ frame ∈ frames, frame.connection = receiver) :
    frames.filter (fun frame => frame.connection = connection) = [] := by
  rw [List.filter_eq_nil_iff]
  intro frame member
  simpa [toReceiver frame member] using apart

/-- Frames for two connections can trade places as far as each of the connections can tell. -/
theorem filter_append_comm {first second : ConnectionId} (apart : first ≠ second)
    {frames others : List Frame} (toFirst : ∀ frame ∈ frames, frame.connection = first)
    (toSecond : ∀ frame ∈ others, frame.connection = second) (connection : ConnectionId) :
    (frames ++ others).filter (fun frame => frame.connection = connection) =
      (others ++ frames).filter (fun frame => frame.connection = connection) := by
  rw [List.filter_append, List.filter_append]
  by_cases same : second = connection
  · rw [filter_eq_nil (fun also => apart (also.trans same.symm)) toFirst, List.append_nil,
      List.nil_append]
  · rw [filter_eq_nil same toSecond, List.append_nil, List.nil_append]

end Frame

namespace Bundle

open Server

variable [EntityStore σ Player]

/-! ## Reactions one after the other -/

/-- What comes of a text besides a login. -/
structure Result (σ : Type) where
  outcome : Option FrameOutcome
  frames : List Frame
  cache : Cache Player σ

/-- What comes of a reaction at a given time with given records, unless it is a login. -/
def Reaction.result? (connection : ConnectionId) (now : UInt64) (cache : Cache Player σ) :
    Reaction → Option (Result σ)
  | .reply outcome payloads =>
      some ⟨some outcome, payloads.map fun payload => ⟨connection, payload⟩, cache⟩
  | .login _ => none
  | .serve service uid =>
      some
        { outcome := (cache.touch uid (service.change now)).1.map fun _ => .handled service.code
          frames := service.frames connection (cache.touch uid (service.change now)).1
          cache := (cache.touch uid (service.change now)).2 }

/-- The account whose record a reaction touches. -/
def Reaction.touched? : Reaction → Option Identity
  | .serve _ uid => some uid
  | _ => none

section Results

variable {reaction : Reaction} {connection : ConnectionId} {now : UInt64}
  {cache : Cache Player σ} {result : Result σ}

theorem exists_result? (calm : reaction.account? = none) (connection : ConnectionId) (now : UInt64)
    (cache : Cache Player σ) : ∃ result, reaction.result? connection now cache = some result := by
  cases reaction with
  | reply outcome payloads => exact ⟨_, rfl⟩
  | login uid => cases calm
  | serve service uid => exact ⟨_, rfl⟩

theorem connection_of_result? (comes : reaction.result? connection now cache = some result) :
    ∀ frame ∈ result.frames, frame.connection = connection := by
  intro frame member
  cases reaction with
  | reply outcome payloads =>
      cases comes
      obtain ⟨payload, -, rfl⟩ := List.mem_map.mp member
      rfl
  | login uid => cases comes
  | serve service uid =>
      cases comes
      exact Service.connection_of_mem_frames member

theorem react_of_result? {server : Server (Features σ)}
    (comes : reaction.result? connection server.clock server.memory.cache = some result)
    (welcome : Identity → Option FrameOutcome × Server (Features σ)) :
    server.react connection welcome reaction =
      (result.outcome, (server.withCache result.cache).say result.frames) := by
  cases reaction with
  | reply outcome payloads =>
      cases comes
      rfl
  | login uid => cases comes
  | serve service uid =>
      cases comes
      rfl

/-- Nothing is left without an answer but a grant for which the record has no room. -/
theorem full_of_result? (comes : reaction.result? connection now cache = some result)
    (unanswered : result.outcome = none) :
    ∃ uid player, reaction = .serve .grant uid ∧ cache.fetch uid = .ok (some player) ∧
      2 ^ 63 ≤ player.gold.toInt + 100 := by
  cases reaction with
  | reply outcome payloads =>
      cases comes
      cases unanswered
  | login uid => cases comes
  | serve service uid =>
      cases comes
      obtain ⟨apply, player, change, there, broken⟩ :=
        Cache.of_fst_touch_eq_none (Option.map_eq_none_iff.mp unanswered)
      cases service with
      | grant =>
          cases change
          exact ⟨uid, player, rfl, there, Player.granted?_eq_none_iff.mp broken⟩
      | view => cases change

/-- Reactions that touch different records do not notice each other. -/
theorem result?_comm {other : Reaction} {another : ConnectionId}
    (apart : ∀ uid, reaction.touched? = some uid → other.touched? ≠ some uid) {mine yours : Result σ}
    (first : reaction.result? connection now cache = some mine)
    (second : other.result? another now cache = some yours) :
    ∃ after, other.result? another now mine.cache = some { yours with cache := after } ∧
      reaction.result? connection now yours.cache = some { mine with cache := after } := by
  cases reaction with
  | login uid => cases first
  | reply outcome payloads =>
      cases first
      exact ⟨yours.cache, second, rfl⟩
  | serve service uid =>
      cases other with
      | login account => cases second
      | reply outcome payloads =>
          cases second
          exact ⟨mine.cache, rfl, first⟩
      | serve task account =>
          have different : uid ≠ account := fun same => apart uid rfl (congrArg some same.symm)
          cases first
          cases second
          refine ⟨((cache.touch uid (service.change now)).2.touch account (task.change now)).2,
            ?_, ?_⟩
          · simp only [Reaction.result?, cache.fst_touch_touch different]
          · simp only [Reaction.result?, cache.fst_touch_touch (Ne.symm different),
              cache.snd_touch_comm different]

end Results

/-! ## Texts one after the other -/

/-- The player of the connection has so much gold that there is no room for a grant. -/
def Full (server : Server (Features σ)) (connection : ConnectionId) : Prop :=
  ∃ uid player, server.registry.identity? connection = some uid ∧
    server.memory.cache.fetch uid = .ok (some player) ∧ 2 ^ 63 ≤ player.gold.toInt + 100

/-- What two orders of two texts have in common: the answers, the sessions, the tasks, the records
in memory and in the store with the marks of the changed ones, and for each connection the frames
that are queued for it. -/
structure Interchange (before : Server (Features σ)) (first second : ConnectionId)
    (left right : (Option FrameOutcome × Option FrameOutcome) × Server (Features σ)) : Prop where
  /-- A text breaks off in both orders or in neither, and does so only if its sender has no room for
  gold. -/
  answered : ∃ answer another, left.1 = (answer, another) ∧ right.1 = (another, answer) ∧
    (answer = none → Full before first) ∧ (another = none → Full before second)
  registry : left.2.registry = right.2.registry
  scheduler : left.2.scheduler = right.2.scheduler
  memory : left.2.memory = right.2.memory
  epoch : left.2.epoch = right.2.epoch
  frames : ∃ sent alsoSent, left.2.queue.frames = before.queue.frames ++ sent ∧
    right.2.queue.frames = before.queue.frames ++ alsoSent ∧
    ∀ connection : ConnectionId,
      sent.filter (fun frame => frame.connection = connection) =
        alsoSent.filter (fun frame => frame.connection = connection)

section Receiving

variable {table : Table (Features σ)} {check : Handler (Features σ)}
  {heartbeat flushPeriod : Nat} {server : Server (Features σ)} {first second : ConnectionId}
  {text note : String}

/-- What comes of two texts one after the other, told from what comes of their reactions. -/
theorem receiveBoth_of_results (serves : Serves table check heartbeat flushPeriod)
    (standing : Standing server) {mine yours : Result σ}
    (firstly : (server.reaction first text).result? first server.clock server.memory.cache =
      some mine)
    (secondly : (server.reaction second note).result? second server.clock mine.cache =
      some yours) :
    server.receiveBoth table (first, text) (second, note) =
      ((mine.outcome, yours.outcome),
        (server.withCache yours.cache).say (mine.frames ++ yours.frames)) := by
  have between : server.receive table first text =
      (mine.outcome, (server.withCache mine.cache).say mine.frames) := by
    rw [receive_eq_react serves (standing.outside first)]
    exact react_of_result? firstly _
  have after : ((server.withCache mine.cache).say mine.frames).receive table second note =
      (yours.outcome,
        (((server.withCache mine.cache).say mine.frames).withCache yours.cache).say
          yours.frames) := by
    -- The reaction to the second text is what it was: neither sessions nor the secret have changed.
    have outside : ((server.withCache mine.cache).say mine.frames).registry.state? second ≠
        some State.program := standing.outside second
    rw [receive_eq_react serves outside]
    exact react_of_result? secondly _
  rw [receiveBoth, between]
  dsimp only
  rw [after, ← say_say]
  rfl

theorem interchange (serves : Serves table check heartbeat flushPeriod) (standing : Standing server)
    (apart : first ≠ second) (calm : Envelope.NoLogin text) (alsoCalm : Envelope.NoLogin note) :
    Interchange server first second (server.receiveBoth table (first, text) (second, note))
      (server.receiveBoth table (second, note) (first, text)) := by
  have quiet : (server.reaction first text).account? = none := by
    rw [account?_reaction, login?_of_noLogin calm]
  have alsoQuiet : (server.reaction second note).account? = none := by
    rw [account?_reaction, login?_of_noLogin alsoCalm]
  have holds : ∀ {connection content uid},
      (server.reaction connection content).touched? = some uid →
        server.registry.identity? connection = some uid := by
    intro connection content uid touched
    cases reaction : server.reaction connection content with
    | serve service account =>
        rw [reaction] at touched
        cases touched
        exact (of_reaction_serve reaction).2
    | reply outcome payloads =>
        rw [reaction] at touched
        cases touched
    | login account =>
        rw [reaction] at touched
        cases touched
  obtain ⟨mine, firstly⟩ := exists_result? quiet first server.clock server.memory.cache
  obtain ⟨yours, alsoFirst⟩ := exists_result? alsoQuiet second server.clock server.memory.cache
  obtain ⟨after, secondly, alsoSecondly⟩ := result?_comm
    (fun uid held alsoHeld => apart (standing.sound.exclusive (holds held) (holds alsoHeld)))
    firstly alsoFirst
  have full : ∀ {connection content} {result : Result σ},
      (server.reaction connection content).result? connection server.clock server.memory.cache =
        some result → result.outcome = none → Full server connection := by
    intro connection content result comes unanswered
    obtain ⟨uid, player, grants, there, noRoom⟩ := full_of_result? comes unanswered
    exact ⟨uid, player, (of_reaction_serve grants).2, there, noRoom⟩
  rw [receiveBoth_of_results serves standing firstly secondly,
    receiveBoth_of_results serves standing alsoFirst alsoSecondly]
  refine ⟨⟨_, _, rfl, rfl, fun none => full firstly none, fun none => full alsoFirst none⟩,
    rfl, rfl, rfl, rfl, _, _, rfl, rfl, ?_⟩
  exact Frame.filter_append_comm apart (connection_of_result? firstly)
    (connection_of_result? secondly)

end Receiving

/-- In every server that a started one becomes, two texts of different connections that are no logins
come to the same in either order. -/
theorem texts_commute {store : σ} {table : Table (Features σ)} {start server : Server (Features σ)}
    (started : Started store table start) (reached : Reachable table start server)
    {first second : ConnectionId} (apart : first ≠ second) {text note : String}
    (calm : Envelope.NoLogin text) (alsoCalm : Envelope.NoLogin note) :
    Interchange server first second (server.receiveBoth table (first, text) (second, note))
      (server.receiveBoth table (second, note) (first, text)) := by
  obtain ⟨heartbeat, flushPeriod, serves⟩ := started.serves
  exact interchange serves (reached.standing started) apart calm alsoCalm

/-- The players of accounts 7 and 8 ask for gold and for their record. -/
theorem texts_commute_players :
    let steps : List (Step (FaultyStore Player)) :=
      [.accept, .accept, .receive ⟨1⟩ sampleLogin,
        .receive ⟨2⟩ "\x7b\"value\":100,\"args\":\x7b\"uid\":8,\"secret\":\"s\"\x7d\x7d"]
    let text := "\x7b\"value\":302,\"args\":\x7b\x7d\x7d"
    let note := "\x7b\"value\":304,\"args\":\x7b\x7d\x7d"
    let server := (machine sampleTable).run (sampleServer {}) steps
    server.registry.identity? ⟨1⟩ = some 7 ∧ server.registry.identity? ⟨2⟩ = some 8 ∧
      Envelope.NoLogin text ∧ Envelope.NoLogin note ∧
      Interchange server ⟨1⟩ ⟨2⟩ (server.receiveBoth sampleTable (⟨1⟩, text) (⟨2⟩, note))
        (server.receiveBoth sampleTable (⟨2⟩, note) (⟨1⟩, text)) := by
  intro steps text note server
  have calm : Envelope.NoLogin text := by decide +kernel
  have alsoCalm : Envelope.NoLogin note := by decide +kernel
  have reached : Reachable sampleTable (sampleServer {}) server := Reachable.start.run steps
  exact ⟨by decide +kernel, by decide +kernel, calm, alsoCalm,
    texts_commute (started_sample {}) reached (by decide) calm alsoCalm⟩

end Bundle

end SessionServer
