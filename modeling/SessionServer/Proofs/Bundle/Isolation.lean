import SessionServer.Proofs.Bundle.Stopping
import SessionServer.Proofs.Cache.Rows

/-!
Contract: what a text of one connection can do to everything that is not its own.

Owns:
- `Bundle.Isolated`, the sessions, frames and records that a text leaves alone, and `Bundle.Blind`,
  the independence of a text from all records;
- the theorem that at all times every text is isolated, and blind where its sender has no account and
  does not log in.

The store is any that keeps one row for each key, whatever it refuses at the time.
-/

namespace SessionServer

variable {σ : Type} [EntityStore σ Player]

namespace Cache

/-- Entering an account leaves every record as it was, except that the account gets one if it has
none. -/
theorem record_enter [RowStore σ Player] {cache : Cache Player σ} {uid : Identity} {now : UInt64}
    {key : EntityKey} (differs : (cache.enter uid now).2.record key ≠ cache.record key) :
    key = uid ∧ cache.record uid = .ok none ∧
      (cache.enter uid now).2.record uid = .ok (some (Player.fresh uid now)) := by
  have kept := cache.record_get uid
  have found := cache.fst_get uid
  unfold enter at differs ⊢
  rcases looked : cache.get uid with ⟨error | _ | player, after⟩ <;>
    rw [looked] at differs kept found
  · exact absurd (kept key) differs
  · have missing : cache.record uid = .ok none := record_of_fetch found.symm
    have created : key = uid ∧ (after.create (Player.fresh uid now)).2.record uid =
        .ok (some (Player.fresh uid now)) := by
      apply record_create rfl
      rw [kept key]
      exact differs
    exact ⟨created.1, missing, created.2⟩
  · exact absurd (kept key) differs

end Cache

omit [EntityStore σ Player] in
/-- Whoever is told of a loss is the holder of the account, and is told nothing else. -/
theorem Registry.of_mem_notices {registry : Registry} (exclusive : registry.Exclusive)
    {connection : ConnectionId} {uid : Identity} {frame : Frame}
    (member : frame ∈ registry.notices connection uid) :
    ∃ old, registry.identity? old = some uid ∧
      (frame = .envelope old Code.otherLogin .empty ∨ frame = ⟨old, .close⟩) := by
  unfold notices at member
  split at member
  · cases member
  · next old holder =>
      have held := (holder?_eq_some_iff exclusive).mp holder
      split at member
      · cases member
      · rcases List.mem_cons.mp member with notice | closing
        · exact ⟨old, held, .inl notice⟩
        · exact ⟨old, held, .inr (List.mem_singleton.mp closing)⟩

namespace Bundle

open Server

/-! ## Isolation -/

/-- The record of a player as the server sees it, in memory or in the store. -/
def record [RowStore σ Player] (server : Server (Features σ)) (key : EntityKey) :
    Except StoreError (Option Player) :=
  server.memory.cache.record key

/-- What a text can do to sessions, queue and records. -/
structure Isolated [RowStore σ Player] (before after : Server (Features σ))
    (connection : ConnectionId) (text : String) : Prop where
  /-- Another session is changed by nothing but a login to its account, which it loses. -/
  sessions : ∀ other, other ≠ connection →
    after.registry.session? other = before.registry.session? other ∨
      ∃ uid session, before.login? connection text = some uid ∧
        before.registry.session? other = some session ∧ session.identity = some uid ∧
        after.registry.session? other = some { session with identity := none }
  /-- A login takes the account from the one other connection that has it. -/
  released : ∀ uid other, before.login? connection text = some uid →
    before.registry.identity? other = some uid →
      other ≠ connection ∧ after.registry.identity? other = none ∧
        ∀ third, before.registry.identity? third = some uid → third = other
  /-- What is queued is for the sender, or tells the former holder of the account of its loss. -/
  frames : ∃ sent, after.queue.frames = before.queue.frames ++ sent ∧ ∀ frame ∈ sent,
    frame.connection = connection ∨
      ∃ uid old, before.login? connection text = some uid ∧ old ≠ connection ∧
        before.registry.identity? old = some uid ∧
        (frame = .envelope old Code.otherLogin .empty ∨ frame = ⟨old, .close⟩)
  /-- The record that changes is the sender's own, by a grant, or that of the account that it logs in
  to, which has had none. -/
  records : ∀ key, record after key ≠ record before key →
    (before.registry.identity? connection = some key ∧
      (∃ args, Envelope.parse text = .ok ⟨Code.playerAddGold, args⟩) ∧
      ∃ player richer, record before key = .ok (some player) ∧
        player.granted? before.clock = some richer ∧ record after key = .ok (some richer)) ∨
    (before.login? connection text = some key ∧ record before key = .ok none ∧
      record after key = .ok (some (Player.fresh key before.clock)))

/-- The text comes to the same whatever the records are, and leaves them as they are. -/
def Blind (table : Table (Features σ)) (server : Server (Features σ)) (connection : ConnectionId)
    (text : String) : Prop :=
  ∀ cache : Cache Player σ, (server.withCache cache).receive table connection text =
    ((server.receive table connection text).1,
      (server.receive table connection text).2.withCache cache)

section Texts

variable {table : Table (Features σ)} {check : Handler (Features σ)}
  {heartbeat flushPeriod : Nat} {before after : Server (Features σ)} {connection : ConnectionId}
  {text : String}

theorem isolated_of_admission [RowStore σ Player] (sound : before.registry.Sound) {uid : Identity}
    (login : before.login? connection text = some uid)
    (moves : Admission before after connection uid) : Isolated before after connection text := by
  have isOpen : before.registry.contains connection = true := isOpen_of_login? login
  have nameless : before.registry.identity? connection = none := by
    rw [Registry.identity?, sound.session?_of_none (state?_of_login? login)]
    rfl
  have others : ∀ {other}, before.registry.identity? other = some uid → other ≠ connection := by
    rintro other held rfl
    rw [nameless] at held
    cases held
  refine ⟨?_, ?_, ⟨_, moves.frames, ?_⟩, ?_⟩
  · intro other apart
    rw [moves.registry, Registry.session?_enroll isOpen, if_neg (Ne.symm apart)]
    cases found : before.registry.session? other with
    | none => exact .inl rfl
    | some session =>
        rw [Option.map_some, Session.release]
        split
        · next held => exact .inr ⟨uid, session, login, rfl, held, rfl⟩
        · exact .inl rfl
  · intro account other entry held
    cases login.symm.trans entry
    refine ⟨others held, ?_, fun third alsoHeld => sound.exclusive alsoHeld held⟩
    rw [moves.registry, Registry.identity?_enroll isOpen, if_neg (Ne.symm (others held)),
      if_pos held]
  · intro frame member
    rcases List.mem_append.mp member with notice | report
    · obtain ⟨old, held, told⟩ := Registry.of_mem_notices sound.exclusive notice
      exact .inr ⟨uid, old, login, others held, held, told⟩
    · rcases List.mem_cons.mp report with rfl | scene
      · exact .inl rfl
      · exact .inl (Players.connection_of_mem_sceneFrames scene)
  · intro key differs
    unfold record at differs ⊢
    rw [moves.memory] at differs ⊢
    obtain ⟨rfl, missing, created⟩ := Cache.record_enter differs
    exact .inr ⟨login, missing, created⟩

theorem isolated_react [RowStore σ Player] (apart : before.login? connection text = none)
    (welcome : Identity → Option FrameOutcome × Server (Features σ)) :
    Isolated before (before.react connection welcome (before.reaction connection text)).2 connection
      text := by
  have calm := account?_reaction before connection text
  rw [apart] at calm
  have unreleased : ∀ (registry : Registry) uid other, before.login? connection text = some uid →
      before.registry.identity? other = some uid →
        other ≠ connection ∧ registry.identity? other = none ∧
          ∀ third, before.registry.identity? third = some uid → third = other := by
    intro _ _ _ login
    cases apart.symm.trans login
  cases reaction : before.reaction connection text with
  | login uid =>
      rw [reaction] at calm
      cases calm
  | reply outcome payloads =>
      refine ⟨fun _ _ => .inl rfl, unreleased _, ⟨_, rfl, ?_⟩, fun key differs => absurd rfl differs⟩
      intro frame member
      obtain ⟨payload, -, rfl⟩ := List.mem_map.mp member
      exact .inl rfl
  | serve service uid =>
      obtain ⟨asked, held⟩ := of_reaction_serve reaction
      refine ⟨fun _ _ => .inl rfl, unreleased _, ⟨_, rfl, ?_⟩, ?_⟩
      · intro frame member
        exact .inl (Service.connection_of_mem_frames member)
      · intro key differs
        obtain ⟨rfl, change, player, richer, changes, present, granted, changed⟩ :=
          Cache.record_touch differs
        cases service with
        | view => cases changes
        | grant =>
            cases changes
            exact .inl ⟨held, asked, player, richer, present, granted, changed⟩

omit [EntityStore σ Player] in
/-- Without an account and without a login there is nothing but a reply, which the secret and the
sender's own session decide. -/
theorem reaction_of_nameless (nameless : before.registry.identity? connection = none)
    (apart : before.login? connection text = none) :
    ∃ outcome payloads, before.reaction connection text = .reply outcome payloads := by
  have calm := account?_reaction before connection text
  rw [apart] at calm
  cases reaction : before.reaction connection text with
  | reply outcome payloads => exact ⟨outcome, payloads, rfl⟩
  | login uid =>
      rw [reaction] at calm
      cases calm
  | serve service uid =>
      rw [(of_reaction_serve reaction).2] at nameless
      cases nameless

theorem blind_of_nameless (serves : Serves table check heartbeat flushPeriod)
    (standing : Standing before) (nameless : before.registry.identity? connection = none)
    (apart : before.login? connection text = none) :
    Blind table before connection text ∧
      (before.receive table connection text).2.memory = before.memory := by
  obtain ⟨outcome, payloads, reaction⟩ := reaction_of_nameless nameless apart
  have outside := standing.outside connection
  constructor
  · intro cache
    have same : (before.withCache cache).reaction connection text = .reply outcome payloads :=
      reaction
    have alsoOutside : (before.withCache cache).registry.state? connection ≠ some State.program :=
      outside
    rw [receive_eq_react serves outside, receive_eq_react serves alsoOutside, reaction, same]
    rfl
  · rw [receive_eq_react serves outside, reaction]
    rfl

end Texts

/-- In every server that a started one becomes, a text of one connection changes no other session,
except that a login takes the account from its former holder, queues nothing for others but the notice
of that loss, and changes no record but that of the sender's own account. A sender that has no account
and does not log in neither changes nor learns anything of any record; in particular one that has lost
its account, which cannot log in again. -/
theorem texts_isolated [RowStore σ Player] {store : σ} {table : Table (Features σ)}
    {start before : Server (Features σ)} (started : Started store table start)
    (reached : Reachable table start before) (connection : ConnectionId) (text : String) :
    let after := (before.receive table connection text).2
    Isolated before after connection text ∧
      (before.registry.identity? connection = none →
        before.login? connection text = none ∨
          before.registry.state? connection ≠ some State.none →
        Blind table before connection text ∧ after.memory = before.memory) := by
  intro after
  obtain ⟨heartbeat, flushPeriod, serves⟩ := started.serves
  have standing : Standing before := reached.standing started
  constructor
  · cases login : before.login? connection text with
    | some uid =>
        have effect : Effect before after (.receive connection text) :=
          (effect_apply serves standing (.receive connection text)).1
        have entry : (Step.receive connection text : Step σ).login? before =
            some (connection, uid) := by
          rw [Step.login?, login, Option.map_some]
        exact isolated_of_admission standing.sound login (effect.admission entry)
    | none =>
        show Isolated before (before.receive table connection text).2 connection text
        rw [receive_eq_react serves (standing.outside connection)]
        exact isolated_react login _
  · intro nameless idle
    have apart : before.login? connection text = none := by
      rcases idle with apart | entered
      · exact apart
      · rw [Option.eq_none_iff_forall_ne_some]
        intro uid login
        exact entered (state?_of_login? login)
    exact blind_of_nameless serves standing nameless apart

/-- The player of account 7 logs in on a second connection, and the first one is left without an
account. -/
theorem texts_isolated_evicting :
    let before := (machine sampleTable).run (sampleServer {})
      [.accept, .accept, .receive ⟨1⟩ sampleLogin]
    let after := (before.receive sampleTable ⟨2⟩ sampleLogin).2
    before.login? ⟨2⟩ sampleLogin = some 7 ∧ before.registry.identity? ⟨1⟩ = some 7 ∧
      Isolated before after ⟨2⟩ sampleLogin ∧ ∀ text, Blind sampleTable after ⟨1⟩ text := by
  intro before after
  have reached : Reachable sampleTable (sampleServer {}) before := Reachable.start.run _
  have evicted := texts_isolated (started_sample {})
    (reached.step (.receive ⟨2⟩ sampleLogin)) ⟨1⟩
  refine ⟨by decide +kernel, by decide +kernel,
    (texts_isolated (started_sample {}) reached _ _).1, ?_⟩
  intro text
  exact ((evicted text).2 (by decide +kernel) (.inr (by decide +kernel))).1

end Bundle

end SessionServer
