import SessionServer.Proofs.Bundle.Effects

/-!
Contract: a connection that stays open loses its account to a login of another one, and in no other
way.

Owns:
- `Bundle.Loses` and `Bundle.TakesOver`, the loss of an account and the step that explains it;
- the theorem that the two go together in every run, and that nobody is told of a loss without one.
-/

namespace SessionServer

/-! ## Notices -/

theorem Registry.notices_of_held {registry : Registry} (exclusive : registry.Exclusive)
    {old new : ConnectionId} {uid : Identity} (held : registry.identity? old = some uid)
    (apart : new ≠ old) :
    registry.notices new uid = [.envelope old Code.otherLogin .empty, ⟨old, .close⟩] := by
  unfold notices
  rw [(holder?_eq_some_iff exclusive).mpr held]
  exact if_neg (Ne.symm apart)

/-- Whoever is told of a loss had the account until now. -/
theorem Registry.held_of_mem_notices {registry : Registry} (exclusive : registry.Exclusive)
    {new : ConnectionId} {uid : Identity} {frame : Frame}
    (member : frame ∈ registry.notices new uid) :
    ∃ old, new ≠ old ∧ registry.identity? old = some uid := by
  unfold notices at member
  split at member
  · cases member
  · next old holder =>
      split at member
      · cases member
      · next apart => exact ⟨old, Ne.symm apart, (holder?_eq_some_iff exclusive).mp holder⟩

namespace Bundle

variable {σ : Type}

/-! ## Losses -/

/-- A connection stays open and no longer has its account. -/
structure Loses (before after : Server (Features σ)) (old : ConnectionId) (uid : Identity) :
    Prop where
  held : before.registry.identity? old = some uid
  stays : after.registry.contains old = true
  lost : after.registry.identity? old ≠ some uid

/-- A connection logs in to the account of another one, which is told so and asked to close before
the success is reported. -/
structure TakesOver (before after : Server (Features σ)) (step : Step σ)
    (old new : ConnectionId) (uid : Identity) : Prop where
  login : step.login? before = some (new, uid)
  apart : new ≠ old
  frames : ∃ scene : List Frame,
    after.queue.frames = before.queue.frames ++
      .envelope old Code.otherLogin .empty :: ⟨old, .close⟩ ::
        .envelope new Code.loginSuccess (Login.successArgs uid before.clock) :: scene ∧
    scene.length ≤ 1 ∧ ∀ frame ∈ scene, ∃ args, frame = .envelope new Code.changeScene args
  holder : after.registry.holder? uid = some new
  released : after.registry.identity? old = none

section Effects

variable [EntityStore σ Player] {before after : Server (Features σ)} {step : Step σ}
  {old new : ConnectionId} {uid : Identity}

/-- Unless a login succeeds, whoever stays open keeps the account. -/
theorem Effect.identity?_eq (effect : Effect before after step) (sound : before.registry.Sound)
    (apart : step.login? before = none) (held : before.registry.identity? old = some uid)
    (stays : after.registry.contains old = true) :
    after.registry.identity? old = some uid := by
  obtain ⟨session, found⟩ := Registry.contains_iff.mp stays
  obtain ⟨former, known, bound⟩ := Registry.identity?_eq_some_iff.mp held
  rcases effect.turnover.session?_of_no_login apart found with same | ⟨-, new⟩
  · rw [known] at same
    cases same
    exact Registry.identity?_eq_some_iff.mpr ⟨session, found, bound⟩
  · have given := sound.numbered (Registry.contains_iff.mpr ⟨former, known⟩)
    omega

/-- A login takes its account from the connection that had it. -/
theorem Effect.takesOver (effect : Effect before after step) (sound : before.registry.Sound)
    {account : Identity} (login : step.login? before = some (new, account))
    (loses : Loses before after old uid) : TakesOver before after step old new uid := by
  have moves := effect.admission login
  have isOpen : before.registry.contains new = true := Step.isOpen_of_login? login
  have fresh : before.registry.identity? new = none := by
    rw [Registry.identity?, sound.session?_of_none (Step.state?_of_login? login)]
    rfl
  have apart : new ≠ old := by
    rintro rfl
    rw [loses.held] at fresh
    cases fresh
  have identity := Registry.identity?_enroll isOpen account old
  rw [← moves.registry, if_neg apart, loses.held] at identity
  have same : uid = account := by
    by_contra different
    rw [if_neg fun equal => different (Option.some.inj equal)] at identity
    exact loses.lost identity
  subst same
  have frames := moves.frames
  rw [Registry.notices_of_held sound.exclusive loses.held apart] at frames
  refine ⟨login, apart, ⟨_, frames, Players.sceneFrames_spec new _⟩, ?_, ?_⟩
  · rw [Registry.holder?_eq_some_iff (effect.turnover.sound sound).exclusive, moves.registry,
      Registry.identity?_enroll isOpen, if_pos rfl]
  · rw [identity, if_pos rfl]

/-- Only the loss of an account is told to a client. -/
theorem Effect.loses_of_carries (effect : Effect before after step)
    (sound : before.registry.Sound) {frame : Frame}
    (sent : frame ∈ Event.sent ⟨before, step, after⟩)
    (carries : frame.carries Code.otherLogin = true) :
    ∃ old uid, Loses before after old uid := by
  cases login : step.login? before with
  | none =>
      rw [effect.carries_of_no_login login sent (by decide)] at carries
      cases carries
  | some entry =>
      obtain ⟨new, uid⟩ := entry
      have moves := effect.admission login
      have isOpen : before.registry.contains new = true := Step.isOpen_of_login? login
      rw [moves.sent] at sent
      rcases List.mem_append.mp sent with notice | report
      · obtain ⟨old, apart, held⟩ := Registry.held_of_mem_notices sound.exclusive notice
        refine ⟨old, uid, held, ?_, ?_⟩
        · rw [moves.registry, Registry.contains_enroll]
          obtain ⟨session, found, -⟩ := Registry.identity?_eq_some_iff.mp held
          exact Registry.contains_iff.mpr ⟨session, found⟩
        · rw [moves.registry, Registry.identity?_enroll isOpen, if_neg apart, held, if_pos rfl]
          exact nofun
      · exfalso
        rcases List.mem_cons.mp report with success | scene
        · rw [success, Frame.carries_envelope] at carries
          exact absurd carries (by decide)
        · obtain ⟨args, envelope⟩ := (Players.sceneFrames_spec new _).2 frame scene
          rw [envelope, Frame.carries_envelope] at carries
          exact absurd carries (by decide)

end Effects

/-! ## The eviction protocol -/

/-- In every run a connection that stays open loses its account only to a login of another
connection, which queues the notice and the request to close for the old one, the report for the
new one and at most a scene behind them. No other step queues the notice of a loss. -/
theorem eviction_protocol [EntityStore σ Player] {store : σ} {table : Table (Features σ)}
    {start : Server (Features σ)} (started : Started store table start) (steps : List (Step σ))
    (step : Step σ) :
    let before := (machine table).run start steps
    let after := step.apply table before
    (∀ old uid, Loses before after old uid → ∃ new, TakesOver before after step old new uid) ∧
      ∀ frame ∈ Event.sent ⟨before, step, after⟩, frame.carries Code.otherLogin = true →
        ∃ old uid, Loses before after old uid := by
  intro before after
  have sound : before.registry.Sound := (started.standing_run steps).sound
  have effect : Effect before after step := started.effect steps step
  constructor
  · intro old uid loses
    cases login : step.login? before with
    | none => exact absurd (effect.identity?_eq sound login loses.held loses.stays) loses.lost
    | some entry => exact ⟨entry.1, effect.takesOver sound login loses⟩
  · intro frame sent carries
    exact effect.loses_of_carries sound sent carries

/-- Two connections log in to account 7 one after the other. -/
theorem eviction_protocol_sample :
    let before := (machine sampleTable).run (sampleServer {})
      [.accept, .accept, .receive ⟨1⟩ sampleLogin]
    let after := (Step.receive ⟨2⟩ sampleLogin).apply sampleTable before
    Loses before after ⟨1⟩ 7 ∧
      ∃ new, TakesOver before after (.receive ⟨2⟩ sampleLogin) ⟨1⟩ new 7 := by
  intro before after
  have loses : Loses before after ⟨1⟩ 7 :=
    ⟨by decide +kernel, by decide +kernel, by decide +kernel⟩
  exact ⟨loses, (eviction_protocol (started_sample {}) _ _).1 ⟨1⟩ 7 loses⟩

end Bundle

end SessionServer
