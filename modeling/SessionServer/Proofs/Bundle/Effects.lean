import SessionServer.Proofs.Bundle.Run

/-!
Contract: everything that a step can do to a server with the bundled providers.

Owns:
- `Bundle.Effect`, the sessions, the frames and the memory after a step, case by case, and the
  proof that every step has one of these effects;
- the proof that `Bundle.Standing` is kept by every step and so holds after every run.
-/

namespace SessionServer

namespace Players

theorem sceneFrames_spec (connection : ConnectionId) (entered : Option (Player × Bool)) :
    (sceneFrames connection entered).length ≤ 1 ∧
      ∀ frame ∈ sceneFrames connection entered,
        ∃ args, frame = .envelope connection Code.changeScene args := by
  unfold sceneFrames
  split
  · exact ⟨Nat.zero_le _, fun _ member => by cases member⟩
  · exact ⟨Nat.le_refl _, fun frame member => ⟨_, List.mem_singleton.mp member⟩⟩

theorem connection_of_mem_sceneFrames {connection : ConnectionId}
    {entered : Option (Player × Bool)} {frame : Frame}
    (member : frame ∈ sceneFrames connection entered) : frame.connection = connection := by
  obtain ⟨args, rfl⟩ := (sceneFrames_spec connection entered).2 frame member
  rfl

theorem connection_of_mem_goldFrames {connection : ConnectionId}
    {result : Option (Except StoreError (Option Player))} {frame : Frame}
    (member : frame ∈ goldFrames connection result) : frame.connection = connection := by
  unfold goldFrames at member
  split at member
  · rw [List.mem_singleton.mp member]
    rfl
  · cases member

theorem connection_of_mem_infoFrames {connection : ConnectionId}
    {result : Except StoreError (Option Player)} {frame : Frame}
    (member : frame ∈ infoFrames connection result) : frame.connection = connection := by
  unfold infoFrames at member
  split at member
  · rw [List.mem_singleton.mp member]
    rfl
  · cases member

section Avoided

variable {codes : List Code}

theorem avoids_sceneFrames (apart : Code.changeScene ∉ codes) (connection : ConnectionId)
    (entered : Option (Player × Bool)) :
    ∀ frame ∈ sceneFrames connection entered, frame.Avoids codes := by
  intro frame member
  obtain ⟨args, rfl⟩ := (sceneFrames_spec connection entered).2 frame member
  exact Frame.avoids_envelope connection args apart

theorem avoids_goldFrames (apart : Code.playerGold ∉ codes) (connection : ConnectionId)
    (result : Option (Except StoreError (Option Player))) :
    ∀ frame ∈ goldFrames connection result, frame.Avoids codes := by
  intro frame member
  unfold goldFrames at member
  split at member
  · rw [List.mem_singleton.mp member]
    exact Frame.avoids_envelope connection _ apart
  · cases member

theorem avoids_infoFrames (apart : Code.playerInfoResult ∉ codes) (connection : ConnectionId)
    (result : Except StoreError (Option Player)) :
    ∀ frame ∈ infoFrames connection result, frame.Avoids codes := by
  intro frame member
  unfold infoFrames at member
  split at member
  · rw [List.mem_singleton.mp member]
    exact Frame.avoids_envelope connection _ apart
  · cases member

end Avoided

end Players

/-- The notices to the former holder of an account tell of its loss and of nothing else. -/
theorem Registry.avoids_notices {codes : List Code} (apart : Code.otherLogin ∉ codes)
    (registry : Registry) (connection : ConnectionId) (uid : Identity) :
    ∀ frame ∈ registry.notices connection uid, frame.Avoids codes := by
  intro frame notice
  unfold notices at notice
  split at notice
  · cases notice
  · next previous _ =>
      split at notice
      · cases notice
      · rcases List.mem_cons.mp notice with rfl | closing
        · exact Frame.avoids_envelope previous _ apart
        · rw [List.mem_singleton.mp closing]
          exact Frame.avoids_close previous _

namespace Bundle

open Server

variable {σ : Type}

theorem Service.connection_of_mem_frames {service : Service} {connection : ConnectionId}
    {result : Option (Except StoreError (Option Player))} {frame : Frame}
    (member : frame ∈ service.frames connection result) : frame.connection = connection := by
  cases service with
  | grant => exact Players.connection_of_mem_goldFrames member
  | view =>
      cases result with
      | none => cases member
      | some result => exact Players.connection_of_mem_infoFrames member

/-! ## Effects -/

/-- The codes by which the bundled providers tell of the end of a session, a scene or a balance. -/
def notable : List Code := [Code.otherLogin, Code.changeScene, Code.playerGold]

/-- The sessions and the memory after a step, and the frames that it has queued. -/
structure Moves (before after : Server (Features σ)) (registry : Registry) (sent : List Frame)
    (memory : Features σ) : Prop where
  registry : after.registry = registry
  frames : after.queue.frames = before.queue.frames ++ sent
  memory : after.memory = memory

theorem Moves.sent {before after : Server (Features σ)} {registry : Registry}
    {sent : List Frame} {memory : Features σ}
    (moves : Moves before after registry sent memory) (step : Step σ) :
    Event.sent ⟨before, step, after⟩ = sent :=
  Event.sent_eq moves.frames

theorem Moves.of_silence {before after : Server (Features σ)} {registry : Registry}
    {memory : Features σ} (sessions : after.registry = registry)
    (queue : after.queue = before.queue) (features : after.memory = memory) :
    Moves before after registry [] memory :=
  ⟨sessions, by rw [queue, List.append_nil], features⟩

theorem Event.sent_of_drained (before : Server (Features σ)) (step : Step σ)
    {after : Server (Features σ)} (frames : after.queue.frames = before.queue.frames.drop 1) :
    Event.sent ⟨before, step, after⟩ = [] := by
  rw [Event.sent, frames, List.drop_drop]
  exact List.drop_eq_nil_of_le (Nat.le_add_left _ _)

variable [EntityStore σ Player]

/-- The moves of a successful login. -/
abbrev Admission (before after : Server (Features σ)) (connection : ConnectionId)
    (uid : Identity) : Prop :=
  Moves before after (before.registry.enroll connection uid)
    (before.registry.notices connection uid ++
      .envelope connection Code.loginSuccess (Login.successArgs uid before.clock) ::
        Players.sceneFrames connection (before.memory.cache.enter uid before.clock).1)
    (before.memory.withCache (before.memory.cache.enter uid before.clock).2)

/-- The moves of a grant of gold, which may break off. -/
abbrev Grant (before after : Server (Features σ)) (connection : ConnectionId)
    (uid : Identity) : Prop :=
  Moves before after before.registry
    (Players.goldFrames connection
      (before.memory.cache.revise uid fun player => player.granted? before.clock).1)
    (before.memory.withCache
      (before.memory.cache.revise uid fun player => player.granted? before.clock).2)

/-- What a step can do. -/
inductive Effect (before after : Server (Features σ)) : Step σ → Prop where
  | opened (moves : Moves before after before.registry.accept.2 [] before.memory) :
      Effect before after .accept
  | closed (connection : ConnectionId)
      (moves : Moves before after (before.registry.close connection).2 [] before.memory) :
      Effect before after (.close connection)
  /-- Nothing is told but what is not notable. -/
  | answered {step : Step σ} (apart : step.login? before = none) {sent : List Frame}
      (plain : ∀ frame ∈ sent, frame.Avoids notable)
      (moves : Moves before after before.registry sent before.memory) :
      Effect before after step
  | flushed {step : Step σ} (apart : step.login? before = none)
      (moves : Moves before after before.registry []
        (before.memory.withCache before.memory.cache.flush.2)) :
      Effect before after step
  | drained (registry : after.registry = before.registry)
      (frames : after.queue.frames = before.queue.frames.drop 1)
      (memory : after.memory = before.memory) :
      Effect before after .drain
  | disturbed (change : σ → σ)
      (moves : Moves before after before.registry []
        (before.memory.withCache (Bundle.disturbed before.memory.cache change))) :
      Effect before after (.disturb change)
  | admitted {connection : ConnectionId} {text : String} {uid : Identity}
      (login : before.login? connection text = some uid)
      (moves : Admission before after connection uid) :
      Effect before after (.receive connection text)
  | granted {connection : ConnectionId} {text : String} {uid : Identity}
      (apart : before.login? connection text = none)
      (holds : before.registry.identity? connection = some uid)
      (moves : Grant before after connection uid) :
      Effect before after (.receive connection text)
  | shown {connection : ConnectionId} {text : String} {uid : Identity}
      (apart : before.login? connection text = none)
      (holds : before.registry.identity? connection = some uid)
      (moves : Moves before after before.registry
        (Players.infoFrames connection (before.memory.cache.get uid).1)
        (before.memory.withCache (before.memory.cache.get uid).2)) :
      Effect before after (.receive connection text)

/-! ## Steps -/

section Steps

variable {table : Table (Features σ)} {heartbeat flushPeriod : Nat}
  {before : Server (Features σ)}

theorem each_enroll (heartbeat : Nat) (routine : before.scheduler.Each Routine)
    (connection : ConnectionId) (uid : Identity) :
    (before.enroll heartbeat connection uid).scheduler.Each Routine := by
  unfold Server.enroll
  rw [scheduler_schedule_session]
  split
  · exact routine.schedule _ (.inr ⟨connection, rfl⟩)
  · exact routine.refuse

/-- A session that stands as it should does not have the mark of calls between handlers. -/
theorem Standing.outside (standing : Standing before) (connection : ConnectionId) :
    before.registry.state? connection ≠ some State.program := by
  intro program
  obtain ⟨session, found, state⟩ := Option.map_eq_some_iff.mp program
  rcases standing.sound.standing found with rfl | authorized
  · exact absurd state (by decide)
  · rw [authorized] at state
    exact absurd state (by decide)

private theorem effect_login (serves : Serves table Players.check heartbeat flushPeriod)
    (standing : Standing before) {connection : ConnectionId} {text : String} {uid : Identity}
    (login : before.login? connection text = some uid) :
    Effect before (before.receive table connection text).2 (.receive connection text) ∧
      (before.receive table connection text).2.scheduler.Each Routine := by
  have innermost : followWithin table (callDepth - 1) =
      follow table (followWithin table (callDepth - 2)) := rfl
  have routine := each_enroll heartbeat standing.routine connection uid
  obtain ⟨scheduler, admitted, now⟩ := enroll_eq before connection heartbeat uid
  have clock : (before.enroll heartbeat connection uid).clock = before.clock := by
    rw [admitted]
    show before.epoch + 1000 * UInt64.ofNat scheduler.now = before.clock
    rw [now]
    rfl
  rw [receive_of_login serves login, innermost, follow_check, clock]
  rw [admitted] at routine ⊢
  refine ⟨.admitted login ⟨rfl, ?_, rfl⟩, routine⟩
  show before.queue.frames ++ (_ ++ [_]) ++ _ = _
  rw [List.append_assoc, List.append_assoc, List.singleton_append]
  rfl

private theorem effect_answer (serves : Serves table Players.check heartbeat flushPeriod)
    (standing : Standing before) {connection : ConnectionId} {text : String}
    (apart : before.login? connection text = none) :
    Effect before (before.receive table connection text).2 (.receive connection text) ∧
      (before.receive table connection text).2.scheduler.Each Routine := by
  have aside : (Step.receive connection text : Step σ).login? before = none := by
    rw [Step.login?, apart, Option.map_none]
  obtain ⟨result, cases, equation⟩ := answered apart (standing.outside connection)
  rw [equation serves]
  cases cases with
  | ignored outcome =>
      exact ⟨.answered aside (fun _ member => by cases member) (.of_silence rfl rfl rfl),
        standing.routine⟩
  | echoed args ascending =>
      refine ⟨.answered aside ?_ ⟨rfl, rfl, rfl⟩, standing.routine⟩
      intro frame member code _
      rw [List.mem_singleton.mp member]
      exact Args.carries_text ascending connection code
  | refused reason known =>
      refine ⟨.answered aside ?_ ⟨rfl, rfl, rfl⟩, standing.routine⟩
      intro frame member
      rcases List.mem_cons.mp member with rfl | closing
      · apply Frame.avoids_envelope
        rcases known with rfl | rfl <;> decide
      · rw [List.mem_singleton.mp closing]
        exact Frame.avoids_close connection _
  | granted uid holds => exact ⟨.granted apart holds ⟨rfl, rfl, rfl⟩, standing.routine⟩
  | shown uid holds => exact ⟨.shown apart holds ⟨rfl, rfl, rfl⟩, standing.routine⟩

/-- What the due time of a task does, and the tasks it leaves behind. -/
theorem effect_fire (standing : Standing before) (task : TaskId) :
    Effect before ((Step.fire task).apply table before) (.fire task) ∧
      ((Step.fire task).apply table before).scheduler.Each Routine := by
  have apart : (Step.fire task : Step σ).login? before = none := rfl
  have silent : ∀ frame ∈ ([] : List Frame), frame.Avoids notable := fun _ member => by cases member
  show Effect before ((clockwork table).fire before task) _ ∧
    ((clockwork table).fire before task).scheduler.Each Routine
  rcases (clockwork table).fire_cases before task with gone | ⟨found, member, retired | ran⟩
  · rw [gone]
    exact ⟨.answered apart silent (.of_silence rfl rfl rfl), standing.routine⟩
  · rw [retired]
    exact ⟨.answered apart silent (.of_silence rfl rfl rfl),
      standing.routine.retire found⟩
  · have performed : (clockwork table).perform task found.body before =
        Server.run table found.body before := rfl
    rw [ran, performed, run_eq]
    rcases standing.routine found member with flush | ⟨connection, beat⟩
    · rw [flush, follow_flush]
      exact ⟨.flushed apart (.of_silence rfl rfl rfl), standing.routine.finish found _⟩
    · rw [beat, follow_beat]
      split
      · refine ⟨.answered apart ?_ ⟨rfl, rfl, rfl⟩, standing.routine.finish found _⟩
        intro frame sent
        rw [List.mem_singleton.mp sent]
        exact Frame.avoids_envelope connection _ (by decide)
      · exact ⟨.answered apart silent (.of_silence rfl rfl rfl),
          standing.routine.finish found _⟩

/-- Every step has one of the effects, and the tasks it leaves behind are those of the bundled
providers. -/
theorem effect_apply (serves : Serves table Players.check heartbeat flushPeriod)
    (standing : Standing before) (step : Step σ) :
    Effect before (step.apply table before) step ∧
      (step.apply table before).scheduler.Each Routine := by
  have silent : ∀ frame ∈ ([] : List Frame), frame.Avoids notable := fun _ member => by cases member
  cases step with
  | accept => exact ⟨.opened (.of_silence rfl rfl rfl), standing.routine⟩
  | close connection =>
      exact ⟨.closed connection (.of_silence rfl rfl rfl),
        standing.routine.cancelSession connection⟩
  | receive connection text =>
      cases login : before.login? connection text with
      | none => exact effect_answer serves standing login
      | some uid => exact effect_login serves standing login
  | pass seconds =>
      exact ⟨.answered rfl silent (.of_silence rfl rfl rfl),
        standing.routine.pass seconds⟩
  | fire task => exact effect_fire standing task
  | flush => exact ⟨.flushed rfl (.of_silence rfl rfl rfl), standing.routine⟩
  | drain => exact ⟨.drained rfl rfl rfl, standing.routine⟩
  | disturb change =>
      exact ⟨.disturbed change (.of_silence rfl rfl rfl), standing.routine⟩

end Steps

/-! ## Standing -/

theorem Effect.turnover {before after : Server (Features σ)} {step : Step σ}
    (effect : Effect before after step) :
    Registry.Turnover before.registry after.registry (step.login? before) := by
  have silent : step.login? before = none → after.registry = before.registry →
      Registry.Turnover before.registry after.registry (step.login? before) := by
    intro apart same
    rw [apart]
    exact .kept same
  cases effect with
  | opened moves => exact .opened moves.registry
  | closed connection moves => exact .closed connection moves.registry
  | answered apart _ moves => exact silent apart moves.registry
  | flushed apart moves => exact silent apart moves.registry
  | drained registry _ _ => exact silent rfl registry
  | disturbed _ moves => exact silent rfl moves.registry
  | @admitted connection text uid login moves =>
      have entry : (Step.receive connection text : Step σ).login? before =
          some (connection, uid) := by
        rw [Step.login?, login, Option.map_some]
      rw [entry]
      exact .enrolled connection uid (isOpen_of_login? login) moves.registry
  | granted apart _ moves =>
      exact silent (by rw [Step.login?, apart, Option.map_none]) moves.registry
  | shown apart _ moves =>
      exact silent (by rw [Step.login?, apart, Option.map_none]) moves.registry

/-- The secret stays what it was when the server came up. -/
theorem Effect.login_eq {before after : Server (Features σ)} {step : Step σ}
    (effect : Effect before after step) : after.memory.login = before.memory.login := by
  cases effect with
  | opened moves => rw [moves.memory]
  | closed _ moves => rw [moves.memory]
  | answered _ _ moves => rw [moves.memory]
  | flushed _ moves => rw [moves.memory]; rfl
  | drained _ _ memory => rw [memory]
  | disturbed _ moves => rw [moves.memory]; rfl
  | admitted _ moves => rw [moves.memory]; rfl
  | granted _ _ moves => rw [moves.memory]; rfl
  | shown _ _ moves => rw [moves.memory]; rfl

/-- A login always has the effect of a login. -/
theorem Effect.admission {before after : Server (Features σ)} {step : Step σ}
    (effect : Effect before after step) {connection : ConnectionId} {uid : Identity}
    (login : step.login? before = some (connection, uid)) :
    Admission before after connection uid := by
  cases effect with
  | admitted admitted moves =>
      rw [Step.login?, admitted] at login
      cases login
      exact moves
  | answered apart _ _ =>
      rw [apart] at login
      cases login
  | flushed apart _ =>
      rw [apart] at login
      cases login
  | granted apart _ _ =>
      rw [Step.login?, apart] at login
      cases login
  | shown apart _ _ =>
      rw [Step.login?, apart] at login
      cases login
  | opened _ => cases login
  | closed _ _ => cases login
  | drained _ _ _ => cases login
  | disturbed _ _ => cases login

/-- Without a login nobody is told of a loss or sent to a scene. -/
theorem Effect.carries_of_no_login {before after : Server (Features σ)} {step : Step σ}
    (effect : Effect before after step) (apart : step.login? before = none) {frame : Frame}
    (sent : frame ∈ Event.sent ⟨before, step, after⟩) {code : Code}
    (notice : code ∈ [Code.otherLogin, Code.changeScene]) : frame.carries code = false := by
  cases effect with
  | opened moves =>
      rw [moves.sent] at sent
      cases sent
  | closed _ moves =>
      rw [moves.sent] at sent
      cases sent
  | answered _ plain moves =>
      rw [moves.sent] at sent
      refine plain frame sent code ?_
      rcases List.mem_cons.mp notice with rfl | scene
      · decide
      · rw [List.mem_singleton.mp scene]
        decide
  | flushed _ moves =>
      rw [moves.sent] at sent
      cases sent
  | drained _ frames _ =>
      rw [Event.sent_of_drained before .drain frames] at sent
      cases sent
  | disturbed _ moves =>
      rw [moves.sent] at sent
      cases sent
  | admitted login _ =>
      rw [Step.login?, login] at apart
      cases apart
  | granted _ _ moves =>
      rw [moves.sent] at sent
      exact Players.avoids_goldFrames (by decide) _ _ frame sent code notice
  | shown _ _ moves =>
      rw [moves.sent] at sent
      exact Players.avoids_infoFrames (by decide) _ _ frame sent code notice

section Reached

variable {store : σ} {table : Table (Features σ)} {start : Server (Features σ)}

theorem Standing.step {heartbeat flushPeriod : Nat} {server : Server (Features σ)}
    (standing : Standing server) (serves : Serves table Players.check heartbeat flushPeriod)
    (step : Step σ) : Standing (step.apply table server) := by
  obtain ⟨effect, routine⟩ := effect_apply serves standing step
  exact ⟨effect.turnover.sound standing.sound, routine⟩

theorem Started.standing_run (started : Started store table start) (steps : List (Step σ)) :
    Standing ((machine table).run start steps) := by
  obtain ⟨heartbeat, flushPeriod, serves⟩ := started.serves
  exact Machine.run_invariant Standing started.standing
    (fun _ step standing => standing.step serves step) steps

/-- Every step after every run has one of the effects. -/
theorem Started.effect (started : Started store table start) (steps : List (Step σ))
    (step : Step σ) :
    Effect ((machine table).run start steps)
      (step.apply table ((machine table).run start steps)) step := by
  obtain ⟨heartbeat, flushPeriod, serves⟩ := started.serves
  exact (effect_apply serves (started.standing_run steps) step).1

end Reached

end Bundle

end SessionServer
