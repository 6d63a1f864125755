import SessionServer.Proofs.Bundle.Effects
import SessionServer.Proofs.Cache.Consistency

/-!
Contract: what a step does to the records of the players, whatever fails in the store.

Owns:
- `Frame.reportsCreation` and `Bundle.goldReport`, the frames that tell of a new record and of a
  grant;
- `Bundle.Turn`, what a step can do to the records and report of it, and the proofs that it does
  nothing else and keeps the cache in order.

The store is a memory store that may fail. Nothing but its outage changes by itself.
-/

namespace SessionServer

instance : LawfulEntity Player := ⟨fun _ _ => rfl⟩

/-! ## Reports -/

/-- Whether a frame is the report of a record that has just been created. -/
def Frame.reportsCreation (frame : Frame) : Bool :=
  frame.beginsWith (Envelope.opening Code.changeScene ++ "\x7b\"create\":true".toList)

namespace Frame

theorem carries_of_reportsCreation {frame : Frame} (reports : frame.reportsCreation = true) :
    frame.carries Code.changeScene = true := by
  obtain ⟨connection, payload⟩ := frame
  cases payload with
  | text content =>
      have longer := List.isPrefixOf_iff_prefix.mp reports
      exact List.isPrefixOf_iff_prefix.mpr ((List.prefix_append _ _).trans longer)
  | close => cases reports

theorem reportsCreation_of_carries {frame : Frame}
    (apart : frame.carries Code.changeScene = false) : frame.reportsCreation = false := by
  rw [Bool.eq_false_iff]
  intro reports
  rw [carries_of_reportsCreation reports] at apart
  cases apart

theorem reportsCreation_scene (connection : ConnectionId) (scene : Int) (created : Bool) :
    (envelope connection Code.changeScene
      (Args.ofList [("scene", .integer scene), ("create", .bool created)])).reportsCreation =
        created := by
  have order : compare "create" "scene" = .lt := by decide +kernel
  have sorted : Args.ofList [("scene", .integer scene), ("create", .bool created)] =
      [("create", .bool created), ("scene", .integer scene)] := by
    show Entries.insert "create" (Json.bool created) [("scene", Json.integer scene)] = _
    rw [Entries.insert, order]
  rw [sorted, reportsCreation, beginsWith_envelope, decide_eq_true rfl, Bool.true_and]
  cases created <;> rfl

theorem reportsCreation_sceneFrames (connection : ConnectionId)
    {entered : Option (Player × Bool)}
    (known : ∀ player created, entered = some (player, created) → created = false) :
    ∀ frame ∈ Players.sceneFrames connection entered, frame.reportsCreation = false := by
  intro frame member
  cases entered with
  | none => cases member
  | some entry =>
      obtain ⟨player, created⟩ := entry
      rw [List.mem_singleton.mp member, reportsCreation_scene]
      exact known player created rfl

end Frame

namespace Cache

/-- What entering an account can come to: its record is looked up, or a new one is made in place of
none. -/
theorem enter_cases (cache : Cache Player (FaultyStore Player)) (uid : Identity)
    (now : UInt64) :
    (∃ entered, cache.enter uid now = (entered, (cache.get uid).2) ∧
      ∀ player created, entered = some (player, created) → created = false) ∨
      cache.visible uid = none ∧
        ∃ after, cache.enter uid now = (some (Player.fresh uid now, true), after) ∧
          after.visible = Function.update cache.visible uid (some (Player.fresh uid now)) ∧
          (cache.Consistent → after.Consistent) := by
  unfold enter
  rcases cache.get_cases uid with ⟨error, answer⟩ | answer | ⟨player, missing, kept, answer⟩
  · rw [answer]
    exact .inl ⟨none, rfl, nofun⟩
  · rw [answer]
    cases found : cache.visible uid with
    | some player =>
        refine .inl ⟨_, rfl, ?_⟩
        intro _ created same
        cases same
        rfl
    | none =>
        rcases made : cache.create (Player.fresh uid now) with ⟨error | saved, after⟩
        · rcases cache.create_cases (Player.fresh uid now) with
            ⟨_, refused⟩ | ⟨_, _, _, created, -⟩
          · rw [made] at refused
            cases refused
            dsimp only
            rw [made]
            exact .inl ⟨none, rfl, nofun⟩
          · rw [made] at created
            cases created
        · obtain ⟨key, keyed, origin, visible⟩ := visible_of_create made
          have same : saved = Player.fresh uid now := origin.resolve_right (nofun)
          subst same
          cases keyed
          refine .inr ⟨rfl, after, ?_, visible, ?_⟩
          · dsimp only
            rw [made]
            rfl
          · intro consistent
            have created := consistent.create (Player.fresh uid now)
            rwa [made] at created
  · rw [answer]
    refine .inl ⟨_, rfl, ?_⟩
    intro _ created same
    cases same
    rfl

end Cache

namespace Bundle

open Server

/-! ## Turns -/

/-- The report of a balance. -/
def goldReport (connection : ConnectionId) (gold : Int) : Frame :=
  .envelope connection Code.playerGold (Args.ofList [("gold", .integer gold)])

section Turns

/-- The records of the players as a client of the cache sees them. -/
def records (server : Server (Features (FaultyStore Player))) : EntityKey → Option Player :=
  server.memory.cache.visible

/-- Of what the store does by itself, a step has only the beginnings and ends of outages. -/
def Step.KeepsRows : Step (FaultyStore Player) → Prop
  | .disturb change => ∀ faulty, (change faulty).row = faulty.row
  | _ => True

/-- What a step can do to the records of the players. -/
inductive Turn (event : Event (FaultyStore Player)) : Prop where
  | quiet (same : records event.after = records event.before)
      (uncreated : ∀ frame ∈ event.sent, frame.reportsCreation = false)
      (ungranted : ∀ frame ∈ event.sent, frame.carries Code.playerGold = false)
  | created {connection : ConnectionId} {uid : Identity} {player : Player}
      (login : event.login? = some (connection, uid))
      (missing : records event.before uid = none)
      (made : records event.after = Function.update (records event.before) uid (some player))
      (gold : player.gold = Player.startingGold)
      (reported : (event.sent.filter Frame.reportsCreation).length ≤ 1)
      (ungranted : ∀ frame ∈ event.sent, frame.carries Code.playerGold = false)
  | granted {connection : ConnectionId} {text : String} {uid : Identity} {player richer : Player}
      {now : UInt64}
      (asked : event.step = .receive connection text)
      (holds : event.before.registry.identity? connection = some uid)
      (found : records event.before uid = some player)
      (granted : player.granted? now = some richer)
      (changed : records event.after = Function.update (records event.before) uid (some richer))
      (reported : event.sent = [goldReport connection richer.gold.toInt])

variable {before after : Server (Features (FaultyStore Player))}
  {step : Step (FaultyStore Player)} {registry : Registry} {sent : List Frame}
  {cache : Cache Player (FaultyStore Player)}

theorem Moves.records (moves : Moves before after registry sent (before.memory.withCache cache)) :
    records after = cache.visible := by
  rw [Bundle.records, moves.memory]
  rfl

/-- A step that neither shows other records nor reports anything about them. -/
private theorem turn_of_quiet (same : records after = records before)
    (silent : ∀ frame ∈ Event.sent ⟨before, step, after⟩,
      frame.Avoids [Code.changeScene, Code.playerGold]) :
    Turn ⟨before, step, after⟩ := by
  refine .quiet same ?_ ?_
  · intro frame member
    exact Frame.reportsCreation_of_carries (silent frame member _ (by decide))
  · intro frame member
    exact silent frame member _ (by decide)

private theorem turn_of_silence (same : records after = records before)
    (silence : Event.sent ⟨before, step, after⟩ = []) : Turn ⟨before, step, after⟩ := by
  apply turn_of_quiet same
  rw [silence]
  exact nofun

theorem visible_disturbed (change : FaultyStore Player → FaultyStore Player)
    (kept : ∀ faulty, (change faulty).row = faulty.row) :
    (disturbed cache change).visible = cache.visible := by
  have rows : (disturbed cache change).row = cache.row := kept cache.store
  rw [Cache.visible, rows]
  rfl

theorem consistent_disturbed (consistent : cache.Consistent)
    (change : FaultyStore Player → FaultyStore Player)
    (kept : ∀ faulty, (change faulty).row = faulty.row) :
    (disturbed cache change).Consistent := by
  have rows : (disturbed cache change).row = cache.row := kept cache.store
  constructor
  · rw [rows]
    exact consistent.rowKeyed
  · exact consistent.cachedKeyed
  · exact consistent.dirtyCached
  · rw [rows]
    exact consistent.cleanStored

/-- Whatever a login queues in front of the scene is about neither scenes nor gold. -/
private theorem avoids_welcome {registry : Registry} {connection : ConnectionId}
    {uid : Identity} {args : Args} {frame : Frame}
    (member : frame ∈ registry.notices connection uid ++
      [.envelope connection Code.loginSuccess args]) :
    frame.Avoids [Code.changeScene, Code.playerGold] := by
  rcases List.mem_append.mp member with notice | report
  · exact registry.avoids_notices (by decide) connection uid frame notice
  · rw [List.mem_singleton.mp report]
    exact Frame.avoids_envelope connection _ (by decide)

private theorem turn_of_admission {connection : ConnectionId} {text : String} {uid : Identity}
    (login : before.login? connection text = some uid)
    (moves : Admission before after connection uid) :
    Turn ⟨before, .receive connection text, after⟩ := by
  have sent := moves.sent (.receive connection text)
  have shown := moves.records
  rw [List.append_cons] at sent
  have poor : ∀ frame ∈ Event.sent ⟨before, .receive connection text, after⟩,
      frame.carries Code.playerGold = false := by
    intro frame member
    rw [sent] at member
    rcases List.mem_append.mp member with welcome | scene
    · exact avoids_welcome welcome _ (by decide)
    · have plain : Code.changeScene ∉ [Code.playerGold] := by decide
      exact Players.avoids_sceneFrames plain connection _ frame scene _ List.mem_cons_self
  rcases before.memory.cache.enter_cases uid before.clock with
    ⟨entered, answer, known⟩ | ⟨missing, made, answer, visible, -⟩
  · rw [answer] at sent shown
    refine .quiet (shown.trans (Cache.visible_get _ uid)) ?_ poor
    intro frame member
    rw [sent] at member
    rcases List.mem_append.mp member with welcome | scene
    · exact Frame.reportsCreation_of_carries (avoids_welcome welcome _ (by decide))
    · exact Frame.reportsCreation_sceneFrames connection known frame scene
  · rw [answer] at sent shown
    have entry : Event.login? ⟨before, .receive connection text, after⟩ =
        some (connection, uid) := by
      show (before.login? connection text).map _ = _
      rw [login]
      rfl
    refine .created entry missing (shown.trans visible) rfl ?_ poor
    have quiet : (before.registry.notices connection uid ++
        [Frame.envelope connection Code.loginSuccess (Login.successArgs uid before.clock)]).filter
          Frame.reportsCreation = [] := by
      rw [List.filter_eq_nil_iff]
      intro frame welcome
      rw [Frame.reportsCreation_of_carries (avoids_welcome welcome _ (by decide))]
      exact Bool.false_ne_true
    rw [sent, List.filter_append, quiet, List.nil_append]
    exact Nat.le_trans (List.length_filter_le _ _) (Players.sceneFrames_spec connection _).1

private theorem turn_of_grant {connection : ConnectionId} {text : String} {uid : Identity}
    (holds : before.registry.identity? connection = some uid)
    (moves : Grant before after connection uid) :
    Turn ⟨before, .receive connection text, after⟩ := by
  have sent := moves.sent (.receive connection text)
  have shown := moves.records
  rcases before.memory.cache.revise_cases uid (fun player => player.granted? before.clock) with
    ⟨error, answer⟩ | ⟨-, answer⟩ | ⟨player, found, ⟨-, answer⟩ | ⟨richer, granted, answer⟩⟩
  · rw [answer] at sent shown
    exact turn_of_silence shown sent
  · rw [answer] at sent shown
    exact turn_of_silence shown sent
  · rw [answer] at sent shown
    exact turn_of_silence (shown.trans (Cache.visible_get _ uid)) sent
  · rw [answer] at sent shown
    refine .granted rfl holds found granted ?_ sent
    rw [shown, Cache.visible_mark, Cache.visible_get]
    rfl

/-- Every step is one of the turns. -/
theorem Effect.turn (effect : Effect before after step)
    (consistent : before.memory.cache.Consistent) (kept : step.KeepsRows) :
    Turn ⟨before, step, after⟩ := by
  have unchanged : after.memory = before.memory → records after = records before := by
    intro memory
    rw [records, memory]
    rfl
  cases effect with
  | opened moves => exact turn_of_silence (unchanged moves.memory) (moves.sent _)
  | closed _ moves => exact turn_of_silence (unchanged moves.memory) (moves.sent _)
  | answered _ plain moves =>
      apply turn_of_quiet (unchanged moves.memory)
      intro frame member code listed
      rw [moves.sent] at member
      exact plain frame member code (List.mem_cons_of_mem _ listed)
  | flushed _ moves =>
      exact turn_of_silence (moves.records.trans (Cache.visible_flush consistent)) (moves.sent _)
  | drained _ frames memory =>
      exact turn_of_silence (unchanged memory) (Event.sent_of_drained before .drain frames)
  | disturbed change moves =>
      exact turn_of_silence (moves.records.trans (visible_disturbed change kept)) (moves.sent _)
  | admitted login moves => exact turn_of_admission login moves
  | granted _ holds moves => exact turn_of_grant holds moves
  | shown _ _ moves =>
      apply turn_of_quiet (moves.records.trans (Cache.visible_get _ _))
      intro frame member
      rw [moves.sent] at member
      exact Players.avoids_infoFrames (by decide) _ _ frame member

/-- Every step keeps the cache in order. -/
theorem Effect.consistent (effect : Effect before after step)
    (consistent : before.memory.cache.Consistent) (kept : step.KeepsRows) :
    after.memory.cache.Consistent := by
  cases effect with
  | opened moves =>
      rw [moves.memory]
      exact consistent
  | closed _ moves =>
      rw [moves.memory]
      exact consistent
  | answered _ _ moves =>
      rw [moves.memory]
      exact consistent
  | flushed _ moves =>
      rw [moves.memory]
      exact consistent.flush
  | drained _ _ memory =>
      rw [memory]
      exact consistent
  | disturbed change moves =>
      rw [moves.memory]
      exact consistent_disturbed consistent change kept
  | @admitted _ _ uid _ moves =>
      rw [moves.memory]
      rcases before.memory.cache.enter_cases uid before.clock with
        ⟨entered, answer, -⟩ | ⟨-, made, answer, -, keeps⟩
      · rw [answer]
        exact consistent.get uid
      · rw [answer]
        exact keeps consistent
  | @granted _ _ uid _ _ moves =>
      rw [moves.memory]
      refine consistent.revise uid fun player richer granted => ?_
      rw [(Player.granted?_eq_some_iff.mp granted).2]
      rfl
  | @shown _ _ uid _ _ moves =>
      rw [moves.memory]
      exact consistent.get uid

/-- A record that is there is neither lost nor replaced, it only grows by grants. -/
theorem Turn.keeps {event : Event (FaultyStore Player)} (turn : Turn event) {uid : Identity}
    {player : Player} (found : records event.before uid = some player) :
    records event.after uid = some player ∨
      ∃ now richer, player.granted? now = some richer ∧
        records event.after uid = some richer := by
  cases turn with
  | quiet same _ _ =>
      left
      rw [same]
      exact found
  | @created _ account _ _ missing made _ _ _ =>
      left
      rw [made, Function.update_of_ne]
      · exact found
      · rintro rfl
        rw [missing] at found
        cases found
  | @granted _ _ account owned richer now _ _ before granted changed _ =>
      by_cases owner : uid = account
      · subst owner
        rw [before] at found
        cases found
        exact .inr ⟨now, richer, granted, by rw [changed, Function.update_self]⟩
      · left
        rw [changed, Function.update_of_ne owner]
        exact found

end Turns

end Bundle

end SessionServer
