import SessionServer.Proofs.Bundle.Pulse

/-!
Contract: heartbeats follow logins exactly.

Owns:
- `Bundle.Beating`, a connection that has had so many heartbeats since its login and waits for the
  next one, and `Bundle.Gone`, a connection that has been closed and never comes back;
- `Bundle.FollowsLogins` and the theorem that the heartbeats of every timely run follow the logins.

A connection is beating from its login until it is closed, whatever becomes of its account. Before
and after, nothing is queued for it that carries the code of a heartbeat.
-/

namespace SessionServer.Bundle

open Server

variable {σ : Type}

/-! ## Open connections -/

/-- Whether a step is the end of the connection. -/
def Step.closes (connection : ConnectionId) : Step σ → Bool
  | .close closed => closed = connection
  | _ => false

/-- A connection that logged in at `start` has had so many heartbeats and waits for the next one. -/
structure Beating (heartbeat start : Nat) (connection : ConnectionId) (count : Nat)
    (server : Server (Features σ)) : Prop where
  waits : ∃ id task, server.scheduler.Attends connection id task ∧
    task.due = some (start + (count + 1) * heartbeat)
  since : start + count * heartbeat ≤ server.scheduler.now
  ahead : server.scheduler.now ≤ start + (count + 1) * heartbeat

section Open

variable {heartbeat start count : Nat} {connection : ConnectionId}
  {before after server : Server (Features σ)} {step : Step σ}

/-- When everything has run that is due, the next heartbeat lies ahead. -/
theorem Beating.now_lt (beating : Beating heartbeat start connection count server)
    (settled : server.scheduler.Settled) :
    server.scheduler.now < start + (count + 1) * heartbeat := by
  obtain ⟨id, task, attends, due⟩ := beating.waits
  exact settled _ (Scheduler.mem_moments (Scheduler.mem_of_task? attends.found) due)

/-- As long as its task waits unchanged and the clock stands still, a connection goes on beating. -/
theorem Beating.of_attends (beating : Beating heartbeat start connection count before)
    (kept : ∀ {id task}, before.scheduler.Attends connection id task →
      after.scheduler.Attends connection id task)
    (now : after.scheduler.now = before.scheduler.now) :
    Beating heartbeat start connection count after := by
  obtain ⟨id, task, attends, due⟩ := beating.waits
  exact ⟨⟨id, task, kept attends, due⟩, now ▸ beating.since, now ▸ beating.ahead⟩

variable [EntityStore σ Player] {flushPeriod : Nat}

/-- The due time of a task: the heartbeat if it is the task of the connection, and nothing to it
otherwise. -/
theorem Beating.ran (beating : Beating heartbeat start connection count before)
    (paced : Paced heartbeat flushPeriod before) {id : TaskId}
    {task : Task (Procedure (Features σ))} {period : Nat}
    (found : before.scheduler.task? id = some task)
    (running : before.scheduler.isStopped id = false)
    (due : task.due = some before.scheduler.now)
    (rate : ∀ connection, task.timing.connection? = some connection → period = heartbeat)
    (scheduler : after.scheduler = before.scheduler.rearm id period) :
    if task.timing.connection? = some connection then
      before.scheduler.now = start + (count + 1) * heartbeat ∧
        Beating heartbeat start connection (count + 1) after
    else Beating heartbeat start connection count after := by
  obtain ⟨own, waiting, attends, next⟩ := beating.waits
  have stands : after.scheduler.now = before.scheduler.now := by
    rw [scheduler]
    rfl
  split
  · next timing =>
      -- The connection has one attendant only, so this is the task that waits.
      have single := (paced.staffed.single ⟨found, timing, running⟩).symm.trans
        (paced.staffed.single attends)
      cases single
      cases found.symm.trans attends.found
      obtain rfl := rate connection timing
      have now : before.scheduler.now = start + (count + 1) * period :=
        Option.some.inj (due.symm.trans next)
      have later : before.scheduler.now + period = start + (count + 1 + 1) * period := by
        rw [now, Nat.add_assoc, ← Nat.succ_mul]
      refine ⟨now, ⟨id, { task with due := some (before.scheduler.now + period) }, ?_, ?_⟩, ?_, ?_⟩
      · rw [scheduler]
        exact Scheduler.attends_rearm.mpr ⟨task, attends, (if_pos rfl).symm⟩
      · rw [later]
      · exact Nat.le_of_eq (now.symm.trans stands.symm)
      · rw [stands, ← later]
        exact Nat.le_add_right _ _
  · next other =>
      have apart : ∀ {waits : TaskId} {task : Task (Procedure (Features σ))},
          before.scheduler.Attends connection waits task → id ≠ waits := by
        rintro waits task attends rfl
        cases found.symm.trans attends.found
        exact other attends.timing
      refine beating.of_attends ?_ stands
      intro waits task attends
      rw [scheduler]
      exact Scheduler.attends_rearm.mpr ⟨task, attends, (if_neg (apart attends)).symm⟩

/-- A step that does not close the connection is its next heartbeat, or the wait for it goes on. -/
theorem Beating.apply (beating : Beating heartbeat start connection count before)
    (paced : Paced heartbeat flushPeriod before) (pulse : Pulse heartbeat before after step)
    (timely : Event.Timely ⟨before, step, after⟩) (stays : step.closes connection = false) :
    Event.beats connection ⟨before, step, after⟩ = [] ∧
        Beating heartbeat start connection count after ∨
      Event.beats connection ⟨before, step, after⟩ = [start + (count + 1) * heartbeat] ∧
        Beating heartbeat start connection (count + 1) after := by
  cases pulse with
  | still _ _ scheduler silent =>
      exact .inl ⟨silent connection, beating.of_attends (scheduler ▸ id) (by rw [scheduler])⟩
  | closed closed _ scheduler silent =>
      have apart : connection ≠ closed := fun same => of_decide_eq_false stays same.symm
      refine .inl ⟨silent connection, beating.of_attends ?_ (by rw [scheduler]; rfl)⟩
      intro id task attends
      rw [scheduler]
      exact paced.staffed.attends_cancelSession.mpr ⟨attends, apart⟩
  | admitted _ _ scheduler silent =>
      obtain ⟨free, running⟩ := paced.staffed.ahead before.scheduler.nextId (Nat.le_refl _)
      refine .inl ⟨silent connection, beating.of_attends ?_ ?_⟩
      · intro id task attends
        rw [scheduler]
        exact (Scheduler.attends_schedule free running _ _).mpr (.inl attends)
      · rw [scheduler, Scheduler.now_schedule]
  | passed seconds _ scheduler silent =>
      obtain ⟨id, task, attends, due⟩ := beating.waits
      have mayPass : before.scheduler.MayPass seconds := timely
      have reached : after.scheduler.now = before.scheduler.now + seconds := by
        rw [scheduler]
        rfl
      refine .inl ⟨silent connection, ⟨id, task, ?_, due⟩, ?_, ?_⟩
      · rw [scheduler]
        exact ⟨attends.found, attends.timing, attends.running⟩
      · rw [reached]
        exact Nat.le_add_right_of_le beating.since
      · rw [reached]
        exact mayPass _ (Scheduler.mem_moments (Scheduler.mem_of_task? attends.found) due)
  | retired stopped _ scheduler silent =>
      refine .inl ⟨silent connection, beating.of_attends ?_ ?_⟩
      · intro id task attends
        rw [scheduler]
        exact (Scheduler.attends_retire stopped).mpr attends
      · rw [scheduler, Scheduler.now_retire]
  | ran found running _ rate _ scheduler told =>
      have due : (before.scheduler.task? _).bind Task.due = some before.scheduler.now := timely
      rw [found, Option.bind_some] at due
      have turn := beating.ran paced found running due rate scheduler
      rw [told]
      split at turn
      · next own =>
          rw [if_pos own, turn.1]
          exact .inr ⟨rfl, turn.2⟩
      · next other =>
          rw [if_neg other]
          exact .inl ⟨rfl, turn⟩

variable {table : Table (Features σ)}

/-- As long as it stays open, a connection gets its heartbeats one after the other, each in time. -/
theorem beats_while_open (beating : Beating heartbeat start connection 0 server)
    (paced : Paced heartbeat flushPeriod server)
    (serves : Serves table Players.check heartbeat flushPeriod) (steps : List (Step σ))
    (stays : ∀ step ∈ steps, step.closes connection = false)
    (timely : ∀ event ∈ (machine table).trace server steps, Event.Timely event) :
    ∃ count, beats connection ((machine table).trace server steps) =
        (List.range count).map (fun earlier => start + (earlier + 1) * heartbeat) ∧
      Beating heartbeat start connection count ((machine table).run server steps) := by
  induction steps using List.reverseRecOn with
  | nil => exact ⟨0, rfl, beating⟩
  | append_singleton steps last inductionHypothesis =>
      rw [Machine.trace_append] at timely
      rw [Machine.run_append]
      obtain ⟨earlier, now⟩ := List.forall_mem_append.mp timely
      obtain ⟨staysEarlier, staysNow⟩ := List.forall_mem_append.mp stays
      obtain ⟨count, told, beating⟩ := inductionHypothesis staysEarlier earlier
      have pacedThen := paced_run paced serves earlier
      have timelyNow := now _ List.mem_cons_self
      rw [beats_trace_snoc, told]
      rcases beating.apply pacedThen (pacedThen.pulse serves last) timelyNow
        (staysNow last List.mem_cons_self) with ⟨silent, still⟩ | ⟨beat, next⟩
      · refine ⟨count, ?_, still⟩
        rw [silent, List.append_nil]
      · refine ⟨count + 1, ?_, next⟩
        rw [beat, List.range_succ, List.map_append]
        rfl

/-- Nobody gets a heartbeat who is not authorized. -/
theorem beats_of_unauthorized (paced : Paced heartbeat flushPeriod before)
    (pulse : Pulse heartbeat before after step) (unauthorized : ¬Authorized before connection) :
    Event.beats connection ⟨before, step, after⟩ = [] := by
  cases pulse with
  | still _ _ _ silent => exact silent connection
  | closed _ _ _ silent => exact silent connection
  | admitted _ _ _ silent => exact silent connection
  | passed _ _ _ silent => exact silent connection
  | retired _ _ _ silent => exact silent connection
  | ran found running _ _ _ _ told =>
      rw [told, if_neg]
      exact fun own => unauthorized (paced.staffed.present_of_attends ⟨found, own, running⟩)

end Open

/-! ## Closed connections -/

/-- The connection is closed, and its number has been given out and will not be given out again. -/
structure Gone (connection : ConnectionId) (server : Server (Features σ)) : Prop where
  missing : server.registry.session? connection = none
  given : connection.number < server.registry.nextNumber

section Closed

variable {connection : ConnectionId} {before after server : Server (Features σ)} {step : Step σ}

theorem Gone.not_authorized (gone : Gone connection server) : ¬Authorized server connection := by
  intro authorized
  unfold Authorized Registry.state? at authorized
  rw [gone.missing] at authorized
  cases authorized

variable [EntityStore σ Player]

theorem Gone.apply (gone : Gone connection before) (effect : Effect before after step) :
    Gone connection after := by
  have given := Nat.lt_of_lt_of_le gone.given effect.turnover.nextNumber_le
  refine ⟨?_, given⟩
  cases login : step.login? before with
  | none =>
      cases found : after.registry.session? connection with
      | none => rfl
      | some session =>
          rcases effect.turnover.session?_of_no_login login found with old | ⟨-, new⟩
          · exact old.symm.trans gone.missing
          · exact absurd new (Nat.ne_of_lt gone.given)
  | some entry =>
      obtain ⟨admitted, uid⟩ := entry
      have isOpen : before.registry.contains admitted = true := Step.isOpen_of_login? login
      rw [(effect.admission login).registry, Registry.session?_enroll isOpen, gone.missing, if_neg]
      · rfl
      · rintro rfl
        rw [Registry.contains, gone.missing] at isOpen
        cases isOpen

variable {table : Table (Features σ)} {heartbeat flushPeriod : Nat}

/-- After its end a connection gets no heartbeat any more. -/
theorem Gone.beats_eq_nil (gone : Gone connection server)
    (paced : Paced heartbeat flushPeriod server)
    (serves : Serves table Players.check heartbeat flushPeriod) (steps : List (Step σ))
    (timely : ∀ event ∈ (machine table).trace server steps, Event.Timely event) :
    beats connection ((machine table).trace server steps) = [] := by
  induction steps generalizing server with
  | nil => rfl
  | cons first rest inductionHypothesis =>
      obtain ⟨now, later⟩ := List.forall_mem_cons.mp timely
      have silent := beats_of_unauthorized paced (paced.pulse serves first) gone.not_authorized
      have effect := (effect_apply serves paced.standing first).1
      have rest := inductionHypothesis (gone.apply effect) (paced.apply serves now) later
      rw [beats_trace_cons, silent, rest]
      rfl

/-- A connection that is closed gets no heartbeat from then on. -/
theorem beats_of_close (paced : Paced heartbeat flushPeriod server)
    (serves : Serves table Players.check heartbeat flushPeriod)
    (isOpen : server.registry.contains connection = true) (steps : List (Step σ))
    (timely : ∀ event ∈ (machine table).trace server (.close connection :: steps),
      Event.Timely event) :
    beats connection ((machine table).trace server (.close connection :: steps)) = [] := by
  obtain ⟨now, later⟩ := List.forall_mem_cons.mp timely
  have gone : Gone connection ((Step.close connection).apply table server) := by
    refine ⟨?_, paced.standing.sound.numbered isOpen⟩
    exact (Registry.session?_close _ connection connection).trans (if_pos rfl)
  have silent : Event.beats connection
      ⟨server, .close connection, (Step.close connection).apply table server⟩ = [] :=
    Event.beats_of_unsent connection (Event.sent_eq (List.append_nil _).symm)
  rw [beats_trace_cons, silent, gone.beats_eq_nil (paced.apply serves now) serves steps later]
  rfl

/-- Of the steps that are left when a connection is about to be closed, none is its heartbeat. -/
theorem beats_of_rest (paced : Paced heartbeat flushPeriod server)
    (serves : Serves table Players.check heartbeat flushPeriod)
    (isOpen : server.registry.contains connection = true) (steps : List (Step σ))
    (timely : ∀ event ∈ (machine table).trace server
      (steps.dropWhile fun step => !step.closes connection), Event.Timely event) :
    beats connection ((machine table).trace server
      (steps.dropWhile fun step => !step.closes connection)) = [] := by
  have closes := List.head?_dropWhile_not (fun step : Step σ => !step.closes connection) steps
  cases remaining : steps.dropWhile fun step => !step.closes connection with
  | nil => rfl
  | cons first rest =>
      rw [remaining] at closes timely
      have isClose : first.closes connection = true := (Bool.not_eq_false' _).mp closes
      cases first with
      | close closed =>
          cases (of_decide_eq_true isClose : closed = connection)
          exact beats_of_close paced serves isOpen rest timely
      | _ => cases isClose

end Closed

/-! ## Heartbeats and logins -/

section Logins

variable [EntityStore σ Player]

/-- The heartbeats of a run, told from its logins and closes. -/
structure FollowsLogins (heartbeat : Nat) (table : Table (Features σ)) (start : Server (Features σ))
    (steps : List (Step σ)) : Prop where
  /-- Exactly the authorized sessions are tracked. -/
  authorized : ∀ connection,
    ((machine table).run start steps).scheduler.tracked.contains connection = true ↔
      ((machine table).run start steps).registry.state? connection = some State.authorized
  /-- What is tracked of a connection is one task, which waits and has not been cancelled. -/
  single : ∀ connection ids,
    ((machine table).run start steps).scheduler.tracked.get? connection = some ids →
      ∃ id task, ids = [id] ∧
        ((machine table).run start steps).scheduler.Attends connection id task
  /-- Without a login there is no heartbeat. -/
  never : ∀ connection, logins connection ((machine table).trace start steps) = [] →
    beats connection ((machine table).trace start steps) = []
  /-- A connection that logged in gets one heartbeat at each multiple of the period after its login
  that is reached before it is closed, whether or not it has lost its account in between. At the
  last of these moments the close may come first. -/
  exact : ∀ before step after connection uid, steps = before ++ step :: after →
    step.login? ((machine table).run start before) = some (connection, uid) →
      let since := ((machine table).run start before).scheduler.now
      let last := (machine table).run start
        (before ++ step :: after.takeWhile fun later => !later.closes connection)
      ∃ count, beats connection ((machine table).trace start steps) =
          (List.range count).map (fun earlier => since + (earlier + 1) * heartbeat) ∧
        since + count * heartbeat ≤ last.scheduler.now ∧
        last.scheduler.now ≤ since + (count + 1) * heartbeat ∧
        (last.scheduler.Settled → last.scheduler.now < since + (count + 1) * heartbeat)
  /-- After its end a connection gets no heartbeat. -/
  closed : ∀ before after connection, steps = before ++ .close connection :: after →
    ((machine table).run start before).registry.contains connection = true →
      beats connection
        ((machine table).trace ((machine table).run start before) (.close connection :: after)) = []

variable {store : σ} {table : Table (Features σ)} {start : Server (Features σ)}
  {heartbeat flushPeriod : Nat} {steps : List (Step σ)}

theorem Started.logins_of_authorized (started : Started store table start)
    {connection : ConnectionId}
    (authorized : Authorized ((machine table).run start steps) connection) :
    logins connection ((machine table).trace start steps) ≠ [] := by
  obtain ⟨session, found, state⟩ := Option.map_eq_some_iff.mp authorized
  rcases (started.recorded steps).1.sessions found with ⟨rfl, -⟩ | ⟨-, uid, once, -⟩
  · exact absurd state (by decide)
  · rw [once]
    exact List.cons_ne_nil uid []

/-- Without a login there is no heartbeat. -/
theorem Started.beats_of_no_login (started : Started store table start)
    (paced : Paced heartbeat flushPeriod start)
    (serves : Serves table Players.check heartbeat flushPeriod)
    (timely : ∀ event ∈ (machine table).trace start steps, Event.Timely event)
    {connection : ConnectionId}
    (none : logins connection ((machine table).trace start steps) = []) :
    beats connection ((machine table).trace start steps) = [] := by
  induction steps using List.reverseRecOn with
  | nil => rfl
  | append_singleton steps last inductionHypothesis =>
      rw [Machine.trace_append] at timely none
      rw [logins_append] at none
      obtain ⟨noneEarlier, -⟩ := List.append_eq_nil_iff.mp none
      obtain ⟨earlier, -⟩ := List.forall_mem_append.mp timely
      have pacedThen := paced_run paced serves earlier
      have silent := beats_of_unauthorized pacedThen (pacedThen.pulse serves last)
        fun authorized => started.logins_of_authorized authorized noneEarlier
      rw [beats_trace_snoc, inductionHypothesis earlier noneEarlier, silent, List.append_nil]

theorem Started.logins_of_state_none (started : Started store table start)
    {connection : ConnectionId}
    (known : ((machine table).run start steps).registry.state? connection = some State.none) :
    logins connection ((machine table).trace start steps) = [] := by
  obtain ⟨session, found, state⟩ := Option.map_eq_some_iff.mp known
  rcases (started.recorded steps).1.sessions found with ⟨-, nothing⟩ | ⟨authorized, -⟩
  · exact nothing
  · rw [authorized] at state
    exact absurd state (by decide)

/-- A login queues no heartbeat, and the connection waits for its first one. -/
theorem Pulse.beating_of_login {before after : Server (Features σ)} {step : Step σ}
    (pulse : Pulse heartbeat before after step) (paced : Paced heartbeat flushPeriod before)
    (positive : 0 < heartbeat) {connection : ConnectionId} {uid : Identity}
    (login : step.login? before = some (connection, uid)) :
    Event.beats connection ⟨before, step, after⟩ = [] ∧
      Beating heartbeat before.scheduler.now connection 0 after := by
  cases pulse with
  | still apart _ _ _ =>
      rw [apart] at login
      cases login
  | @admitted admitted text account entered _ scheduler silent =>
      rw [Step.login?, entered] at login
      cases login
      obtain ⟨free, running⟩ := paced.staffed.ahead before.scheduler.nextId (Nat.le_refl _)
      have now : after.scheduler.now = before.scheduler.now := by
        rw [scheduler, Scheduler.now_schedule]
      have waits : after.scheduler.Attends connection before.scheduler.nextId
          (before.scheduler.newTask (.session connection heartbeat)
            ((Login.beat connection).whileOpen connection)) := by
        rw [scheduler]
        exact (Scheduler.attends_schedule free running _ _).mpr (.inr ⟨rfl, rfl, rfl⟩)
      have delay : (Timing.session connection heartbeat).firstDelay? = some heartbeat :=
        if_neg (Nat.ne_of_gt positive)
      refine ⟨silent connection, ⟨_, _, waits, ?_⟩, ?_, ?_⟩
      · rw [Scheduler.newTask, delay, Nat.zero_add, Nat.one_mul]
        rfl
      · rw [now, Nat.zero_mul]
        exact Nat.le_refl _
      · rw [now]
        exact Nat.le_add_right _ _
  | closed _ _ _ _ => cases login
  | passed _ _ _ _ => cases login
  | retired _ _ _ _ => cases login
  | ran _ _ _ _ _ _ _ => cases login

/-- From its login on a connection gets its heartbeats in time, as many as are reached before it is
closed. -/
theorem beats_since_login (paced : Paced heartbeat flushPeriod start)
    (serves : Serves table Players.check heartbeat flushPeriod) (positive : 0 < heartbeat)
    {step : Step σ} {connection : ConnectionId} {uid : Identity}
    (login : step.login? start = some (connection, uid)) {after : List (Step σ)}
    (timely : ∀ event ∈ (machine table).trace start (step :: after), Event.Timely event) :
    ∃ count, beats connection ((machine table).trace start (step :: after)) =
        (List.range count).map
          (fun earlier => start.scheduler.now + (earlier + 1) * heartbeat) ∧
      Beating heartbeat start.scheduler.now connection count ((machine table).run start
        (step :: after.takeWhile fun later => !later.closes connection)) := by
  obtain ⟨now, later⟩ := List.forall_mem_cons.mp timely
  change ∀ event ∈ (machine table).trace (step.apply table start) after,
    Event.Timely event at later
  obtain ⟨silent, beating⟩ := (paced.pulse serves step).beating_of_login paced positive login
  have pacedThen := paced.apply serves now
  have parts : (machine table).trace (step.apply table start) after =
      (machine table).trace (step.apply table start)
        (after.takeWhile (fun later => !later.closes connection) ++
          after.dropWhile (fun later => !later.closes connection)) := by
    rw [List.takeWhile_append_dropWhile]
  have stays : ∀ step ∈ after.takeWhile (fun later => !later.closes connection),
      step.closes connection = false := by
    intro step member
    exact (Bool.not_eq_true' _).mp (List.all_eq_true.mp List.all_takeWhile step member)
  rw [Machine.trace_append] at parts
  rw [parts] at later
  obtain ⟨timelyOpen, timelyRest⟩ := List.forall_mem_append.mp later
  obtain ⟨count, told, last⟩ := beats_while_open beating pacedThen serves _ stays timelyOpen
  refine ⟨count, ?_, last⟩
  have rest : beats connection ((machine table).trace
      ((machine table).run (step.apply table start)
        (after.takeWhile fun later => !later.closes connection))
      (after.dropWhile fun later => !later.closes connection)) = [] := by
    obtain ⟨id, task, attends, -⟩ := last.waits
    have pacedLast := paced_run pacedThen serves timelyOpen
    have authorized := pacedLast.staffed.present_of_attends attends
    exact beats_of_rest pacedLast serves (Registry.contains_of_state? authorized) after timelyRest
  rw [beats_trace_cons, silent, parts, beats_append, told, rest]
  exact List.append_nil _

/-- The heartbeats of a server with the bundled providers follow its logins in every timely run. -/
theorem heartbeats_follow_logins {capacity : Nat} {secret : Option String} {entropy : List UInt8}
    {epoch : UInt64} (made : bundledTable heartbeat flushPeriod = .ok table)
    (up : (Server.fresh capacity (.fresh secret entropy store) epoch).start table =
      (some (.ok ()), start))
    (positive : 0 < heartbeat) (steps : List (Step σ))
    (timely : ∀ event ∈ (machine table).trace start steps, Event.Timely event) :
    FollowsLogins heartbeat table start steps := by
  have serves := serves_of_bundledTable made
  have started : Started store table start :=
    ⟨heartbeat, flushPeriod, capacity, secret, entropy, epoch, made, up⟩
  obtain ⟨initial, -⟩ := paced_start made up
  have paced := paced_run initial serves timely
  constructor
  · intro connection
    rw [OrderedMap.contains_iff]
    constructor
    · rintro ⟨ids, tracked⟩
      exact paced.staffed.present tracked
    · intro authorized
      obtain ⟨id, task, attends⟩ := paced.staffed.attended connection authorized
      exact ⟨[id], paced.staffed.single attends⟩
  · intro connection ids tracked
    exact paced.staffed.attends_of_tracked tracked
  · intro connection none
    exact started.beats_of_no_login initial serves timely none
  · rintro before step after connection uid rfl login
    rw [Machine.trace_append] at timely ⊢
    obtain ⟨earlier, later⟩ := List.forall_mem_append.mp timely
    have nothing := started.beats_of_no_login initial serves earlier
      (started.logins_of_state_none (Step.state?_of_login? login))
    rw [beats_append, nothing, Machine.run_append]
    obtain ⟨count, told, beating⟩ :=
      beats_since_login (paced_run initial serves earlier) serves positive login later
    exact ⟨count, told, beating.since, beating.ahead, beating.now_lt⟩
  · rintro before after connection rfl isOpen
    rw [Machine.trace_append] at timely
    obtain ⟨earlier, later⟩ := List.forall_mem_append.mp timely
    exact beats_of_close (paced_run initial serves earlier) serves isOpen after later

/-- Connection 1 loses its account to connection 2 after three seconds, keeps its heartbeat until it
is closed after fifteen, and gets none at the moment at which its next one would have been due. -/
theorem heartbeats_follow_logins_evicted :
    let steps : List (Step (FaultyStore Player)) :=
      [.accept, .accept, .receive ⟨1⟩ sampleLogin, .pass 3, .receive ⟨2⟩ sampleLogin, .pass 7,
        .fire 1, .pass 3, .fire 2, .pass 2, .close ⟨1⟩, .pass 5, .fire 1, .pass 3, .fire 2]
    beats ⟨1⟩ ((machine sampleTable).trace (sampleServer {}) steps) = [10] ∧
      beats ⟨2⟩ ((machine sampleTable).trace (sampleServer {}) steps) = [13, 23] ∧
      FollowsLogins 10 sampleTable (sampleServer {}) steps := by
  have made : bundledTable 10 60 = .ok sampleTable := rfl
  have up : (Server.fresh 8 (.fresh (some "s") [] {}) 0).start sampleTable =
      (some (.ok ()), sampleServer {}) := rfl
  refine ⟨by decide +kernel, by decide +kernel, ?_⟩
  exact heartbeats_follow_logins made up (by decide) _ (by decide +kernel)

end Logins

end SessionServer.Bundle
