import SessionServer.Proofs.Bundle.Authentication
import SessionServer.Proofs.Scheduler.Attendance

/-!
Contract: what a step of a server with the bundled providers does to its tasks, and the heartbeats
that it queues.

Owns:
- `Event.Timely`, whether a step keeps to the rule of the clock, and `Event.beats`, the moments of
  the heartbeats that a step queues for a connection;
- `Bundle.Paced`, what the tasks owe to the sessions: those that are authorized have a heartbeat
  each, and nobody else has one;
- `Bundle.Pulse`, case by case what a step does to authorizations, tasks and heartbeats, and the
  proof that every timely step keeps `Paced`;
- `Bundle.Attained`, everything that can become of a server whose time passes by `Server.advance`,
  and the proof that it is reached by timely steps.
-/

namespace SessionServer.Bundle

open Server

variable {σ : Type}

/-! ## Heartbeats on record -/

/-- The step keeps to the rule of the clock. -/
def Event.Timely (event : Event σ) : Prop :=
  match event.step with
  | .fire task => event.before.scheduler.IsDue task
  | .pass seconds => event.before.scheduler.MayPass seconds
  | _ => True

instance (event : Event σ) : Decidable event.Timely := by
  unfold Event.Timely
  split <;> infer_instance

/-- The moments of the heartbeats that a step queues for a connection. -/
def Event.beats (connection : ConnectionId) (event : Event σ) : List Nat :=
  (event.sent.filter fun frame =>
    frame.connection = connection && frame.carries Code.heartbeat).map fun _ =>
      event.before.scheduler.now

/-- The moments of all heartbeats that have been queued for a connection. -/
def beats (connection : ConnectionId) (history : List (Event σ)) : List Nat :=
  history.flatMap (Event.beats connection)

section Beats

variable {before after : Server (Features σ)} {step : Step σ}

theorem beats_append (connection : ConnectionId) (first second : List (Event σ)) :
    beats connection (first ++ second) = beats connection first ++ beats connection second :=
  List.flatMap_append

theorem beats_snoc (connection : ConnectionId) (history : List (Event σ)) (event : Event σ) :
    beats connection (history ++ [event]) = beats connection history ++ event.beats connection := by
  rw [beats_append]
  congr 1
  exact List.append_nil _

section Traces

variable [EntityStore σ Player] (connection : ConnectionId) (table : Table (Features σ))
  (server : Server (Features σ)) (steps : List (Step σ)) (step : Step σ)

theorem beats_trace_cons :
    beats connection ((machine table).trace server (step :: steps)) =
      Event.beats connection ⟨server, step, step.apply table server⟩ ++
        beats connection ((machine table).trace (step.apply table server) steps) :=
  rfl

theorem beats_trace_snoc :
    let reached := (machine table).run server steps
    beats connection ((machine table).trace server (steps ++ [step])) =
      beats connection ((machine table).trace server steps) ++
        Event.beats connection ⟨reached, step, step.apply table reached⟩ := by
  rw [Machine.trace_append]
  exact beats_snoc _ _ _

end Traces

theorem Event.beats_of_avoids (connection : ConnectionId) {event : Event σ}
    (plain : ∀ frame ∈ event.sent, frame.Avoids [Code.heartbeat]) :
    event.beats connection = [] := by
  rw [Event.beats, List.map_eq_nil_iff, List.filter_eq_nil_iff]
  intro frame member
  rw [plain frame member _ List.mem_cons_self, Bool.and_false]
  exact Bool.false_ne_true

theorem Event.beats_of_unsent (connection : ConnectionId) {event : Event σ}
    (silence : event.sent = []) : event.beats connection = [] := by
  rw [Event.beats, silence]
  rfl

theorem Event.beats_of_queue (step : Step σ) (queue : after.queue = before.queue)
    (connection : ConnectionId) : Event.beats connection ⟨before, step, after⟩ = [] :=
  Event.beats_of_unsent connection (Event.sent_eq (by rw [queue, List.append_nil]))

theorem Event.beats_of_heartbeat {event : Event σ} {owner : ConnectionId} {args : Args}
    (sent : event.sent = [.envelope owner Code.heartbeat args]) (connection : ConnectionId) :
    event.beats connection =
      if owner = connection then [event.before.scheduler.now] else [] := by
  have counts : (Frame.envelope owner Code.heartbeat args).carries Code.heartbeat = true := by
    rw [Frame.carries_envelope, decide_eq_true rfl]
  have owned : (Frame.envelope owner Code.heartbeat args).connection = owner := rfl
  split
  · next own =>
      subst own
      simp [Event.beats, sent, counts, owned]
  · next other => simp [Event.beats, sent, counts, owned, other]

end Beats

/-! ## Authorizations -/

/-- The session of the connection is authorized. -/
def Authorized (server : Server (Features σ)) (connection : ConnectionId) : Prop :=
  server.registry.state? connection = some State.authorized

section Authorizations

variable {before : Server (Features σ)}

/-- A session that has just been opened is not authorized. -/
theorem authorized_accept (sound : before.registry.Sound) (connection : ConnectionId) :
    Authorized before.accept.2 connection ↔ Authorized before connection := by
  unfold Authorized Registry.state?
  rcases before.registry.accept_cases with full | ⟨opened, answer, -, sessions⟩
  · show (before.registry.accept.2.session? connection).map _ = _ ↔ _
    rw [full]
  · show (before.registry.accept.2.session? connection).map _ = _ ↔ _
    rw [answer, sessions]
    split
    · next new =>
        subst new
        rw [sound.toNumbered.session?_next]
        decide
    · exact Iff.rfl

theorem authorized_close (closed connection : ConnectionId) :
    Authorized (before.close closed) connection ↔
      Authorized before connection ∧ connection ≠ closed := by
  unfold Authorized Registry.state?
  show ((before.registry.close closed).2.session? connection).map _ = _ ↔ _
  rw [Registry.session?_close]
  split
  · next same =>
      subst same
      simp
  · next apart => exact (and_iff_left (Ne.symm apart)).symm

theorem not_authorized_of_login? {connection : ConnectionId} {text : String} {uid : Identity}
    (login : before.login? connection text = some uid) : ¬Authorized before connection := by
  intro authorized
  have same := Option.some.inj ((state?_of_login? login).symm.trans authorized)
  exact absurd same (by decide)

end Authorizations

/-! ## What tasks owe to sessions -/

variable [EntityStore σ Player]

/-- The tasks of the bundled providers: the flush of the records, the heartbeat of a connection. -/
inductive Duty (heartbeat flushPeriod : Nat) (task : Task (Procedure (Features σ))) : Prop where
  | flush (timing : task.timing = .repeating flushPeriod) (body : task.body = Players.flush)
  | beat (connection : ConnectionId) (timing : task.timing = .session connection heartbeat)
      (body : task.body = (Login.beat connection).whileOpen connection)

/-- Between two steps each authorized session has one task, which is its heartbeat, and every other
session task has been cancelled. -/
structure Paced (heartbeat flushPeriod : Nat) (server : Server (Features σ)) : Prop where
  standing : Standing server
  regular : server.scheduler.Regular
  staffed : server.scheduler.Staffed (Authorized server)
  duties : ∀ task ∈ server.scheduler.tasks, Duty heartbeat flushPeriod task

/-- What a step can do to authorizations and tasks, and the heartbeats that it queues. -/
inductive Pulse (heartbeat : Nat) (before after : Server (Features σ)) : Step σ → Prop where
  | still {step : Step σ} (apart : step.login? before = none)
      (sessions : ∀ connection, Authorized after connection ↔ Authorized before connection)
      (scheduler : after.scheduler = before.scheduler)
      (silent : ∀ connection, Event.beats connection ⟨before, step, after⟩ = []) :
      Pulse heartbeat before after step
  | closed (closed : ConnectionId)
      (sessions : ∀ connection,
        Authorized after connection ↔ Authorized before connection ∧ connection ≠ closed)
      (scheduler : after.scheduler = (before.scheduler.cancelSession closed).2)
      (silent : ∀ connection, Event.beats connection ⟨before, .close closed, after⟩ = []) :
      Pulse heartbeat before after (.close closed)
  | admitted {admitted : ConnectionId} {text : String} {uid : Identity}
      (login : before.login? admitted text = some uid)
      (sessions : ∀ connection,
        Authorized after connection ↔ Authorized before connection ∨ admitted = connection)
      (scheduler : after.scheduler = (before.scheduler.schedule (.session admitted heartbeat)
        ((Login.beat admitted).whileOpen admitted)).2)
      (silent : ∀ connection,
        Event.beats connection ⟨before, .receive admitted text, after⟩ = []) :
      Pulse heartbeat before after (.receive admitted text)
  | passed (seconds : Nat)
      (sessions : ∀ connection, Authorized after connection ↔ Authorized before connection)
      (scheduler : after.scheduler = before.scheduler.pass seconds)
      (silent : ∀ connection, Event.beats connection ⟨before, .pass seconds, after⟩ = []) :
      Pulse heartbeat before after (.pass seconds)
  /-- The due time of a task that has been stopped. -/
  | retired {id : TaskId} {task : Task (Procedure (Features σ))}
      (stopped : before.scheduler.isStopped task.id = true)
      (sessions : ∀ connection, Authorized after connection ↔ Authorized before connection)
      (scheduler : after.scheduler = before.scheduler.retire task)
      (silent : ∀ connection, Event.beats connection ⟨before, .fire id, after⟩ = []) :
      Pulse heartbeat before after (.fire id)
  /-- A task runs and wants to run again. -/
  | ran {id : TaskId} {task : Task (Procedure (Features σ))} {period : Nat}
      (found : before.scheduler.task? id = some task)
      (running : before.scheduler.isStopped id = false)
      (periodic : task.timing.period? = some period)
      (paced : ∀ connection, task.timing.connection? = some connection → period = heartbeat)
      (sessions : ∀ connection, Authorized after connection ↔ Authorized before connection)
      (scheduler : after.scheduler = before.scheduler.rearm id period)
      (told : ∀ connection, Event.beats connection ⟨before, .fire id, after⟩ =
        if task.timing.connection? = some connection then [before.scheduler.now] else []) :
      Pulse heartbeat before after (.fire id)

/-! ## Steps -/

section Steps

variable {table : Table (Features σ)} {heartbeat flushPeriod : Nat} {before : Server (Features σ)}

/-- What answers a text that is no login touches neither sessions nor tasks and is no heartbeat. -/
theorem Answered.aside {connection : ConnectionId}
    {result : Option FrameOutcome × Server (Features σ)}
    (answered : Answered before connection result) :
    result.2.registry = before.registry ∧ result.2.scheduler = before.scheduler ∧
      ∃ sent, result.2.queue.frames = before.queue.frames ++ sent ∧
        ∀ frame ∈ sent, frame.Avoids [Code.heartbeat] := by
  cases answered with
  | ignored outcome => exact ⟨rfl, rfl, [], (List.append_nil _).symm, nofun⟩
  | echoed args ascending =>
      refine ⟨rfl, rfl, _, rfl, ?_⟩
      intro frame member code _
      rw [List.mem_singleton.mp member]
      exact Args.carries_text ascending connection code
  | refused reason known =>
      refine ⟨rfl, rfl, _, rfl, ?_⟩
      intro frame member
      rcases List.mem_cons.mp member with rfl | closing
      · apply Frame.avoids_envelope
        rcases known with rfl | rfl <;> decide
      · rw [List.mem_singleton.mp closing]
        exact Frame.avoids_close connection _
  | granted uid holds =>
      exact ⟨rfl, rfl, _, rfl, Players.avoids_goldFrames (by decide) _ _⟩
  | shown uid holds =>
      exact ⟨rfl, rfl, _, rfl, Players.avoids_infoFrames (by decide) _ _⟩

private theorem pulse_answer (serves : Serves table Players.check heartbeat flushPeriod)
    (standing : Standing before) {connection : ConnectionId} {text : String}
    (apart : before.login? connection text = none) :
    Pulse heartbeat before (before.receive table connection text).2 (.receive connection text) := by
  have aside : (Step.receive connection text : Step σ).login? before = none := by
    rw [Step.login?, apart, Option.map_none]
  obtain ⟨result, answered, equation⟩ := answered apart (standing.outside connection)
  obtain ⟨registry, scheduler, sent, frames, plain⟩ := answered.aside
  rw [equation serves]
  refine .still aside ?_ scheduler ?_
  · intro other
    unfold Authorized
    rw [registry]
  · intro other
    apply Event.beats_of_avoids
    rwa [Event.sent_eq frames]

omit [EntityStore σ Player] in
/-- An admitted login schedules a heartbeat. -/
theorem scheduler_enroll {connection : ConnectionId}
    (isOpen : before.registry.contains connection = true) (uid : Identity) :
    (before.enroll heartbeat connection uid).scheduler =
      (before.scheduler.schedule (.session connection heartbeat)
        ((Login.beat connection).whileOpen connection)).2 := by
  unfold Server.enroll
  rw [scheduler_schedule_session, if_pos]
  · rfl
  · exact (Registry.contains_enroll _ _ _ _).trans isOpen

private theorem pulse_login (serves : Serves table Players.check heartbeat flushPeriod)
    (standing : Standing before) {connection : ConnectionId} {text : String} {uid : Identity}
    (login : before.login? connection text = some uid) :
    Pulse heartbeat before (before.receive table connection text).2 (.receive connection text) := by
  have entry : (Step.receive connection text : Step σ).login? before = some (connection, uid) := by
    rw [Step.login?, login, Option.map_some]
  have isOpen : before.registry.contains connection = true := isOpen_of_login? login
  have moves := (effect_apply serves standing (.receive connection text)).1.admission entry
  have innermost : followWithin table (callDepth - 1) =
      follow table (followWithin table (callDepth - 2)) := rfl
  have scheduled : ((Step.receive connection text).apply table before).scheduler =
      (before.enroll heartbeat connection uid).scheduler := by
    rw [apply_of_login serves entry, innermost, follow_check]
    rfl
  refine .admitted login ?_ (scheduled.trans (scheduler_enroll isOpen uid)) ?_
  · intro other
    show ((Step.receive connection text).apply table before).registry.state? other = _ ↔ _
    rw [moves.registry, Registry.state?_enroll isOpen]
    split
    · next same => exact iff_of_true rfl (.inr same)
    · next apart => exact (or_iff_left apart).symm
  · intro other
    apply Event.beats_of_avoids
    show ∀ frame ∈ Event.sent ⟨before, .receive connection text,
      (Step.receive connection text).apply table before⟩, _
    rw [moves.sent]
    intro frame member
    rcases List.mem_append.mp member with notice | report
    · exact Registry.avoids_notices (by decide) _ connection uid frame notice
    · rcases List.mem_cons.mp report with rfl | scene
      · exact Frame.avoids_envelope connection _ (by decide)
      · exact Players.avoids_sceneFrames (by decide) connection _ frame scene

private theorem pulse_fire (paced : Paced heartbeat flushPeriod before) (id : TaskId) :
    Pulse heartbeat before ((clockwork table).fire before id) (.fire id) := by
  cases found : before.scheduler.task? id with
  | none =>
      rw [Clockwork.fire_of_missing (clockwork table) found]
      exact .still rfl (fun _ => Iff.rfl) rfl (Event.beats_of_queue _ rfl)
  | some task =>
      have named := Scheduler.id_of_task? found
      cases stopped : before.scheduler.isStopped id with
      | true =>
          rw [Clockwork.fire_of_stopped (clockwork table) found (named ▸ stopped)]
          exact .retired (named ▸ stopped) (fun _ => Iff.rfl) rfl (Event.beats_of_queue _ rfl)
      | false =>
          have performed : (clockwork table).perform id task.body before =
              Server.run table task.body before := rfl
          rw [Clockwork.fire_of_running (clockwork table) found (named ▸ stopped), performed, run_eq]
          have rearmed {period : Nat} (periodic : task.timing.period? = some period) :
              before.scheduler.finish task .again = before.scheduler.rearm id period := by
            rw [Scheduler.finish, periodic]
            exact (if_pos ⟨rfl, named ▸ stopped⟩).trans (by rw [named])
          rcases paced.duties task (Scheduler.mem_of_task? found) with
            ⟨timing, body⟩ | ⟨connection, timing, body⟩
          · have periodic : task.timing.period? = some flushPeriod := by rw [timing]; rfl
            rw [body, follow_flush]
            refine .ran found stopped periodic ?_ (fun _ => Iff.rfl) (rearmed periodic) ?_
            · rw [timing]
              nofun
            · intro connection
              rw [timing]
              exact Event.beats_of_queue (.fire id) rfl connection
          · have periodic : task.timing.period? = some heartbeat := by rw [timing]; rfl
            have own : task.timing.connection? = some connection := by rw [timing]; rfl
            have authorized := paced.staffed.present_of_attends ⟨found, own, stopped⟩
            rw [body, follow_beat, if_pos (Registry.contains_of_state? authorized)]
            refine .ran found stopped periodic (fun _ _ => rfl) (fun _ => Iff.rfl)
              (rearmed periodic) ?_
            intro other
            simp only [own, Option.some.injEq]
            exact Event.beats_of_heartbeat (Event.sent_eq rfl) other

/-- Every step of a paced server has one of the pulses. -/
theorem Paced.pulse (paced : Paced heartbeat flushPeriod before)
    (serves : Serves table Players.check heartbeat flushPeriod) (step : Step σ) :
    Pulse heartbeat before (step.apply table before) step := by
  cases step with
  | accept =>
      exact .still rfl (authorized_accept paced.standing.sound) rfl (Event.beats_of_queue _ rfl)
  | close connection =>
      exact .closed connection (authorized_close connection) rfl (Event.beats_of_queue _ rfl)
  | receive connection text =>
      cases login : before.login? connection text with
      | none => exact pulse_answer serves paced.standing login
      | some uid => exact pulse_login serves paced.standing login
  | pass seconds => exact .passed seconds (fun _ => Iff.rfl) rfl (Event.beats_of_queue _ rfl)
  | fire id => exact pulse_fire paced id
  | flush =>
      rw [Step.apply, run_eq, follow_flush]
      exact .still rfl (fun _ => Iff.rfl) rfl (Event.beats_of_queue _ rfl)
  | drain =>
      refine .still rfl (fun _ => Iff.rfl) rfl ?_
      intro connection
      exact Event.beats_of_unsent connection (Event.sent_of_drained before .drain rfl)
  | disturb change => exact .still rfl (fun _ => Iff.rfl) rfl (Event.beats_of_queue _ rfl)

end Steps

/-! ## The pace is kept -/

section Pace

variable {table : Table (Features σ)} {heartbeat flushPeriod : Nat}
  {before after : Server (Features σ)} {step : Step σ}

theorem Pulse.regular (pulse : Pulse heartbeat before after step)
    (paced : Paced heartbeat flushPeriod before)
    (timely : Event.Timely ⟨before, step, after⟩) : after.scheduler.Regular := by
  have regular := paced.regular
  cases pulse with
  | still _ _ scheduler _ => exact scheduler ▸ regular
  | closed closed _ scheduler _ => exact scheduler ▸ ⟨regular.distinct, regular.positive⟩
  | admitted _ _ scheduler _ =>
      rw [scheduler]
      exact regular.schedule (paced.staffed.ahead _ (Nat.le_refl _)).1 _ _
  | passed seconds _ scheduler _ => exact scheduler ▸ ⟨regular.distinct, regular.positive⟩
  | retired _ _ scheduler _ => exact scheduler ▸ regular.retire _
  | @ran id task period found _ periodic _ _ scheduler _ =>
      obtain rfl := Scheduler.id_of_task? found
      have due : (before.scheduler.task? task.id).bind Task.due = some before.scheduler.now := timely
      rw [found, Option.bind_some] at due
      rw [scheduler]
      refine regular.rearm found periodic ?_
      rintro rfl
      exact regular.positive task (Scheduler.mem_of_task? found) _ due periodic

theorem Pulse.staffed (pulse : Pulse heartbeat before after step)
    (paced : Paced heartbeat flushPeriod before) : after.scheduler.Staffed (Authorized after) := by
  have staffed := paced.staffed
  cases pulse with
  | still _ sessions scheduler _ => exact scheduler ▸ staffed.congr sessions
  | closed closed sessions scheduler _ =>
      exact scheduler ▸ (staffed.cancelSession closed).congr sessions
  | @admitted admitted _ _ login sessions scheduler _ =>
      rw [scheduler]
      have absent : ∀ connection,
          (Timing.session admitted heartbeat).connection? = some connection →
            ¬Authorized before connection := by
        rintro connection same
        cases same
        exact not_authorized_of_login? login
      refine (staffed.schedule absent _).congr ?_
      intro connection
      rw [sessions, show (Timing.session admitted heartbeat).connection? = some admitted from rfl,
        Option.some.injEq]
  | passed seconds sessions scheduler _ => exact scheduler ▸ (staffed.pass seconds).congr sessions
  | retired stopped sessions scheduler _ =>
      exact scheduler ▸ (staffed.retire stopped).congr sessions
  | ran _ _ _ _ sessions scheduler _ => exact scheduler ▸ (staffed.rearm _ _).congr sessions

theorem Pulse.duties (pulse : Pulse heartbeat before after step)
    (paced : Paced heartbeat flushPeriod before) :
    ∀ task ∈ after.scheduler.tasks, Duty heartbeat flushPeriod task := by
  have duties := paced.duties
  cases pulse with
  | still _ _ scheduler _ => exact scheduler ▸ duties
  | closed closed _ scheduler _ => exact scheduler ▸ duties
  | @admitted admitted _ _ _ _ scheduler _ =>
      intro task member
      rw [scheduler, Scheduler.tasks_schedule] at member
      rcases List.mem_append.mp member with old | new
      · exact duties task old
      · rw [List.mem_singleton.mp new]
        exact .beat admitted rfl rfl
  | passed seconds _ scheduler _ => exact scheduler ▸ duties
  | retired _ _ scheduler _ =>
      intro task member
      rw [scheduler, Scheduler.tasks_retire] at member
      exact duties task (List.mem_filter.mp member).1
  | ran _ _ _ _ _ scheduler _ =>
      intro task member
      rw [scheduler] at member
      obtain ⟨original, listed, rfl⟩ := List.mem_map.mp member
      -- Only the due time changes, which no duty depends on.
      split
      · rcases duties original listed with ⟨timing, body⟩ | ⟨connection, timing, body⟩
        · exact .flush timing body
        · exact .beat connection timing body
      · exact duties original listed

theorem Paced.apply (paced : Paced heartbeat flushPeriod before)
    (serves : Serves table Players.check heartbeat flushPeriod)
    (timely : Event.Timely ⟨before, step, step.apply table before⟩) :
    Paced heartbeat flushPeriod (step.apply table before) := by
  have pulse := paced.pulse serves step
  obtain ⟨effect, routine⟩ := effect_apply serves paced.standing step
  exact ⟨⟨effect.turnover.sound paced.standing.sound, routine⟩, pulse.regular paced timely,
    pulse.staffed paced, pulse.duties paced⟩

theorem paced_run (paced : Paced heartbeat flushPeriod before)
    (serves : Serves table Players.check heartbeat flushPeriod) {steps : List (Step σ)}
    (timely : ∀ event ∈ (machine table).trace before steps, Event.Timely event) :
    Paced heartbeat flushPeriod ((machine table).run before steps) := by
  exact Machine.run_invariant_of_rule (Paced heartbeat flushPeriod) paced
    (fun _ _ now before => before.apply serves now) timely

/-- A server that has just come up is paced and has time: nobody is authorized, and only the flush
waits. -/
theorem paced_start {store : σ} {capacity : Nat} {secret : Option String} {entropy : List UInt8}
    {epoch : UInt64} (made : bundledTable heartbeat flushPeriod = .ok table)
    (up : (Server.fresh capacity (.fresh secret entropy store) epoch).start table =
      (some (.ok ()), after)) : Paced heartbeat flushPeriod after ∧ after.scheduler.Settled := by
  have standing : Standing after :=
    Started.standing ⟨heartbeat, flushPeriod, capacity, secret, entropy, epoch, made, up⟩
  obtain ⟨memory, -, -, rfl⟩ := start_eq made up
  refine ⟨⟨standing, ?_, ?_, ?_⟩, ?_⟩
  · have regular : Scheduler.Regular (.fresh : Scheduler (Procedure (Features σ))) :=
      ⟨List.Pairwise.nil, fun _ member => nomatch member⟩
    exact regular.schedule rfl (.repeating flushPeriod) Players.flush
  · have nobody : ∀ connection, (Timing.repeating flushPeriod).connection? = some connection →
        ¬False := nofun
    refine (Scheduler.staffed_fresh.schedule nobody Players.flush).congr ?_
    intro connection
    constructor
    · exact fun authorized => nomatch authorized
    · exact fun present => present.elim False.elim nofun
  · intro task member
    rw [List.mem_singleton.mp member]
    exact .flush rfl rfl
  · have settled : Scheduler.Settled (.fresh : Scheduler (Procedure (Features σ))) :=
      fun _ member => nomatch member
    have periodic : (Timing.repeating flushPeriod).period? ≠ none := Option.some_ne_none _
    exact settled.schedule_periodic periodic Players.flush

end Pace

/-! ## Passing time -/

section Time

variable {table : Table (Features σ)} {heartbeat flushPeriod : Nat}
  {server later : Server (Features σ)}

/-- The tasks of the bundled providers leave the clock and the waiting tasks alone. -/
theorem modest_routine (table : Table (Features σ)) : (clockwork table).Modest Routine := by
  have untouched : ∀ body (server : Server (Features σ)), Routine body →
      (Server.run table body server).2.scheduler = server.scheduler := by
    rintro body server (rfl | ⟨connection, rfl⟩)
    · rw [run_eq, follow_flush]
      rfl
    · rw [run_eq, follow_beat]
      split <;> rfl
  constructor
  · exact fun id body server routine => congrArg Scheduler.tasks (untouched body server routine)
  · exact fun id body server routine => congrArg Scheduler.now (untouched body server routine)

theorem leads_of_reaches (reaches : (clockwork table).Reaches server later) :
    (machine table).Leads Event.Timely server later := by
  induction reaches with
  | refl server => exact .refl server
  | @pass server later seconds mayPass _ inductionHypothesis =>
      have first : (machine table).Leads Event.Timely server
        ((machine table).apply server (.pass seconds)) := .step _ mayPass
      exact first.trans inductionHypothesis
  | @fire server later id isDue _ inductionHypothesis =>
      have first : (machine table).Leads Event.Timely server
        ((machine table).apply server (.fire id)) := .step _ isDue
      exact first.trans inductionHypothesis

theorem Paced.leads_advance (paced : Paced heartbeat flushPeriod server)
    (settled : server.scheduler.Settled) (seconds : Nat) :
    (server.advance table seconds).scheduler.Settled ∧
      (machine table).Leads Event.Timely server (server.advance table seconds) := by
  have steady : (clockwork table).Steady Routine server := ⟨paced.regular, paced.standing.routine⟩
  obtain ⟨reaches, -, settledThen⟩ :=
    Clockwork.reaches_advance (modest_routine table) steady settled seconds
  exact ⟨settledThen, leads_of_reaches reaches⟩

/-- The step is not one of the clock. -/
def Step.Untimed : Step σ → Prop
  | .pass _ => False
  | .fire _ => False
  | _ => True

omit [EntityStore σ Player] in
/-- A step outside the clock leaves nothing behind that is due at once. -/
theorem Pulse.settled {before after : Server (Features σ)} {step : Step σ}
    (pulse : Pulse heartbeat before after step) (untimed : step.Untimed)
    (settled : before.scheduler.Settled) : after.scheduler.Settled := by
  cases pulse with
  | still _ _ scheduler _ => exact scheduler ▸ settled
  | closed closed _ scheduler _ => exact scheduler ▸ settled
  | @admitted admitted _ _ _ _ scheduler _ =>
      have periodic : (Timing.session admitted heartbeat).period? ≠ none := Option.some_ne_none _
      exact scheduler ▸ settled.schedule_periodic periodic _
  | passed _ _ _ _ => cases untimed
  | retired _ _ _ _ => cases untimed
  | ran _ _ _ _ _ _ _ => cases untimed

/-- What becomes of a server by steps outside the clock and by the time that it lets pass. -/
inductive Attained (table : Table (Features σ)) (start : Server (Features σ)) :
    Server (Features σ) → Prop where
  | start : Attained table start start
  | step {server : Server (Features σ)} (attained : Attained table start server) (step : Step σ)
      (untimed : step.Untimed) : Attained table start (step.apply table server)
  | advance {server : Server (Features σ)} (attained : Attained table start server)
      (seconds : Nat) : Attained table start (server.advance table seconds)

/-- Whatever is done to a server and however much time it lets pass, it is a run of timely steps,
after which nothing is overdue. -/
theorem Attained.leads {start : Server (Features σ)} (attained : Attained table start server)
    (paced : Paced heartbeat flushPeriod start)
    (serves : Serves table Players.check heartbeat flushPeriod)
    (settled : start.scheduler.Settled) :
    server.scheduler.Settled ∧ (machine table).Leads Event.Timely start server := by
  have pacedThen : ∀ {reached}, (machine table).Leads Event.Timely start reached →
      Paced heartbeat flushPeriod reached := by
    rintro reached ⟨steps, rfl, timely⟩
    exact paced_run paced serves timely
  induction attained with
  | start => exact ⟨settled, .refl start⟩
  | @step server _ step untimed inductionHypothesis =>
      obtain ⟨settledThen, leads⟩ := inductionHypothesis
      have pulse := (pacedThen leads).pulse serves step
      have timely : Event.Timely ⟨server, step, (machine table).apply server step⟩ := by
        cases step with
        | pass seconds => cases untimed
        | fire task => cases untimed
        | _ => trivial
      exact ⟨pulse.settled untimed settledThen, leads.trans (.step step timely)⟩
  | @advance server _ seconds inductionHypothesis =>
      obtain ⟨settledThen, leads⟩ := inductionHypothesis
      obtain ⟨settledLater, onwards⟩ := (pacedThen leads).leads_advance settledThen seconds
      exact ⟨settledLater, leads.trans onwards⟩

end Time

end SessionServer.Bundle
