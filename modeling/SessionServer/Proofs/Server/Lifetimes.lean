import SessionServer.Proofs.Registry.Lifecycle
import SessionServer.Proofs.Scheduler.Leash
import SessionServer.Proofs.Server.Acts

/-!
Contract: no task of a session outlives its connection, whatever handlers and tasks do.

Owns:
- `Server.Opens`, `Server.Closes` and `Server.Enters`, the start and the end of a session and the
  entry into the body of one of its tasks, told from the happenings of a run;
- `Server.Leashed`, which every single happening keeps: only open connections are tracked, and the
  tasks of a connection are tracked under it or stopped;
- the theorem on the lifetimes of session tasks in every run of every table.

The states in the middle of a handler or a task are among those that are spoken of, and a session may
be ended there as well.
-/

namespace SessionServer

/-! ## Happenings and sessions -/

variable {μ : Type}

/-- What a happening asks of the registry. -/
def Happening.operation? : Happening μ → Option Registry.Operation
  | .act (.perform .accept) => some .accept
  | .act (.perform (.close connection)) => some (.close connection)
  | .act (.perform (.setState connection state)) => some (.setState connection state)
  | .act (.perform (.bind connection identity)) => some (.bind connection identity)
  | _ => none

namespace Server

/-- A happening with the servers before and after it. -/
abbrev Event (μ : Type) := Occurrence (Server μ) (Happening μ)

/-- The session of the connection is started. -/
def Opens (connection : ConnectionId) (event : Event μ) : Prop :=
  event.step = .act (.perform .accept) ∧ event.before.accept.1 = some connection

/-- The end of the session is asked for. -/
def Closes (connection : ConnectionId) (event : Event μ) : Prop :=
  event.step = .act (.perform (.close connection))

/-- The body of a task of the session is entered. -/
def Enters (connection : ConnectionId) (event : Event μ) : Prop :=
  ∃ task, event.step = .enter task ∧ task.timing.connection? = some connection

section Sessions

variable (server : Server μ)

/-- A task is scheduled, unless it is the task of a connection that is not open. -/
theorem schedule_cases (timing : Timing) (body : Procedure μ) :
    (∃ guarded, server.schedule timing body =
        ((server.scheduler.schedule timing guarded).1,
          { server with scheduler := (server.scheduler.schedule timing guarded).2 }) ∧
      ∀ connection, timing.connection? = some connection → server.isOpen connection = true) ∨
    ∃ connection, timing.connection? = some connection ∧ server.isOpen connection = false ∧
      server.schedule timing body =
        (server.scheduler.refuse.1, { server with scheduler := server.scheduler.refuse.2 }) := by
  cases timing with
  | once delay => exact .inl ⟨body, rfl, fun _ owner => by cases owner⟩
  | repeating period => exact .inl ⟨body, rfl, fun _ owner => by cases owner⟩
  | session connection period =>
      cases isOpen : server.isOpen connection with
      | true =>
          refine .inl ⟨body.whileOpen connection, ?_, ?_⟩
          · simp only [schedule, isOpen, if_true]
          · intro owner same
            cases same
            exact isOpen
      | false =>
          refine .inr ⟨connection, rfl, isOpen, ?_⟩
          simp only [schedule, isOpen, Bool.false_eq_true, if_false]

theorem registry_happen (happening : Happening μ) :
    (server.happen happening).registry =
      match happening.operation? with
      | none => server.registry
      | some operation => server.registry.perform operation := by
  cases happening with
  | act act =>
      cases act with
      | perform request => cases request <;> rfl
      | schedule timing body =>
          show (server.schedule timing body).2.registry = server.registry
          rcases server.schedule_cases timing body with ⟨_, done, -⟩ | ⟨_, -, -, refused⟩
          · rw [done]
          · rw [refused]
      | remember memory => rfl
      | shutDown => rfl
  | _ => rfl

/-- A connection is open after a happening if it has just been opened, or if it was open before and
has not just been closed. -/
theorem isOpen_happen (happening : Happening μ) (connection : ConnectionId) :
    (server.happen happening).isOpen connection = true ↔
      Opens connection ⟨server, happening, server.happen happening⟩ ∨
        server.isOpen connection = true ∧
          ¬Closes connection ⟨server, happening, server.happen happening⟩ := by
  have registry := server.registry_happen happening
  unfold isOpen
  cases asked : happening.operation? with
  | none =>
      rw [asked] at registry
      have notOpened : ¬Opens connection ⟨server, happening, server.happen happening⟩ := by
        rintro ⟨rfl, -⟩
        cases asked
      have notClosed : ¬Closes connection ⟨server, happening, server.happen happening⟩ := by
        rintro rfl
        cases asked
      simp only [registry, notOpened, notClosed, false_or, not_false_eq_true, and_true]
  | some operation =>
      rw [asked] at registry
      rw [registry, server.registry.contains_perform operation connection]
      cases happening with
      | act act =>
          cases act with
          | perform request =>
              cases request <;> cases asked <;>
                simp [Opens, Closes, Registry.Event.opened?, Server.accept]
          | _ => cases asked
      | _ => cases asked

theorem departed_happen {connection : ConnectionId} (departed : server.registry.Departed connection)
    (happening : Happening μ) : (server.happen happening).registry.Departed connection := by
  rw [registry_happen]
  cases happening.operation? with
  | none => exact departed
  | some operation => exact departed.perform operation

end Sessions

/-! ## Leashed servers -/

/-- Numbers are given out once, and only open connections have tasks which may still run. -/
structure Leashed (server : Server μ) : Prop where
  numbered : server.registry.Numbered
  scheduler : server.scheduler.Leashed fun connection => server.isOpen connection = true

theorem leashed_fresh (capacity : Nat) (memory : μ) (epoch : UInt64) :
    (fresh capacity memory epoch).Leashed where
  numbered _ isOpen := by cases isOpen
  scheduler := Scheduler.leashed_fresh

section Keeping

variable {server : Server μ}

/-- Whatever leaves the sessions alone has to keep the tasks on their leash. -/
theorem Leashed.of_registry (leashed : server.Leashed) {after : Server μ}
    (registry : after.registry = server.registry)
    (scheduler : after.scheduler.Leashed fun connection => server.isOpen connection = true) :
    after.Leashed := by
  unfold isOpen at scheduler
  rw [← registry] at scheduler
  exact ⟨registry ▸ leashed.numbered, scheduler⟩

theorem Leashed.perform (leashed : server.Leashed) (request : Call) :
    (server.perform request).2.Leashed := by
  have decided := fun connection => server.isOpen_happen (.act (.perform request)) connection
  cases request with
  | accept =>
      refine ⟨leashed.numbered.accept, leashed.scheduler.mono ?_⟩
      intro connection isOpen
      exact (decided connection).mpr (.inr ⟨isOpen, by simp [Closes]⟩)
  | close closed =>
      refine ⟨leashed.numbered.close closed, (leashed.scheduler.cancelSession closed).mono ?_⟩
      rintro connection ⟨isOpen, apart⟩
      exact (decided connection).mpr (.inr ⟨isOpen, by simp [Closes, Ne.symm apart]⟩)
  | setState changed state =>
      refine ⟨leashed.numbered.perform (.setState changed state), leashed.scheduler.mono ?_⟩
      intro connection isOpen
      exact (decided connection).mpr (.inr ⟨isOpen, by simp [Closes]⟩)
  | bind bound identity =>
      refine ⟨leashed.numbered.perform (.bind bound identity), leashed.scheduler.mono ?_⟩
      intro connection isOpen
      exact (decided connection).mpr (.inr ⟨isOpen, by simp [Closes]⟩)
  | cancel task => exact leashed.of_registry rfl (leashed.scheduler.cancel task)
  | enqueue frame => exact leashed.of_registry rfl leashed.scheduler
  | session connection => exact leashed
  | holder identity => exact leashed
  | isCancelled task => exact leashed
  | clock => exact leashed

theorem Leashed.schedule (leashed : server.Leashed) (timing : Timing) (body : Procedure μ) :
    (server.schedule timing body).2.Leashed := by
  rcases server.schedule_cases timing body with ⟨guarded, done, allowed⟩ | ⟨_, -, -, refused⟩
  · rw [done]
    exact leashed.of_registry rfl (leashed.scheduler.schedule allowed guarded)
  · rw [refused]
    exact leashed.of_registry rfl leashed.scheduler.refuse

/-- Every happening keeps the tasks on their leash. -/
theorem Leashed.happen (leashed : server.Leashed) (happening : Happening μ) :
    (server.happen happening).Leashed := by
  cases happening with
  | act act =>
      cases act with
      | perform request => exact leashed.perform request
      | remember memory => exact leashed.of_registry rfl leashed.scheduler
      | schedule timing body => exact leashed.schedule timing body
      | shutDown => exact leashed.of_registry rfl (Scheduler.leashed_shutDown _)
  | enter task => exact leashed
  | leave task ending => exact leashed.of_registry rfl (leashed.scheduler.finish task ending)
  | drop task => exact leashed.of_registry rfl (leashed.scheduler.retire task)
  | pass seconds => exact leashed.of_registry rfl (leashed.scheduler.pass seconds)
  | drain => exact leashed.of_registry rfl leashed.scheduler

end Keeping

/-! ## Entries -/

/-- A task that is entered waits and may run. -/
def Proper (event : Event μ) : Prop :=
  ∀ task, event.step = .enter task →
    task ∈ event.before.scheduler.tasks ∧ event.before.scheduler.isStopped task.id = false

section Entries

variable {table : Table μ} {server : Server μ}

theorem proper_of_acts {acts : List (Act μ)} {event : Event μ}
    (member : event ∈ machine.trace server (acts.map .act)) : Proper event := by
  intro task entered
  have happened := List.mem_map_of_mem (f := Occurrence.step) member
  rw [machine.map_step_trace, entered] at happened
  obtain ⟨act, -, same⟩ := List.mem_map.mp happened
  cases same

theorem proper_of_fire {id : TaskId} {event : Event μ}
    (member : event ∈ machine.trace server (Step.fireHappenings table server id)) :
    Proper event := by
  unfold Step.fireHappenings at member
  split at member
  · cases member
  · next task found =>
      split at member
      · intro other entered
        rw [List.mem_singleton.mp member] at entered
        cases entered
      · next running =>
          rw [Machine.trace_append] at member
          rcases List.mem_append.mp member with entry | ended
          · rcases List.mem_cons.mp entry with rfl | inside
            · intro other entered
              cases entered
              exact ⟨Scheduler.mem_of_task? found, Bool.eq_false_iff.mpr running⟩
            · exact proper_of_acts inside
          · intro other entered
            rw [List.mem_singleton.mp ended] at entered
            cases entered

theorem proper_of_story {made : List (Step μ)} {event : Event μ}
    (member : event ∈ machine.trace server (story table server made)) : Proper event := by
  induction made generalizing server with
  | nil => cases member
  | cons first rest inductionHypothesis =>
      rw [story, Machine.trace_append] at member
      rcases List.mem_append.mp member with now | later
      · cases first with
        | fire task => exact proper_of_fire now
        | receive connection text => exact proper_of_acts now
        | invoke code state connection args => exact proper_of_acts now
        | start => exact proper_of_acts now
        | stop => exact proper_of_acts now
        | _ =>
            intro task entered
            rw [List.mem_singleton.mp now] at entered
            cases entered
      · rw [← Step.apply_eq_run] at later
        exact inductionHypothesis later

/-- Only while its connection is open is a session task entered. -/
theorem Leashed.isOpen_of_enters {connection : ConnectionId} {event : Event μ}
    (leashed : event.before.Leashed) (proper : Proper event) (enters : Enters connection event) :
    event.before.isOpen connection = true := by
  obtain ⟨task, entered, owner⟩ := enters
  obtain ⟨listed, running⟩ := proper task entered
  exact leashed.scheduler.present_of_running listed owner running

end Entries

/-! ## Numbers -/

section Numbers

variable {server : Server μ} {connection : ConnectionId}

theorem nextNumber_le_happen (server : Server μ) (happening : Happening μ) :
    server.registry.nextNumber ≤ (server.happen happening).registry.nextNumber := by
  rw [registry_happen]
  cases happening.operation? with
  | none => exact Nat.le_refl _
  | some operation =>
      rw [Registry.nextNumber_perform]
      exact Nat.le_add_right _ _

/-- The number of a connection that has been opened has been given out. -/
theorem given_of_opened {happenings : List (Happening μ)} {opening : Event μ}
    (member : opening ∈ machine.trace server happenings) (opens : Opens connection opening) :
    connection.number < (machine.run server happenings).registry.nextNumber := by
  obtain ⟨earlier, later, split⟩ := List.append_of_mem member
  obtain ⟨before, after, rfl, -, reached, applied, -⟩ := Machine.split_of_trace split
  rw [Machine.run_append, ← reached]
  show _ < (machine.run (machine.apply opening.before opening.step) after).registry.nextNumber
  refine Machine.run_invariant
    (fun state : Server μ => connection.number < state.registry.nextNumber) ?_ ?_ after
  · obtain ⟨accepted, answer⟩ := opens
    have opened : Registry.Event.opened? ⟨opening.before.registry, .accept,
        opening.before.registry.perform .accept⟩ = some connection := answer
    have counted := opening.before.registry.nextNumber_perform .accept
    rw [opened] at counted
    rw [accepted, Registry.number_of_opened? opened]
    show _ < (opening.before.registry.perform .accept).nextNumber
    rw [counted]
    exact Nat.lt_succ_self _
  · intro state happening given
    exact Nat.lt_of_lt_of_le given (state.nextNumber_le_happen happening)

/-- The number of a connection that has departed is not given out again. -/
theorem not_opens_of_departed {event : Event μ}
    (departed : event.before.registry.Departed connection) : ¬Opens connection event := by
  rintro ⟨-, answer⟩
  have opened : Registry.Event.opened? ⟨event.before.registry, .accept,
      event.before.registry.perform .accept⟩ = some connection := answer
  have given := departed.given
  rw [Registry.number_of_opened? opened] at given
  exact Nat.lt_irrefl _ given

end Numbers

/-! ## Lifetimes -/

/-- Every connection under which tasks are tracked is open. -/
def TracksOpen (server : Server μ) : Prop :=
  ∀ connection ids, server.scheduler.tracked.get? connection = some ids →
    server.isOpen connection = true

/-- What is true of session tasks in a history and of the server that has it behind it. -/
structure Lifetimes (history : List (Event μ)) (server : Server μ) : Prop where
  tracked : TracksOpen server
  /-- The same in the middle of a step, of a handler or of a task. -/
  between : ∀ event ∈ history, TracksOpen event.before ∧ TracksOpen event.after
  /-- A task is entered only if its connection has been opened and has not been closed since. -/
  entered : ∀ connection earlier event later, history = earlier ++ event :: later →
    Enters connection event →
      event.before.isOpen connection = true ∧ Since (Opens connection) (Closes connection) earlier
  /-- Once a connection that has been opened is closed, none of its tasks is entered again, nor is it
  opened again. -/
  ended : ∀ connection earlier event later, history = earlier ++ event :: later →
    (∃ opening ∈ earlier, Opens connection opening) → Closes connection event →
      ∀ next ∈ later, ¬Enters connection next ∧ ¬Opens connection next

theorem lifetimes (table : Table μ) (capacity : Nat) (memory : μ) (epoch : UInt64)
    (made : List (Step μ)) :
    let start := fresh capacity memory epoch
    Lifetimes (machine.trace start (story table start made))
      (machine.run start (story table start made)) := by
  intro start
  have leashed_run : ∀ happenings, (machine.run start happenings).Leashed := fun happenings =>
    Machine.run_invariant Leashed (leashed_fresh capacity memory epoch)
      (fun _ happening leashed => leashed.happen happening) happenings
  have leashed_trace : ∀ event ∈ machine.trace start (story table start made),
      event.before.Leashed ∧ event.after.Leashed := fun event member =>
    Machine.trace_invariant Leashed (leashed_fresh capacity memory epoch)
      (fun _ happening leashed => leashed.happen happening) member
  have proper : ∀ event ∈ machine.trace start (story table start made), Proper event :=
    fun event member => proper_of_story member
  have tracks : ∀ {server : Server μ}, server.Leashed → TracksOpen server :=
    fun leashed _ _ tracked => leashed.scheduler.present tracked
  have isOpen_run : ∀ connection happenings,
      (machine.run start happenings).isOpen connection = true ↔
        Since (Opens connection) (Closes connection) (machine.trace start happenings) :=
    fun connection happenings => Machine.since_run
      (fun state : Server μ => state.isOpen connection = true) (fun isOpen => by cases isOpen)
      (fun earlier happening =>
        (machine.run start earlier).isOpen_happen happening connection) happenings
  refine ⟨tracks (leashed_run _), ?_, ?_, ?_⟩
  · intro event member
    exact ⟨tracks (leashed_trace event member).1, tracks (leashed_trace event member).2⟩
  · intro connection earlier event later split enters
    have member : event ∈ machine.trace start (story table start made) := by
      rw [split]
      exact List.mem_append_right _ List.mem_cons_self
    have isOpen : event.before.isOpen connection = true :=
      (leashed_trace event member).1.isOpen_of_enters (proper event member) enters
    obtain ⟨before, -, -, traced, reached, -⟩ := Machine.split_of_trace split
    refine ⟨isOpen, ?_⟩
    rw [traced, ← isOpen_run, ← reached]
    exact isOpen
  · rintro connection earlier event later split ⟨opening, opened, opens⟩ closes next member
    have listed : next ∈ machine.trace start (story table start made) := by
      rw [split]
      exact List.mem_append_right _ (List.mem_cons_of_mem _ member)
    obtain ⟨before, after, -, traced, reached, applied, ahead⟩ := Machine.split_of_trace split
    -- From the close on the connection has departed, and every further happening leaves it so.
    have departed : event.after.registry.Departed connection := by
      rw [traced] at opened
      have given := given_of_opened opened opens
      rw [← reached] at given
      rw [applied, closes]
      exact ⟨by
        show (event.before.registry.close connection).2.session? connection = none
        rw [Registry.session?_close, if_pos rfl], given⟩
    rw [ahead] at member
    have gone : next.before.registry.Departed connection :=
      (Machine.trace_invariant (fun state : Server μ => state.registry.Departed connection) departed
        (fun state happening departed => state.departed_happen departed happening) member).1
    refine ⟨?_, not_opens_of_departed gone⟩
    intro enters
    have isOpen : next.before.isOpen connection = true :=
      (leashed_trace next listed).1.isOpen_of_enters (proper next listed) enters
    exact absurd isOpen (Bool.eq_false_iff.mp gone.not_contains)

/-- The handle of a task that is not scheduled is cancelled from the outset, and nothing is tracked or
waits under it. -/
theorem schedule_of_closed (server : Server μ) {connection : ConnectionId}
    (closed : server.isOpen connection = false) (period : Nat) (body : Procedure μ) :
    ∃ id after, server.schedule (.session connection period) body = (id, after) ∧
      after.scheduler.isCancelled id = true ∧
      after.scheduler.tracked = server.scheduler.tracked ∧
      after.scheduler.tasks = server.scheduler.tasks := by
  rcases server.schedule_cases (.session connection period) body with
    ⟨_, -, allowed⟩ | ⟨_, -, -, refused⟩
  · rw [allowed connection rfl] at closed
    cases closed
  · refine ⟨_, _, refused, ?_, rfl, rfl⟩
    show OrderedMap.contains
      (OrderedSet.add server.scheduler.cancelled server.scheduler.nextId)
      server.scheduler.nextId = true
    rw [OrderedSet.contains_add, decide_eq_true rfl, Bool.true_or]

/-- Whatever a table serves and whatever is done to a server from the outside, session tasks live no
longer than their connections. The history tells every single act of the handlers, hooks and tasks,
and leads to where the steps lead; letting time go by is nothing but such steps. A session task for a
connection that is not open is not scheduled, at no time whatsoever. -/
theorem no_task_outlives_connection (table : Table μ) (capacity : Nat) (memory : μ) (epoch : UInt64)
    (made : List (Step μ)) :
    let start := fresh capacity memory epoch
    let history := machine.trace start (story table start made)
    let server := (steps table).run start made
    Lifetimes history server ∧ server = machine.run start (story table start made) ∧
      (∀ seconds, Elapses table server (server.advance table seconds)) ∧
      ∀ (state : Server μ) (connection : ConnectionId), state.isOpen connection = false →
        ∀ period body, ∃ id after,
          state.schedule (.session connection period) body = (id, after) ∧
            after.scheduler.isCancelled id = true ∧
            after.scheduler.tracked = state.scheduler.tracked ∧
            after.scheduler.tasks = state.scheduler.tasks := by
  intro start history server
  have reached : server = machine.run start (story table start made) := run_steps table start made
  refine ⟨?_, reached, fun seconds => elapses_advance table seconds server, ?_⟩
  · rw [reached]
    exact lifetimes table capacity memory epoch made
  · intro state connection closed period body
    exact state.schedule_of_closed closed period body

/-- A task that ends its own session is entered once: nothing happens at its next due time. -/
example :
    let start : Server Unit := fresh 1 () 0
    let task : Step Unit := .schedule (.session ⟨1⟩ 5) (.close ⟨1⟩ .done)
    story .empty start [.perform .accept, task, .pass 5, .fire 0, .pass 5] =
      story .empty start [.perform .accept, task, .pass 5, .fire 0, .pass 5, .fire 0] :=
  rfl

end Server

end SessionServer
