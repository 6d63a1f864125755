import SessionServer.Proofs.Machine
import SessionServer.Proofs.Scheduler.Bodies
import SessionServer.Server

/-!
Contract: everything that happens to a server, one thing at a time.

Owns:
- `Act`, a single change that a procedure makes, and the acts of following a procedure, in order and
  with those of everything that is called on the way;
- `Happening`, an act, the two ends of a due time, time that goes by or a frame that leaves the
  queue, and `Server.machine`, which makes it happen;
- `Server.Step`, what can be done to a server from the outside, and the happenings of which it
  consists;
- the proof that following a procedure and making a step come to the same as their happenings one
  after the other, so that every state inside a handler or a task is one of the states in between.

The table is any, and so are the procedures of its handlers, hooks and tasks.
-/

namespace SessionServer

variable {μ : Type}

/-! ## Happenings -/

/-- A single change that a procedure makes. -/
inductive Act (μ : Type) where
  | perform (request : Call)
  | remember (memory : μ)
  | schedule (timing : Timing) (body : Procedure μ)
  | shutDown

/-- What happens to a server. -/
inductive Happening (μ : Type) where
  | act (act : Act μ)
  /-- The body of a task is entered. -/
  | enter (task : Task (Procedure μ))
  /-- The run of a task is over. -/
  | leave (task : Task (Procedure μ)) (ending : Ending)
  /-- A task that may not run any more is dropped at its due time. -/
  | drop (task : Task (Procedure μ))
  | pass (seconds : Nat)
  /-- A frame leaves the queue. -/
  | drain

namespace Server

def act (server : Server μ) : Act μ → Server μ
  | .perform request => (server.perform request).2
  | .remember memory => { server with memory }
  | .schedule timing body => (server.schedule timing body).2
  | .shutDown => { server with scheduler := server.scheduler.shutDown }

def happen (server : Server μ) : Happening μ → Server μ
  | .act act => server.act act
  | .enter _ => server
  | .leave task ending => { server with scheduler := server.scheduler.finish task ending }
  | .drop task => { server with scheduler := server.scheduler.retire task }
  | .pass seconds => { server with scheduler := server.scheduler.pass seconds }
  | .drain => { server with queue := ⟨server.queue.frames.drop 1⟩ }

def machine : Machine (Server μ) (Happening μ) := ⟨happen⟩

/-- The server after any number of acts. -/
def actAll (server : Server μ) (acts : List (Act μ)) : Server μ := acts.foldl act server

theorem actAll_append (server : Server μ) (first second : List (Act μ)) :
    server.actAll (first ++ second) = (server.actAll first).actAll second :=
  List.foldl_append

theorem run_map_act (server : Server μ) (acts : List (Act μ)) :
    machine.run server (acts.map .act) = server.actAll acts := by
  induction acts generalizing server with
  | nil => rfl
  | cons first rest inductionHypothesis => exact inductionHypothesis (server.act first)

/-! ## Acts of procedures -/

section Acts

/-- How the acts of a procedure inside another one are told. -/
abbrev Teller (μ : Type) := Procedure μ → Server μ → List (Act μ)

variable (table : Table μ) (follower : Follower μ) (teller : Teller μ)

def dispatchActs (server : Server μ) (code : Code) (state : State) (connection : ConnectionId)
    (args : Args) : List (Act μ) :=
  match table.get? code with
  | none => []
  | some entry =>
      if entry.allowed.permits state then teller (entry.handler ⟨connection, state, args⟩) server
      else []

def receiveActs (server : Server μ) (connection : ConnectionId) (text : String) : List (Act μ) :=
  match Envelope.parse text with
  | .error _ => []
  | .ok envelope =>
      match server.registry.state? connection with
      | none => []
      | some state =>
          dispatchActs table teller server envelope.value state connection envelope.args

/-- The acts of the closing hooks, up to one that is aborted. -/
def destroyActs : List (Provider μ) → Server μ → List (Act μ)
  | [], _ => []
  | provider :: rest, server =>
      teller provider.destroy server ++
        match follower provider.destroy server with
        | (.aborted, _) => []
        | (_, server) => destroyActs rest server

def stopActs (server : Server μ) : List (Act μ) :=
  destroyActs follower teller table.providers server ++
    match destroyAll follower table.providers server with
    | (none, _) => []
    | (some _, _) => [.shutDown]

def followActs : Teller μ
  | .finish _, _ => []
  | .recall next, server => followActs (next server.memory) server
  | .remember memory next, server => .remember memory :: followActs next { server with memory }
  | .call request next, server =>
      .perform request :: followActs (next (server.perform request).1) (server.perform request).2
  | .receive connection text next, server =>
      receiveActs table teller server connection text ++
        match receiveWith table follower server connection text with
        | (none, _) => []
        | (some outcome, server) => followActs (next outcome) server
  | .invoke code state connection args next, server =>
      dispatchActs table teller server code state connection args ++
        match dispatch table follower server code state connection args with
        | (none, _) => []
        | (some outcome, server) => followActs (next outcome) server
  | .schedule timing body next, server =>
      .schedule timing body ::
        followActs (next (server.schedule timing body).1) (server.schedule timing body).2
  | .stopServer next, server =>
      stopActs table follower teller server ++
        match stopWith table follower server with
        | (none, _) => []
        | (some _, server) => followActs next server

/-- The acts of a procedure with calls nested at most so deep. -/
def actsWithin (table : Table μ) : Nat → Teller μ
  | 0 => fun _ _ => []
  | depth + 1 => followActs table (followWithin table depth) (actsWithin table depth)

/-- The acts of a procedure that is followed from the outside. -/
def runActs : Teller μ := actsWithin table callDepth

/-- The acts of the start-up hooks, up to one that cannot go on. -/
def initActs : List (Provider μ) → Server μ → List (Act μ)
  | [], _ => []
  | provider :: rest, server =>
      runActs table provider.init server ++
        match Server.run table provider.init server with
        | (.aborted, _) => []
        | (.refused _, _) => []
        | (_, server) => initActs rest server

end Acts

/-! ### Acts make up procedures -/

/-- The acts that are told make up what following a procedure does. -/
def Tells (follower : Follower μ) (teller : Teller μ) : Prop :=
  ∀ procedure server, (follower procedure server).2 = server.actAll (teller procedure server)

section Telling

variable {table : Table μ} {follower : Follower μ} {teller : Teller μ}

theorem Tells.dispatch (tells : Tells follower teller) (server : Server μ) (code : Code)
    (state : State) (connection : ConnectionId) (args : Args) :
    (dispatch table follower server code state connection args).2 =
      server.actAll (dispatchActs table teller server code state connection args) := by
  unfold Server.dispatch dispatchActs
  cases table.get? code with
  | none => rfl
  | some entry =>
      dsimp only
      split
      · rw [← tells]
        rcases follower (entry.handler ⟨connection, state, args⟩) server with ⟨ending, after⟩
        cases ending <;> rfl
      · rfl

theorem Tells.receive (tells : Tells follower teller) (server : Server μ)
    (connection : ConnectionId) (text : String) :
    (receiveWith table follower server connection text).2 =
      server.actAll (receiveActs table teller server connection text) := by
  unfold receiveWith receiveActs
  cases Envelope.parse text with
  | error error => cases error <;> rfl
  | ok envelope =>
      cases server.registry.state? connection with
      | none => rfl
      | some state => exact tells.dispatch server envelope.value state connection envelope.args

theorem Tells.destroy (tells : Tells follower teller) (providers : List (Provider μ))
    (server : Server μ) :
    (destroyAll follower providers server).2 =
      server.actAll (destroyActs follower teller providers server) := by
  induction providers generalizing server with
  | nil => rfl
  | cons provider rest inductionHypothesis =>
      unfold destroyAll destroyActs
      rw [actAll_append, ← tells]
      rcases follower provider.destroy server with ⟨ending, after⟩
      cases ending with
      | aborted => rfl
      | _ => exact inductionHypothesis after

theorem Tells.stop (tells : Tells follower teller) (server : Server μ) :
    (stopWith table follower server).2 = server.actAll (stopActs table follower teller server) := by
  unfold stopWith stopActs
  rw [actAll_append, ← tells.destroy]
  rcases destroyAll follower table.providers server with ⟨_ | done, after⟩ <;> rfl

/-- Where the procedures inside are told, so is the whole. -/
theorem Tells.follow (tells : Tells follower teller) :
    Tells (follow table follower) (followActs table follower teller) := by
  intro procedure
  induction procedure with
  | finish ending => exact fun _ => rfl
  | «recall» next inductionHypothesis => exact fun server => inductionHypothesis _ server
  | remember memory next inductionHypothesis => exact fun server => inductionHypothesis _
  | call request next inductionHypothesis => exact fun server => inductionHypothesis _ _
  | receive connection text next inductionHypothesis =>
      intro server
      rw [Server.follow, followActs, actAll_append, ← tells.receive]
      rcases receiveWith table follower server connection text with ⟨_ | outcome, after⟩
      · rfl
      · exact inductionHypothesis outcome after
  | invoke code state connection args next inductionHypothesis =>
      intro server
      rw [Server.follow, followActs, actAll_append, ← tells.dispatch]
      rcases Server.dispatch table follower server code state connection args with
        ⟨_ | outcome, after⟩
      · rfl
      · exact inductionHypothesis outcome after
  | schedule timing body next _ inductionHypothesis =>
      exact fun server => inductionHypothesis _ _
  | stopServer next inductionHypothesis =>
      intro server
      rw [Server.follow, followActs, actAll_append, ← tells.stop]
      rcases stopWith table follower server with ⟨_ | done, after⟩
      · rfl
      · exact inductionHypothesis after

theorem tells_followWithin (table : Table μ) (depth : Nat) :
    Tells (followWithin table depth) (actsWithin table depth) := by
  induction depth with
  | zero => exact fun _ _ => rfl
  | succ depth inductionHypothesis => exact inductionHypothesis.follow

theorem tells_run (table : Table μ) : Tells (Server.run table) (runActs table) :=
  tells_followWithin table callDepth

theorem initAll_eq_actAll (table : Table μ) (providers : List (Provider μ)) (server : Server μ) :
    (initAll table providers server).2 = server.actAll (initActs table providers server) := by
  induction providers generalizing server with
  | nil => rfl
  | cons provider rest inductionHypothesis =>
      unfold initAll initActs
      rw [actAll_append, ← tells_run]
      rcases Server.run table provider.init server with ⟨ending, after⟩
      cases ending with
      | aborted => rfl
      | refused reason => rfl
      | _ => exact inductionHypothesis after

end Telling

/-! ## Steps from the outside -/

/-- What can be done to a server from the outside, and what time does to it. -/
inductive Step (μ : Type) where
  | perform (request : Call)
  | receive (connection : ConnectionId) (text : String)
  | invoke (code : Code) (state : State) (connection : ConnectionId) (args : Args)
  | schedule (timing : Timing) (body : Procedure μ)
  | start
  | stop
  | pass (seconds : Nat)
  /-- The time of a task has come. -/
  | fire (task : TaskId)
  | drain

namespace Step

/-- The server after a step. -/
def apply (table : Table μ) (server : Server μ) : Step μ → Server μ
  | .perform request => (server.perform request).2
  | .receive connection text => (server.receive table connection text).2
  | .invoke code state connection args => (server.invoke table code state connection args).2
  | .schedule timing body => (server.schedule timing body).2
  | .start => (server.start table).2
  | .stop => (server.stop table).2
  | .pass seconds => (clockwork table).timeline.pass seconds server
  | .fire task => (clockwork table).fire server task
  | .drain => { server with queue := ⟨server.queue.frames.drop 1⟩ }

/-- What happens at the due time of a task. -/
def fireHappenings (table : Table μ) (server : Server μ) (id : TaskId) : List (Happening μ) :=
  match server.scheduler.task? id with
  | none => []
  | some task =>
      if server.scheduler.isStopped task.id then [.drop task]
      else
        .enter task :: (runActs table task.body server).map .act ++
          [.leave task (Server.run table task.body server).1]

/-- Everything that happens in a step, in order. -/
def happenings (table : Table μ) (server : Server μ) : Step μ → List (Happening μ)
  | .perform request => [.act (.perform request)]
  | .receive connection text =>
      (receiveActs table (runActs table) server connection text).map .act
  | .invoke code state connection args =>
      (dispatchActs table (runActs table) server code state connection args).map .act
  | .schedule timing body => [.act (.schedule timing body)]
  | .start => (initActs table table.providers server).map .act
  | .stop => (stopActs table (Server.run table) (runActs table) server).map .act
  | .pass seconds => [.pass seconds]
  | .fire task => fireHappenings table server task
  | .drain => [.drain]

theorem fire_eq_run (table : Table μ) (server : Server μ) (id : TaskId) :
    (clockwork table).fire server id = machine.run server (fireHappenings table server id) := by
  unfold fireHappenings
  cases found : server.scheduler.task? id with
  | none => exact (clockwork table).fire_of_missing found
  | some task =>
      dsimp only
      cases stopped : server.scheduler.isStopped task.id with
      | true => exact (clockwork table).fire_of_stopped found stopped
      | false =>
          rw [(clockwork table).fire_of_running found stopped, if_neg Bool.false_ne_true,
            machine.run_append]
          show _ = machine.run (machine.run server ((runActs table task.body server).map .act)) _
          rw [run_map_act, ← tells_run]
          rfl

/-- A step comes to its happenings one after the other. -/
theorem apply_eq_run (table : Table μ) (server : Server μ) (step : Step μ) :
    step.apply table server = machine.run server (step.happenings table server) := by
  cases step with
  | perform request => rfl
  | receive connection text =>
      exact ((tells_run table).receive server connection text).trans (run_map_act server _).symm
  | invoke code state connection args =>
      exact ((tells_run table).dispatch server code state connection args).trans
        (run_map_act server _).symm
  | schedule timing body => rfl
  | start => exact (initAll_eq_actAll table table.providers server).trans (run_map_act server _).symm
  | stop => exact ((tells_run table).stop server).trans (run_map_act server _).symm
  | pass seconds => rfl
  | fire task => exact fire_eq_run table server task
  | drain => rfl

end Step

/-- A server that is served by a table. -/
def steps (table : Table μ) : Machine (Server μ) (Step μ) :=
  ⟨fun server step => step.apply table server⟩

/-- Everything that happens in any number of steps, in order. -/
def story (table : Table μ) (server : Server μ) : List (Step μ) → List (Happening μ)
  | [] => []
  | first :: rest =>
      first.happenings table server ++ story table (first.apply table server) rest

theorem run_steps (table : Table μ) (server : Server μ) (made : List (Step μ)) :
    (steps table).run server made = machine.run server (story table server made) := by
  induction made generalizing server with
  | nil => rfl
  | cons first rest inductionHypothesis =>
      rw [story, machine.run_append, ← Step.apply_eq_run]
      exact inductionHypothesis (first.apply table server)

/-! ## Time -/

/-- Time that goes by, or a task whose time has come. -/
def Step.IsTime : Step μ → Prop
  | .pass _ => True
  | .fire _ => True
  | _ => False

/-- A server becomes another one by time alone. -/
def Elapses (table : Table μ) (before after : Server μ) : Prop :=
  ∃ made, (∀ step ∈ made, Step.IsTime step) ∧ after = (steps table).run before made

section Time

variable {table : Table μ}

theorem Elapses.refl (server : Server μ) : Elapses table server server := ⟨[], nofun, rfl⟩

theorem Elapses.of_step (server : Server μ) (step : Step μ) (time : step.IsTime) :
    Elapses table server (step.apply table server) :=
  ⟨[step], by simpa using time, rfl⟩

theorem Elapses.trans {first second third : Server μ} (early : Elapses table first second)
    (late : Elapses table second third) : Elapses table first third := by
  obtain ⟨made, timed, rfl⟩ := early
  obtain ⟨more, alsoTimed, rfl⟩ := late
  refine ⟨made ++ more, ?_, (Machine.run_append _ _ _ _).symm⟩
  intro step member
  exact (List.mem_append.mp member).elim (timed step) (alsoTimed step)

variable (table)

theorem elapses_fires (ids : List TaskId) (server : Server μ) :
    Elapses table server (ids.foldl (clockwork table).fire server) := by
  induction ids generalizing server with
  | nil => exact .refl server
  | cons first rest inductionHypothesis =>
      have fired : Elapses table server ((Step.fire first).apply table server) :=
        .of_step server _ trivial
      exact fired.trans (inductionHypothesis _)

theorem elapses_rounds (bound : Nat) (server : Server μ) :
    Elapses table server ((clockwork table).rounds bound server) := by
  induction bound generalizing server with
  | zero => exact .refl server
  | succ bound inductionHypothesis =>
      unfold Clockwork.rounds
      split
      · exact .refl server
      · exact (elapses_fires table _ server).trans (inductionHypothesis _)

/-- To let seconds go by is nothing but time. -/
theorem elapses_advance (seconds : Nat) (server : Server μ) :
    Elapses table server (server.advance table seconds) := by
  unfold Server.advance Clockwork.advance
  induction seconds using Nat.strongRecOn generalizing server with
  | ind seconds inductionHypothesis =>
      have passes : ∀ delay, Elapses table server ((clockwork table).timeline.pass delay server) :=
        fun delay => .of_step server (.pass delay) trivial
      cases next : (clockwork table).timeline.nextMoment? server with
      | none =>
          rw [(clockwork table).timeline.advance_of_quiet
            ((clockwork table).timeline.quiet_of_nextMoment?_eq_none next seconds)]
          exact passes seconds
      | some moment =>
          have later := (clockwork table).timeline.lt_nextMoment? next
          by_cases reached : moment ≤ (clockwork table).timeline.now server + seconds
          · rw [(clockwork table).timeline.advance_of_nextMoment?_le next reached]
            have settled := elapses_rounds table Clockwork.roundLimit
              ((clockwork table).timeline.pass
                (moment - (clockwork table).timeline.now server) server)
            exact ((passes _).trans settled).trans (inductionHypothesis _ (by omega) _)
          · rw [(clockwork table).timeline.advance_of_quiet
              ((clockwork table).timeline.quiet_of_lt_nextMoment? next (by omega))]
            exact passes seconds

end Time

end Server

end SessionServer
