import SessionServer.Proofs.Server.Lifetimes

/-!
Contract: which requests procedures make, and what they leave alone.

Owns:
- `Procedure.Only`, a bound on the requests that a procedure and the tasks it schedules can make,
  whatever they are answered, and `Table.Only`, the same bound for handlers and closing hooks;
- the proof that following such procedures comes to no other acts, at any depth of calls;
- `Call.Sparing`, the requests other than the end of a session, and the proof that sessions outlast
  everything that is made up of them.

The bound is read off the procedures alone and can be checked once for a table.
-/

namespace SessionServer

variable {μ : Type} {allowed : Call → Prop}

/-! ## Procedures -/

namespace Procedure

/-- Every request that can be made, by the procedure or by a task it schedules, is allowed. -/
def Only (allowed : Call → Prop) : Procedure μ → Prop
  | .finish _ => True
  | .recall next => ∀ memory, (next memory).Only allowed
  | .remember _ next => next.Only allowed
  | .call request next => allowed request ∧ ∀ reply, (next reply).Only allowed
  | .receive _ _ next => ∀ outcome, (next outcome).Only allowed
  | .invoke _ _ _ _ next => ∀ outcome, (next outcome).Only allowed
  | .schedule _ body next => body.Only allowed ∧ ∀ id, (next id).Only allowed
  | .stopServer next => next.Only allowed

theorem Only.andThen {first : Procedure μ} {rest : Ending → Procedure μ}
    (only : first.Only allowed) (others : ∀ ending, (rest ending).Only allowed) :
    (first.andThen rest).Only allowed := by
  induction first with
  | finish ending => exact others ending
  | «recall» next inductionHypothesis =>
      exact fun memory => inductionHypothesis memory (only memory)
  | remember memory next inductionHypothesis => exact inductionHypothesis only
  | call request next inductionHypothesis =>
      exact ⟨only.1, fun reply => inductionHypothesis reply (only.2 reply)⟩
  | receive connection text next inductionHypothesis =>
      exact fun outcome => inductionHypothesis outcome (only outcome)
  | invoke code state connection args next inductionHypothesis =>
      exact fun outcome => inductionHypothesis outcome (only outcome)
  | schedule timing body next _ inductionHypothesis =>
      exact ⟨only.1, fun id => inductionHypothesis id (only.2 id)⟩
  | stopServer next inductionHypothesis => exact inductionHypothesis only

/-- The body of a session task also looks its session up. -/
theorem Only.whileOpen {body : Procedure μ} (only : body.Only allowed) {connection : ConnectionId}
    (looks : allowed (.session connection)) : (body.whileOpen connection).Only allowed := by
  refine ⟨looks, ?_⟩
  intro before
  cases before with
  | none => exact trivial
  | some session => exact only.andThen fun _ => ⟨looks, fun _ => trivial⟩

end Procedure

/-- The handlers and the closing hooks of a table make allowed requests only. -/
structure Table.Only (allowed : Call → Prop) (table : Table μ) : Prop where
  handler : ∀ {code : Code} {entry : Entry μ}, table.get? code = some entry →
    ∀ request, (entry.handler request).Only allowed
  destroy : ∀ provider ∈ table.providers, provider.destroy.Only allowed

/-! ## Acts -/

def Act.Only (allowed : Call → Prop) : Act μ → Prop
  | .perform request => allowed request
  | .remember _ => True
  | .schedule _ body => body.Only allowed
  | .shutDown => True

namespace Server

/-- Of procedures that make allowed requests only, allowed acts are told. -/
def TellsOnly (allowed : Call → Prop) (teller : Teller μ) : Prop :=
  ∀ procedure : Procedure μ, procedure.Only allowed → ∀ server,
    ∀ act ∈ teller procedure server, act.Only allowed

section Telling

variable {table : Table μ} {follower : Follower μ} {teller : Teller μ}

theorem TellsOnly.dispatch (only : TellsOnly allowed teller) (served : table.Only allowed)
    (server : Server μ) (code : Code) (state : State) (connection : ConnectionId) (args : Args) :
    ∀ act ∈ dispatchActs table teller server code state connection args, act.Only allowed := by
  unfold dispatchActs
  cases found : table.get? code with
  | none => exact nofun
  | some entry =>
      dsimp only
      split
      · exact only _ (served.handler found _) server
      · exact nofun

theorem TellsOnly.receive (only : TellsOnly allowed teller) (served : table.Only allowed)
    (server : Server μ) (connection : ConnectionId) (text : String) :
    ∀ act ∈ receiveActs table teller server connection text, act.Only allowed := by
  unfold receiveActs
  cases Envelope.parse text with
  | error error => exact nofun
  | ok envelope =>
      cases server.registry.state? connection with
      | none => exact nofun
      | some state => exact only.dispatch served server _ state connection _

theorem TellsOnly.destroy (only : TellsOnly allowed teller) {providers : List (Provider μ)}
    (hooks : ∀ provider ∈ providers, provider.destroy.Only allowed) (server : Server μ) :
    ∀ act ∈ destroyActs follower teller providers server, act.Only allowed := by
  induction providers generalizing server with
  | nil => exact nofun
  | cons provider rest inductionHypothesis =>
      intro act member
      rcases List.mem_append.mp member with own | later
      · exact only _ (hooks provider List.mem_cons_self) server act own
      · split at later
        · cases later
        · exact inductionHypothesis
            (fun other listed => hooks other (List.mem_cons_of_mem _ listed)) _ act later

theorem TellsOnly.stop (only : TellsOnly allowed teller) (served : table.Only allowed)
    (server : Server μ) :
    ∀ act ∈ stopActs table follower teller server, act.Only allowed := by
  intro act member
  rcases List.mem_append.mp member with hook | last
  · exact only.destroy served.destroy server act hook
  · split at last
    · cases last
    · rw [List.mem_singleton.mp last]
      exact trivial

/-- Calls add nothing as long as the handlers that are called keep to the same bound. -/
theorem TellsOnly.follow (only : TellsOnly allowed teller) (served : table.Only allowed) :
    TellsOnly allowed (followActs table follower teller) := by
  intro procedure
  induction procedure with
  | finish ending => exact fun _ _ => nofun
  | «recall» next inductionHypothesis =>
      exact fun bound server => inductionHypothesis _ (bound _) server
  | remember memory next inductionHypothesis =>
      intro bound server act member
      rcases List.mem_cons.mp member with rfl | later
      · exact trivial
      · exact inductionHypothesis bound _ act later
  | call request next inductionHypothesis =>
      intro bound server act member
      rcases List.mem_cons.mp member with rfl | later
      · exact bound.1
      · exact inductionHypothesis _ (bound.2 _) _ act later
  | receive connection text next inductionHypothesis =>
      intro bound server act member
      rw [followActs] at member
      rcases List.mem_append.mp member with inside | later
      · exact only.receive served server connection text act inside
      · split at later
        · cases later
        · exact inductionHypothesis _ (bound _) _ act later
  | invoke code state connection args next inductionHypothesis =>
      intro bound server act member
      rw [followActs] at member
      rcases List.mem_append.mp member with inside | later
      · exact only.dispatch served server code state connection args act inside
      · split at later
        · cases later
        · exact inductionHypothesis _ (bound _) _ act later
  | schedule timing body next _ inductionHypothesis =>
      intro bound server act member
      rcases List.mem_cons.mp member with rfl | later
      · exact bound.1
      · exact inductionHypothesis _ (bound.2 _) _ act later
  | stopServer next inductionHypothesis =>
      intro bound server act member
      rcases List.mem_append.mp member with inside | later
      · exact only.stop served server act inside
      · split at later
        · cases later
        · exact inductionHypothesis bound _ act later

theorem tellsOnly_runActs (served : table.Only allowed) : TellsOnly allowed (runActs table) := by
  have within : ∀ depth, TellsOnly allowed (actsWithin table depth) := by
    intro depth
    induction depth with
    | zero => exact fun _ _ _ => nofun
    | succ depth inductionHypothesis => exact inductionHypothesis.follow served
  exact within callDepth

end Telling

/-! ## Happenings -/

/-- The acts among what happens are allowed. -/
def HappensOnly (allowed : Call → Prop) (happenings : List (Happening μ)) : Prop :=
  ∀ act, .act act ∈ happenings → act.Only allowed

section Happening

variable {table : Table μ} {server : Server μ}

theorem happensOnly_of_acts {acts : List (Act μ)} (only : ∀ act ∈ acts, act.Only allowed) :
    HappensOnly allowed (acts.map .act) := by
  intro act member
  obtain ⟨same, listed, equal⟩ := List.mem_map.mp member
  cases equal
  exact only act listed

theorem happensOnly_receive (served : table.Only allowed) (connection : ConnectionId)
    (text : String) :
    HappensOnly allowed ((Step.receive connection text).happenings table server) :=
  happensOnly_of_acts ((tellsOnly_runActs served).receive served server connection text)

theorem happensOnly_stop (served : table.Only allowed) :
    HappensOnly allowed (Step.stop.happenings table server) :=
  happensOnly_of_acts ((tellsOnly_runActs served).stop served server)

/-- The body of a task that is due makes allowed requests only, if those of all waiting tasks do. -/
theorem happensOnly_fire (served : table.Only allowed)
    (tasks : server.scheduler.Each (Procedure.Only allowed)) (task : TaskId) :
    HappensOnly allowed ((Step.fire task).happenings table server) := by
  show HappensOnly allowed (Step.fireHappenings table server task)
  unfold Step.fireHappenings
  cases found : server.scheduler.task? task with
  | none => exact fun _ => nofun
  | some entry =>
      have bound : entry.body.Only allowed := tasks entry (List.mem_of_find?_eq_some found)
      have body := happensOnly_of_acts (tellsOnly_runActs served entry.body bound server)
      dsimp only
      split
      · intro act member
        cases List.mem_singleton.mp member
      · intro act member
        rcases List.mem_append.mp member with early | last
        · rcases List.mem_cons.mp early with entry | inside
          · cases entry
          · exact body act inside
        · cases List.mem_singleton.mp last

/-- The bound on tasks is kept where everybody may look sessions up, as session tasks do. -/
theorem each_only_happen (looks : ∀ connection, allowed (.session connection))
    (tasks : server.scheduler.Each (Procedure.Only allowed)) {happening : Happening μ}
    (only : HappensOnly allowed [happening]) :
    (server.happen happening).scheduler.Each (Procedure.Only allowed) := by
  cases happening with
  | act act =>
      have bound : act.Only allowed := only act List.mem_cons_self
      cases act with
      | perform request =>
          cases request with
          | close connection => exact tasks.cancelSession connection
          | cancel task => exact tasks.cancel task
          | _ => exact tasks
      | remember memory => exact tasks
      | schedule timing body =>
          cases timing with
          | once delay => exact tasks.schedule (.once delay) bound
          | repeating period => exact tasks.schedule (.repeating period) bound
          | session connection period =>
              have guarded := tasks.schedule (.session connection period)
                (bound.whileOpen (looks connection))
              show (server.schedule (.session connection period) body).2.scheduler.Each _
              unfold schedule
              dsimp only
              split
              · exact guarded
              · exact tasks.refuse
      | shutDown => exact tasks
  | enter task => exact tasks
  | leave task ending => exact tasks.finish task ending
  | drop task => exact tasks.retire task
  | pass seconds => exact tasks.pass seconds
  | drain => exact tasks

end Happening

end Server

/-! ## Sessions that outlast requests -/

/-- The request does not end a session. -/
def Call.Sparing : Call → Prop
  | .close _ => False
  | _ => True

namespace Server

/-- Every session of one server is a session of the other, whose tasks do not end sessions. -/
structure Outlasts (before after : Server μ) : Prop where
  isOpen : ∀ connection, before.isOpen connection = true → after.isOpen connection = true
  tasks : after.scheduler.Each (Procedure.Only Call.Sparing)

section Outlasting

variable {server : Server μ}

theorem outlasts_happen (tasks : server.scheduler.Each (Procedure.Only Call.Sparing))
    {happening : Happening μ} (only : HappensOnly Call.Sparing [happening]) :
    Outlasts server (server.happen happening) where
  isOpen connection isOpen := by
    refine (server.isOpen_happen happening connection).mpr (.inr ⟨isOpen, ?_⟩)
    intro closes
    have ends : happening = .act (.perform (.close connection)) := closes
    subst ends
    exact only _ List.mem_cons_self
  tasks := each_only_happen (fun _ => trivial) tasks only

/-- Sessions outlast everything in which nobody asks for their end. -/
theorem outlasts_run (tasks : server.scheduler.Each (Procedure.Only Call.Sparing))
    {happenings : List (Happening μ)} (only : HappensOnly Call.Sparing happenings) :
    Outlasts server (machine.run server happenings) := by
  induction happenings generalizing server with
  | nil => exact ⟨fun _ isOpen => isOpen, tasks⟩
  | cons first rest inductionHypothesis =>
      have now : Outlasts server (server.happen first) := by
        refine outlasts_happen tasks fun act member => only act ?_
        rw [List.mem_singleton.mp member]
        exact List.mem_cons_self
      have later := inductionHypothesis now.tasks fun act member =>
        only act (List.mem_cons_of_mem _ member)
      exact ⟨fun connection isOpen => later.isOpen connection (now.isOpen connection isOpen),
        later.tasks⟩

theorem nextNumber_le_run (server : Server μ) (happenings : List (Happening μ)) :
    server.registry.nextNumber ≤ (machine.run server happenings).registry.nextNumber :=
  Machine.run_invariant
    (fun after : Server μ => server.registry.nextNumber ≤ after.registry.nextNumber)
    (Nat.le_refl _)
    (fun after happening reached =>
      Nat.le_trans reached (after.nextNumber_le_happen happening)) happenings

end Outlasting

end Server

end SessionServer
