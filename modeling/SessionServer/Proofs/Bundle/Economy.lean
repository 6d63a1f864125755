import Mathlib.Algebra.Group.Int.Defs
import SessionServer.Proofs.Bundle.Records
import SessionServer.Proofs.Bundle.Stopping

/-!
Contract: no gold of a player is lost or granted twice, whatever fails in the store.

Owns:
- `Bundle.creations` and `Bundle.grants`, the reports of new records and of grants by account;
- `Bundle.Books`, the link between the reports on record for an account and its record;
- the theorem that the reports add up in every run, and that a stop writes all of it down.

Does not own: what a single step does to the records, which is `Bundle.Turn`, nor what a stop does,
which is `Bundle.Stopped`.
-/

namespace SessionServer.Bundle

open Server

/-! ## Accounts -/

section Accounts

variable {σ : Type}

/-- The reports of a new record that a login to an account has queued. -/
def Event.creations (uid : Identity) (event : Event σ) : List Frame :=
  match event.login? with
  | some (_, account) => if account = uid then event.sent.filter Frame.reportsCreation else []
  | none => []

/-- The reports of a grant that a request from the holder of an account has queued, each with the
connection that has asked. -/
def Event.grants (uid : Identity) (event : Event σ) : List (ConnectionId × Frame) :=
  match event.step with
  | .receive connection _ =>
      if event.before.registry.identity? connection = some uid then
        (event.sent.filter fun frame => frame.carries Code.playerGold).map
          fun frame => (connection, frame)
      else []
  | _ => []

def creations (uid : Identity) (history : List (Event σ)) : List Frame :=
  history.flatMap (Event.creations uid)

def grants (uid : Identity) (history : List (Event σ)) : List (ConnectionId × Frame) :=
  history.flatMap (Event.grants uid)

theorem creations_snoc (uid : Identity) (history : List (Event σ)) (event : Event σ) :
    creations uid (history ++ [event]) = creations uid history ++ event.creations uid := by
  rw [creations, List.flatMap_append, List.flatMap_singleton]
  rfl

theorem grants_snoc (uid : Identity) (history : List (Event σ)) (event : Event σ) :
    grants uid (history ++ [event]) = grants uid history ++ event.grants uid := by
  rw [grants, List.flatMap_append, List.flatMap_singleton]
  rfl

namespace Event

variable {event : Event σ}

theorem creations_of_silent (silent : ∀ frame ∈ event.sent, frame.reportsCreation = false)
    (uid : Identity) : event.creations uid = [] := by
  have nothing : event.sent.filter Frame.reportsCreation = [] := by
    rw [List.filter_eq_nil_iff]
    intro frame sent
    rw [silent frame sent]
    exact Bool.false_ne_true
  unfold creations
  split
  · rw [nothing, ite_self]
  · rfl

theorem creations_of_login {connection : ConnectionId} {account : Identity}
    (login : event.login? = some (connection, account)) (uid : Identity) :
    event.creations uid =
      if account = uid then event.sent.filter Frame.reportsCreation else [] := by
  rw [creations, login]

theorem grants_of_receive {connection : ConnectionId} {text : String}
    (asked : event.step = .receive connection text) (uid : Identity) :
    event.grants uid =
      if event.before.registry.identity? connection = some uid then
        (event.sent.filter fun frame => frame.carries Code.playerGold).map
          fun frame => (connection, frame)
      else [] := by
  rw [grants, asked]

theorem grants_of_silent (silent : ∀ frame ∈ event.sent, frame.carries Code.playerGold = false)
    (uid : Identity) : event.grants uid = [] := by
  have nothing : (event.sent.filter fun frame => frame.carries Code.playerGold) = [] := by
    rw [List.filter_eq_nil_iff]
    intro frame sent
    rw [silent frame sent]
    exact Bool.false_ne_true
  unfold grants
  split
  · rw [nothing, List.map_nil, ite_self]
  · rfl

end Event

end Accounts

/-! ## Books -/

/-- The gold with which an account starts: that of its row, or else that of a new record. -/
def initialGold (store : FaultyStore Player) (uid : Identity) : Int64 :=
  ((store.row uid).map Player.gold).getD Player.startingGold

/-- The gold of an account after so many grants. -/
def balance (store : FaultyStore Player) (uid : Identity) (count : Nat) : Int :=
  (initialGold store uid).toInt + 100 * count

/-- What the record of an account owes to the reports. Where there is no room for another grant
there is no report of it either, so no balance ever leaves its word. -/
structure Books (store : FaultyStore Player) (uid : Identity) (shown : Option Player)
    (created : List Frame) (granted : List (ConnectionId × Frame)) : Prop where
  absent : shown = none → store.row uid = none ∧ created = [] ∧ granted = []
  once : created.length ≤ 1
  original : store.row uid ≠ none → created = []
  gold : ∀ {player : Player}, shown = some player →
    player.gold.toInt = balance store uid granted.length
  reports : ∀ {index : Nat} {connection : ConnectionId} {frame : Frame},
    granted[index]? = some (connection, frame) →
      frame = goldReport connection (balance store uid (index + 1))

/-- The books of all accounts at once. -/
def Ledger (store : FaultyStore Player) (history : List (Event (FaultyStore Player)))
    (server : Server (Features (FaultyStore Player))) : Prop :=
  ∀ uid, Books store uid (records server uid) (creations uid history) (grants uid history)

section Balances

variable {store : FaultyStore Player} {uid : Identity} {created report : List Frame}
  {granted : List (ConnectionId × Frame)} {player richer : Player}

theorem balance_zero (store : FaultyStore Player) (uid : Identity) :
    balance store uid 0 = (initialGold store uid).toInt := by
  rw [balance, Int.ofNat_zero, Int.mul_zero, Int.add_zero]

theorem balance_succ (store : FaultyStore Player) (uid : Identity) (count : Nat) :
    balance store uid (count + 1) = balance store uid count + 100 := by
  unfold balance
  omega

theorem books_fresh (store : FaultyStore Player) (uid : Identity) :
    Books store uid (store.row uid) [] [] where
  absent missing := ⟨missing, rfl, rfl⟩
  once := Nat.zero_le _
  original _ := rfl
  gold {player} found := by
    have initial : initialGold store uid = player.gold := by
      rw [initialGold, found]
      rfl
    rw [List.length_nil, balance_zero, initial]
  reports listed := by cases listed

theorem Books.create (books : Books store uid none created granted)
    (gold : player.gold = Player.startingGold) (single : report.length ≤ 1) :
    Books store uid (some player) (created ++ report) granted := by
  obtain ⟨missing, uncreated, ungranted⟩ := books.absent rfl
  subst uncreated ungranted
  constructor
  · exact nofun
  · exact single
  · intro kept
    exact absurd missing kept
  · intro other same
    cases same
    have initial : initialGold store uid = Player.startingGold := by
      rw [initialGold, missing]
      rfl
    rw [gold, List.length_nil, balance_zero, initial]
  · exact nofun

theorem Books.grant (books : Books store uid (some player) created granted)
    (connection : ConnectionId) (grown : richer.gold.toInt = player.gold.toInt + 100) :
    Books store uid (some richer) created
      (granted ++ [(connection, goldReport connection richer.gold.toInt)]) := by
  have sum : richer.gold.toInt = balance store uid (granted.length + 1) := by
    rw [balance_succ, ← books.gold rfl, grown]
  refine ⟨nofun, books.once, books.original, ?_, ?_⟩
  · intro other same
    cases same
    rw [List.length_append]
    exact sum
  · intro index receiver frame listed
    rw [List.getElem?_append] at listed
    split at listed
    · exact books.reports listed
    · next beyond =>
        obtain ⟨bound, entry⟩ := List.getElem?_eq_some_iff.mp listed
        have last : index = granted.length := by
          rw [List.length_singleton] at bound
          omega
        subst last
        simp only [Nat.sub_self, List.getElem_cons_zero] at entry
        cases entry
        rw [sum]

end Balances

section Ledgers

variable {store : FaultyStore Player} {history : List (Event (FaultyStore Player))}
  {event : Event (FaultyStore Player)}

theorem ledger_fresh {server : Server (Features (FaultyStore Player))}
    (fresh : server.memory.cache = .fresh store) : Ledger store [] server := by
  intro uid
  have initially : records server uid = store.row uid := by
    rw [records, fresh]
    rfl
  rw [initially]
  exact books_fresh store uid

theorem Ledger.turn (ledger : Ledger store history event.before) (turn : Turn event) :
    Ledger store (history ++ [event]) event.after := by
  intro uid
  have books := ledger uid
  rw [creations_snoc, grants_snoc]
  cases turn with
  | quiet same uncreated ungranted =>
      rw [Event.creations_of_silent uncreated, Event.grants_of_silent ungranted,
        List.append_nil, List.append_nil, same]
      exact books
  | @created connection account player login missing made gold reported ungranted =>
      rw [Event.grants_of_silent ungranted, List.append_nil, Event.creations_of_login login,
        made, Function.update_apply]
      by_cases owner : account = uid
      · subst owner
        rw [missing] at books
        rw [if_pos rfl, if_pos rfl]
        exact books.create gold reported
      · rw [if_neg owner, if_neg (Ne.symm owner), List.append_nil]
        exact books
  | @granted connection text account player richer now asked holds found granted changed
      reported =>
      have uncreated : ∀ frame ∈ event.sent, frame.reportsCreation = false := by
        intro frame member
        rw [reported] at member
        rw [List.mem_singleton.mp member]
        apply Frame.reportsCreation_of_carries
        exact (Frame.carries_envelope _ _ _ _).trans (by decide)
      rw [Event.creations_of_silent uncreated, List.append_nil, Event.grants_of_receive asked,
        holds, changed, Function.update_apply]
      by_cases owner : account = uid
      · subst owner
        have paid : (event.sent.filter fun frame => frame.carries Code.playerGold) =
            [goldReport connection richer.gold.toInt] := by
          rw [reported]
          exact List.filter_cons_of_pos ((Frame.carries_envelope _ _ _ _).trans (by decide))
        rw [found] at books
        rw [if_pos rfl, if_pos rfl, paid]
        exact books.grant connection (Player.granted?_eq_some_iff.mp granted).1
      · rw [if_neg fun same => owner (Option.some.inj same), if_neg (Ne.symm owner),
          List.append_nil]
        exact books

end Ledgers

/-! ## The economy -/

section Economy

variable {store : FaultyStore Player} {table : Table (Features (FaultyStore Player))}
  {start : Server (Features (FaultyStore Player))}

/-- The books are in order after every run. -/
theorem Started.ledger_run (started : Started store table start)
    (stored : ∀ {uid player}, store.row uid = some player → player.uid = some uid)
    (steps : List (Step (FaultyStore Player))) (kept : ∀ step ∈ steps, step.KeepsRows) :
    ((machine table).run start steps).memory.cache.Consistent ∧
      Ledger store ((machine table).trace start steps) ((machine table).run start steps) ∧
      ∀ event ∈ (machine table).trace start steps, Turn event := by
  obtain ⟨heartbeat, flushPeriod, serves⟩ := started.serves
  obtain ⟨-, -, fresh, -⟩ := started.spec
  induction steps using List.reverseRecOn with
  | nil =>
      refine ⟨?_, ledger_fresh fresh, fun _ member => absurd member List.not_mem_nil⟩
      show start.memory.cache.Consistent
      rw [fresh]
      exact Cache.consistent_fresh store stored
  | append_singleton steps last inductionHypothesis =>
      obtain ⟨consistent, ledger, turns⟩ :=
        inductionHypothesis fun step member => kept step (List.mem_append_left _ member)
      have keeps := kept last (List.mem_append_right _ List.mem_cons_self)
      have effect := started.effect steps last
      have turn := effect.turn consistent keeps
      rw [Machine.trace_append, Machine.run_append]
      refine ⟨effect.consistent consistent keeps, ledger.turn turn, ?_⟩
      intro event member
      rcases List.mem_append.mp member with earlier | now
      · exact turns event earlier
      · rw [List.mem_singleton.mp now]
        exact turn

/-- Every report is on record for the account that it is about. -/
theorem Turn.accounted {event : Event (FaultyStore Player)} (turn : Turn event) {frame : Frame}
    (sent : frame ∈ event.sent) :
    (frame.reportsCreation = true → ∃ uid, frame ∈ event.creations uid) ∧
      (frame.carries Code.playerGold = true →
        ∃ connection uid, (connection, frame) ∈ event.grants uid) := by
  cases turn with
  | quiet _ uncreated ungranted =>
      rw [uncreated frame sent, ungranted frame sent]
      exact ⟨nofun, nofun⟩
  | @created connection uid _ login _ _ _ _ ungranted =>
      rw [ungranted frame sent]
      refine ⟨fun reports => ⟨uid, ?_⟩, nofun⟩
      rw [Event.creations_of_login login, if_pos rfl]
      exact List.mem_filter.mpr ⟨sent, reports⟩
  | @granted connection _ uid _ _ _ asked holds _ _ _ reported =>
      constructor
      · intro reports
        rw [reported] at sent
        have carries := Frame.carries_of_reportsCreation reports
        rw [List.mem_singleton.mp sent, goldReport, Frame.carries_envelope] at carries
        exact absurd carries (by decide)
      · intro carries
        refine ⟨connection, uid, ?_⟩
        rw [Event.grants_of_receive asked, if_pos holds]
        exact List.mem_map_of_mem (List.mem_filter.mpr ⟨sent, carries⟩)

/-- In every run at most one new record is reported for an account, and none if it had a row. The
gold of its record is what it started with and a hundred for every reported grant, each of which
says so. When the server stops and nothing keeps it from saving, the rows are what is visible. -/
theorem economy_adds_up (started : Started store table start)
    (stored : ∀ {uid player}, store.row uid = some player → player.uid = some uid)
    (steps : List (Step (FaultyStore Player))) (kept : ∀ step ∈ steps, step.KeepsRows)
    (uid : Identity) :
    let server := (machine table).run start steps
    let history : List (Event (FaultyStore Player)) := (machine table).trace start steps
    (∀ event ∈ history, ∀ frame ∈ event.sent,
      (frame.reportsCreation = true → ∃ account, frame ∈ event.creations account) ∧
        (frame.carries Code.playerGold = true →
          ∃ connection account, (connection, frame) ∈ event.grants account)) ∧
    (creations uid history).length ≤ 1 ∧
    (store.row uid ≠ none → creations uid history = []) ∧
    (∀ (step : Step (FaultyStore Player)) player, step.KeepsRows →
      records server uid = some player →
      records (step.apply table server) uid = some player ∨
        ∃ now richer, player.granted? now = some richer ∧
          records (step.apply table server) uid = some richer) ∧
    (∀ player, records server uid = some player →
      player.gold.toInt = balance store uid (grants uid history).length) ∧
    (∀ index connection frame, (grants uid history)[index]? = some (connection, frame) →
      frame = goldReport connection (balance store uid (index + 1))) ∧
    ((∀ player : Player, server.memory.cache.store.outage.stopsSave player = false) →
      ∃ after, server.stop table = (some (), after) ∧
        after.memory.cache.row uid = records server uid ∧
          records after uid = records server uid) := by
  intro server history
  obtain ⟨heartbeat, flushPeriod, serves⟩ := started.serves
  obtain ⟨consistent, ledger, turns⟩ := started.ledger_run stored steps kept
  have books := ledger uid
  refine ⟨?_, books.once, books.original, ?_, fun _ found => books.gold found,
    fun _ _ _ listed => books.reports listed, ?_⟩
  · intro event member frame sent
    exact (turns event member).accounted sent
  · intro step player keeps found
    exact ((started.effect steps step).turn consistent keeps).keeps found
  · intro served
    obtain ⟨after, equation, stopped⟩ := stop_eq serves server
    refine ⟨after, equation, ?_, ?_⟩
    · rw [stopped.cache, Cache.row_flush consistent served]
      rfl
    · rw [records, stopped.cache, Cache.visible_flush consistent]
      rfl

/-- Account 7 is created, asks for gold twice and is flushed in vain in between. -/
def sampleGrants : List (Step (FaultyStore Player)) :=
  let grant := "\x7b\"value\":302\x7d"
  [.accept, .receive ⟨1⟩ sampleLogin, .receive ⟨1⟩ grant,
    .disturb fun faulty => { faulty with outage := { saves := true, loads := true } }, .flush,
    .receive ⟨1⟩ grant, .disturb fun faulty => { faulty with outage := .none }]

theorem economy_adds_up_sample :
    let server := (machine sampleTable).run (sampleServer {}) sampleGrants
    let history := (machine sampleTable).trace (sampleServer {}) sampleGrants
    (grants 7 history).length = 2 ∧
      (∃ player, records server 7 = some player ∧ player.gold.toInt = balance {} 7 2) ∧
      ∃ after, server.stop sampleTable = (some (), after) ∧
        after.memory.cache.row 7 = records server 7 := by
  have stored : ∀ {uid : Identity} {player : Player},
      ({} : FaultyStore Player).row uid = some player → player.uid = some uid := nofun
  have kept : ∀ step ∈ sampleGrants, step.KeepsRows := by
    simp only [sampleGrants, List.mem_cons, List.not_mem_nil, or_false, forall_eq_or_imp,
      forall_eq]
    exact ⟨trivial, trivial, trivial, fun _ => rfl, trivial, trivial, fun _ => rfl⟩
  have twice :
      (grants 7 ((machine sampleTable).trace (sampleServer {}) sampleGrants)).length = 2 := by
    decide +kernel
  have there :
      (records ((machine sampleTable).run (sampleServer {}) sampleGrants) 7).isSome = true := by
    decide +kernel
  have calm : ((machine sampleTable).run (sampleServer {}) sampleGrants).memory.cache.store.outage =
      .none := by decide +kernel
  have served : ∀ player : Player,
      ((machine sampleTable).run (sampleServer {}) sampleGrants).memory.cache.store.outage.stopsSave
        player = false := by
    intro player
    rw [calm]
    unfold Outage.stopsSave
    cases Entity.key? player <;> rfl
  obtain ⟨-, -, -, -, gold, -, stops⟩ :=
    economy_adds_up (started_sample {}) stored sampleGrants kept 7
  rw [twice] at gold
  obtain ⟨player, found⟩ := Option.isSome_iff_exists.mp there
  obtain ⟨after, stopped, row, -⟩ := stops served
  exact ⟨twice, ⟨player, found, gold player found⟩, after, stopped, row⟩

end Economy

end SessionServer.Bundle
