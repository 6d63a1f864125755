import SessionServer.Proofs.Bundle.Records

/-!
Contract: what a grant adds to a balance, and where there is none.

Owns:
- `Cache.revise_of_fetch`, what a change that may break off comes to where an entity can be had;
- the theorem that a grant comes to a hundred up to the greatest balance that leaves room for it,
  and breaks off beyond that;
- the balance for which it does.

The store behind the records may be of any kind and hold any balance.
-/

namespace SessionServer

/-! ## Changes of an entity that is there -/

namespace Cache

variable {ε σ : Type} [EntityStore σ ε] {cache : Cache ε σ} {key : EntityKey} {entity : ε}

/-- What is left of an entity by a look-up is the entity itself, in memory. -/
theorem get_of_fetch (there : cache.fetch key = .ok (some entity)) :
    (cache.get key).2 = cache.keep key entity false := by
  rw [get_eq, there]

/-- A change breaks off for the entity that can be had, or is what can be had from then on. -/
theorem revise_of_fetch (there : cache.fetch key = .ok (some entity)) (change : ε → Option ε) :
    cache.revise key change =
      match change entity with
      | none => (none, cache.keep key entity false)
      | some changed => (some (.ok (some changed)), cache.keep key changed true) := by
  rw [revise_eq_touch, touch, there]
  dsimp only [Option.bind_some]
  cases change entity <;> rfl

end Cache

namespace Bundle

open Server

variable {σ : Type} [EntityStore σ Player]

/-! ## Grants -/

/-- A request for gold that is let through is answered just if the sum fits a signed word of 64
bits. Then the record has a hundred more, which the reply says. Otherwise the request breaks off,
and nothing has happened but a look-up of the record. -/
theorem grant_exact_iff {table : Table (Features σ)} {heartbeat flushPeriod : Nat}
    (made : bundledTable heartbeat flushPeriod = .ok table) {server : Server (Features σ)}
    {connection : ConnectionId} {text : String} {args : Args} {session : Session}
    {uid : Identity} {player : Player}
    (parsed : Envelope.parse text = .ok ⟨Code.playerAddGold, args⟩)
    (found : server.registry.session? connection = some session)
    (plays : Players.playing.permits session.state = true)
    (bound : session.identity = some uid)
    (there : server.memory.cache.fetch uid = .ok (some player)) :
    ∃ outcome after, server.receive table connection text = (outcome, after) ∧
      (outcome = some (.handled Code.playerAddGold) ↔ player.gold.toInt + 100 < 2 ^ 63) ∧
      (player.gold.toInt + 100 < 2 ^ 63 →
        ∃ richer, player.granted? server.clock = some richer ∧
          richer.gold.toInt = player.gold.toInt + 100 ∧
          after.memory.cache.fetch uid = .ok (some richer) ∧
          after.queue.frames = server.queue.frames ++ [goldReport connection richer.gold.toInt]) ∧
      (2 ^ 63 ≤ player.gold.toInt + 100 →
        outcome = none ∧ after = server.withCache (server.memory.cache.get uid).2 ∧
          after.memory.cache.fetch uid = .ok (some player)) := by
  have serves := serves_of_bundledTable made
  have known : server.registry.state? connection = some session.state := by
    rw [Registry.state?, found, Option.map_some]
  have holds : server.registry.identity? connection = some uid :=
    Registry.identity?_eq_some_iff.mpr ⟨session, found, bound⟩
  rw [receive_of_parsed parsed known, dispatch_of_permitted _ _ _ _ serves.addGold plays, run_eq,
    follow_addGold, holds]
  dsimp only
  rw [Cache.revise_of_fetch there]
  cases granted : player.granted? server.clock with
  | none =>
      have full := Player.granted?_eq_none_iff.mp granted
      have noRoom : ¬player.gold.toInt + 100 < 2 ^ 63 := Int.not_lt.mpr full
      refine ⟨_, _, rfl, iff_of_false (Option.some_ne_none _).symm noRoom,
        fun room => absurd room noRoom, ?_⟩
      intro _
      refine ⟨rfl, ?_, Cache.fetch_keep _ _ _ _⟩
      rw [Cache.get_of_fetch there]
      exact say_nil _
  | some richer =>
      have room : player.gold.toInt + 100 < 2 ^ 63 := by
        by_contra full
        rw [Player.granted?_eq_none_iff.mpr (Int.not_lt.mp full)] at granted
        cases granted
      refine ⟨_, _, rfl, iff_of_true rfl room, ?_, fun full => absurd room (Int.not_lt.mpr full)⟩
      intro _
      exact ⟨richer, rfl, (Player.granted?_eq_some_iff.mp granted).1, Cache.fetch_keep _ _ _ _, rfl⟩

/-! ### The last grants -/

/-- A store in which account 7 has some gold. -/
def sampleRiches (gold : Int64) : FaultyStore Player where
  store := (MemoryStore.empty.save { Player.fresh 7 0 with gold }).2

/-- A server in which account 7 has just logged in. -/
def richServer (gold : Int64) : Server (Features (FaultyStore Player)) :=
  (machine sampleTable).run (sampleServer (sampleRiches gold)) [.accept, .receive ⟨1⟩ sampleLogin]

/-- The text of a request for gold. -/
def sampleGrant : String := "\x7b\"value\":302\x7d"

/-- The last grant for which there is room fills the word. -/
theorem grant_exact_iff_last :
    ∃ richer after, (richServer 9223372036854775707).receive sampleTable ⟨1⟩ sampleGrant =
        (some (.handled Code.playerAddGold), after) ∧
      after.memory.cache.fetch 7 = .ok (some richer) ∧ richer.gold.toInt = 2 ^ 63 - 1 := by
  have made : bundledTable (σ := FaultyStore Player) 10 60 = .ok sampleTable := rfl
  have parsed : Envelope.parse sampleGrant = .ok ⟨Code.playerAddGold, []⟩ := rfl
  have found : (richServer 9223372036854775707).registry.session? ⟨1⟩ =
      some ⟨State.authorized, some 7⟩ := by decide +kernel
  have there : (richServer 9223372036854775707).memory.cache.fetch 7 =
      .ok (some { Player.fresh 7 0 with gold := 9223372036854775707 }) := by decide +kernel
  obtain ⟨outcome, after, received, handled, grows, -⟩ :=
    grant_exact_iff made parsed found rfl rfl there
  obtain ⟨richer, -, exact, now, -⟩ := grows (by decide)
  exact ⟨richer, after, received.trans (by rw [handled.mpr (by decide)]), now, exact⟩

/-- With a full word a request for gold breaks off: there is no answer and no reply, and the balance
stays what it was. -/
theorem grant_breaks_off_full :
    let server := richServer Int64.maxValue
    let after := (server.receive sampleTable ⟨1⟩ sampleGrant).2
    Started (sampleRiches Int64.maxValue) sampleTable
        (sampleServer (sampleRiches Int64.maxValue)) ∧
      server.registry.identity? ⟨1⟩ = some 7 ∧
      (server.receive sampleTable ⟨1⟩ sampleGrant).1 = none ∧
      (records server 7).map (fun player => player.gold.toInt) = some (2 ^ 63 - 1) ∧
      (records after 7).map (fun player => player.gold.toInt) = some (2 ^ 63 - 1) ∧
      Event.sent ⟨server, .receive ⟨1⟩ sampleGrant, after⟩ = [] :=
  ⟨started_sample _, by decide +kernel, by decide +kernel, by decide +kernel, by decide +kernel,
    by decide +kernel⟩

end Bundle

end SessionServer
