/-!
Contract: time that goes by in a world in which something happens now and then.

Owns:
- `Timeline`, how a world tells the present moment and the moments for which something is due, how
  time goes by in it while nothing happens, and what happens when a moment has come;
- `Timeline.advance`, the passing of a number of seconds. It goes from one moment at which
  something is due straight to the next, so a long silent span takes a single step.

Only what is due later than now lies ahead. What is due now is dealt with when it comes up, and
`advance` does not look back for it.

Main statements: `advance_add`, time may be cut into pieces at will; `advance_of_quiet` and
`advance_of_nextMoment?_le`, what becomes of a span that ends before the next moment ahead and of
one that reaches it.
-/

namespace SessionServer

/-- How a world stands in time. -/
structure Timeline (ω : Type) where
  /-- The present moment, in seconds since the start. -/
  now : ω → Nat
  /-- The moments for which something is due, in any order; past ones do not matter. -/
  moments : ω → List Nat
  /-- Lets seconds go by in which nothing happens. -/
  pass : Nat → ω → ω
  /-- Makes everything happen that is due at the present moment. -/
  settle : ω → ω
  now_pass : ∀ seconds world, now (pass seconds world) = now world + seconds
  moments_pass : ∀ seconds world, moments (pass seconds world) = moments world
  pass_zero : ∀ world, pass 0 world = world
  pass_add : ∀ first second world, pass (first + second) world = pass second (pass first world)

namespace Timeline

variable {ω : Type}

/-- The first of the moments that lie ahead. -/
def nextMoment? (timeline : Timeline ω) (world : ω) : Option Nat :=
  ((timeline.moments world).filter (timeline.now world < ·)).min?

theorem lt_nextMoment? (timeline : Timeline ω) {world : ω} {moment : Nat}
    (next : timeline.nextMoment? world = some moment) : timeline.now world < moment :=
  of_decide_eq_true (List.mem_filter.mp (List.min?_mem next)).2

def advance (timeline : Timeline ω) (seconds : Nat) (world : ω) : ω :=
  match _ : timeline.nextMoment? world with
  | none => timeline.pass seconds world
  | some moment =>
      let delay := moment - timeline.now world
      if delay ≤ seconds then
        timeline.advance (seconds - delay) (timeline.settle (timeline.pass delay world))
      else timeline.pass seconds world
termination_by seconds
decreasing_by
  exact Nat.sub_lt_of_pos_le (Nat.sub_pos_of_lt (timeline.lt_nextMoment? ‹_›)) ‹_›

/-! ## What lies ahead -/

/-- Whether nothing is due within a number of seconds from now. -/
def Quiet (timeline : Timeline ω) (seconds : Nat) (world : ω) : Prop :=
  ∀ moment ∈ timeline.moments world,
    timeline.now world < moment → timeline.now world + seconds < moment

theorem quiet_of_nextMoment?_eq_none (timeline : Timeline ω) {world : ω}
    (next : timeline.nextMoment? world = none) (seconds : Nat) :
    timeline.Quiet seconds world := by
  intro moment membership later
  have ahead : moment ∈ (timeline.moments world).filter (timeline.now world < ·) :=
    List.mem_filter.mpr ⟨membership, decide_eq_true later⟩
  rw [List.min?_eq_none_iff.mp next] at ahead
  cases ahead

theorem quiet_of_lt_nextMoment? (timeline : Timeline ω) {world : ω} {seconds moment : Nat}
    (next : timeline.nextMoment? world = some moment)
    (early : timeline.now world + seconds < moment) : timeline.Quiet seconds world := by
  intro other membership later
  exact Nat.lt_of_lt_of_le early <|
    (List.min?_eq_some_iff.mp next).2 other <|
      List.mem_filter.mpr ⟨membership, decide_eq_true later⟩

/-- In a silent span the next moment ahead stays the same. -/
theorem nextMoment?_pass (timeline : Timeline ω) {seconds : Nat} {world : ω}
    (quiet : timeline.Quiet seconds world) :
    timeline.nextMoment? (timeline.pass seconds world) = timeline.nextMoment? world := by
  unfold nextMoment?
  rw [timeline.moments_pass, timeline.now_pass]
  congr 1
  apply List.filter_congr
  intro moment membership
  apply decide_eq_decide.mpr
  exact ⟨fun later => Nat.lt_of_le_of_lt (Nat.le_add_right _ _) later, quiet moment membership⟩

/-! ## Passing time -/

/-- Before the next moment ahead, time just goes by. -/
theorem advance_of_quiet (timeline : Timeline ω) {seconds : Nat} {world : ω}
    (quiet : timeline.Quiet seconds world) :
    timeline.advance seconds world = timeline.pass seconds world := by
  unfold advance
  split
  · rfl
  · rename_i moment next
    have later := timeline.lt_nextMoment? next
    have silent := quiet moment (List.mem_filter.mp (List.min?_mem next)).1 later
    exact if_neg (by omega)

/-- A span that reaches the next moment ahead goes on from the world in which that moment has been
dealt with. -/
theorem advance_of_nextMoment?_le (timeline : Timeline ω) {seconds moment : Nat} {world : ω}
    (next : timeline.nextMoment? world = some moment)
    (reached : moment ≤ timeline.now world + seconds) :
    timeline.advance seconds world =
      timeline.advance (seconds - (moment - timeline.now world))
        (timeline.settle (timeline.pass (moment - timeline.now world) world)) := by
  rw [advance]
  split
  · rename_i nothing
    rw [next] at nothing
    cases nothing
  · rename_i other otherNext
    have same : moment = other := Option.some.inj (next.symm.trans otherNext)
    rw [← same]
    exact if_pos (by omega)

@[simp] theorem advance_zero (timeline : Timeline ω) (world : ω) :
    timeline.advance 0 world = world := by
  rw [timeline.advance_of_quiet fun _ _ later => later, timeline.pass_zero]

/-- Time may be cut into pieces at will. -/
theorem advance_add (timeline : Timeline ω) (first second : Nat) (world : ω) :
    timeline.advance (first + second) world =
      timeline.advance second (timeline.advance first world) := by
  induction first using Nat.strongRecOn generalizing world with
  | ind first inductionHypothesis =>
      cases next : timeline.nextMoment? world with
      | none =>
          have quiet := timeline.quiet_of_nextMoment?_eq_none next
          have nextAfter := (timeline.nextMoment?_pass (quiet first)).trans next
          rw [timeline.advance_of_quiet (quiet (first + second)),
            timeline.advance_of_quiet (quiet first),
            timeline.advance_of_quiet (timeline.quiet_of_nextMoment?_eq_none nextAfter second),
            timeline.pass_add]
      | some moment =>
          have later := timeline.lt_nextMoment? next
          by_cases reached : moment ≤ timeline.now world + first
          · rw [timeline.advance_of_nextMoment?_le next (by omega),
              timeline.advance_of_nextMoment?_le next reached,
              Nat.sub_add_comm (by omega)]
            exact inductionHypothesis _ (by omega) _
          · have quiet := timeline.quiet_of_lt_nextMoment? next (Nat.lt_of_not_le reached)
            have nextAfter := (timeline.nextMoment?_pass quiet).trans next
            have nowAfter := timeline.now_pass first world
            rw [timeline.advance_of_quiet quiet]
            by_cases reachedLater : moment ≤ timeline.now world + (first + second)
            · rw [timeline.advance_of_nextMoment?_le next reachedLater,
                timeline.advance_of_nextMoment?_le nextAfter (by omega), ← timeline.pass_add,
                nowAfter,
                show first + (moment - (timeline.now world + first)) =
                  moment - timeline.now world by omega,
                show first + second - (moment - timeline.now world) =
                  second - (moment - (timeline.now world + first)) by omega]
            · rw [timeline.advance_of_quiet (timeline.quiet_of_lt_nextMoment? next (by omega)),
                timeline.advance_of_quiet
                  (timeline.quiet_of_lt_nextMoment? nextAfter (by omega)),
                timeline.pass_add]

end Timeline

end SessionServer
