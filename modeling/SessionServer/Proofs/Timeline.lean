import Mathlib.Logic.Function.Iterate
import SessionServer.Timeline

/-!
Contract: time that passes in long strides comes to the same as time that passes by the second.

Owns:
- `Timeline.tick`, a single second with everything that is due at its end;
- `Timeline.Idles`, by which nothing comes of a moment for which nothing is due;
- `advance_eq_iterate`, a span is the ticks of its seconds, and `advance_map`, so a part of a
  world goes as it would alone as soon as this holds of every tick.

In a stride from one due moment to the next the seconds in between are skipped. What is due has to
be told by `moments` for this to leave nothing out.
-/

namespace SessionServer.Timeline

variable {ω ν : Type}

/-- One second goes by, and what is due then happens. -/
def tick (timeline : Timeline ω) (world : ω) : ω := timeline.settle (timeline.pass 1 world)

/-- Nothing happens at a moment for which nothing is due. -/
def Idles (timeline : Timeline ω) : Prop :=
  ∀ world, timeline.now world ∉ timeline.moments world → timeline.settle world = world

variable {timeline : Timeline ω}

theorem advance_one (idles : timeline.Idles) (world : ω) :
    timeline.advance 1 world = timeline.tick world := by
  by_cases quiet : timeline.Quiet 1 world
  · have nothing : timeline.now (timeline.pass 1 world) ∉
        timeline.moments (timeline.pass 1 world) := by
      rw [timeline.now_pass, timeline.moments_pass]
      intro due
      exact Nat.lt_irrefl _ (quiet _ due (Nat.lt_succ_self _))
    rw [timeline.advance_of_quiet quiet, tick, idles _ nothing]
  · cases next : timeline.nextMoment? world with
    | none => exact absurd (timeline.quiet_of_nextMoment?_eq_none next 1) quiet
    | some moment =>
        have later := timeline.lt_nextMoment? next
        have reached : moment ≤ timeline.now world + 1 := by
          by_contra early
          exact quiet (timeline.quiet_of_lt_nextMoment? next (Nat.not_le.mp early))
        have delay : moment - timeline.now world = 1 := by omega
        rw [timeline.advance_of_nextMoment?_le next reached, delay, Nat.sub_self,
          timeline.advance_zero, tick]

/-- No second of a span is left out. -/
theorem advance_eq_iterate (idles : timeline.Idles) (seconds : Nat) (world : ω) :
    timeline.advance seconds world = timeline.tick^[seconds] world := by
  induction seconds generalizing world with
  | zero => exact timeline.advance_zero world
  | succ seconds inductionHypothesis =>
      rw [Nat.add_comm, timeline.advance_add, advance_one idles, inductionHypothesis,
        Nat.add_comm, Function.iterate_succ_apply]

/-- A part of a world in time goes as it would alone, if that is so for every tick. -/
theorem advance_map {other : Timeline ν} (idles : timeline.Idles) (otherIdles : other.Idles)
    (part : ω → ν) (holds : ω → Prop) (kept : ∀ world, holds world → holds (timeline.tick world))
    (ticks : ∀ world, holds world → part (timeline.tick world) = other.tick (part world))
    (seconds : Nat) {world : ω} (start : holds world) :
    part (timeline.advance seconds world) = other.advance seconds (part world) := by
  rw [advance_eq_iterate idles, advance_eq_iterate otherIdles]
  induction seconds generalizing world with
  | zero => rfl
  | succ seconds inductionHypothesis =>
      rw [Function.iterate_succ_apply, Function.iterate_succ_apply,
        inductionHypothesis (kept world start), ticks world start]

end SessionServer.Timeline
