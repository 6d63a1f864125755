import Mathlib.Algebra.BigOperators.Fin
import SessionServer.Proofs.Delivery.Draining
import SessionServer.Proofs.Delivery.Station
import SessionServer.Proofs.Machine

/-!
Contract: when the loops of a delivery line make their steps, and what is left on the queue.

Owns:
- `Rhythm`, the moments of a loop, which are its start and every full period from then on;
- `DrainLog`, a delivery line with the record of every step of its loops, which has no influence on
  the line;
- `DrainLog.OnTime`, the invariant of such a record, and `DrainLog.Drained`, what a stretch of time
  without new frames does to the queue.

Main statement: `loops_keep_time`, every loop keeps its rhythm, whatever is queued and whatever
delivery comes to.
-/

namespace SessionServer

/-! ## Rhythms -/

/-- The start of a loop and its period. -/
structure Rhythm where
  start : Nat
  period : Nat
deriving DecidableEq, Repr

namespace Rhythm

variable (rhythm : Rhythm)

/-- The moment of a step, the first one being step zero. -/
def beat (index : Nat) : Nat := rhythm.start + index * rhythm.period

/-- How many beats there are up to a moment. -/
def count (moment : Nat) : Nat :=
  if moment < rhythm.start then 0 else (moment - rhythm.start) / rhythm.period + 1

/-- The beats up to a moment. -/
def beats (moment : Nat) : List Nat := (List.range (rhythm.count moment)).map rhythm.beat

/-- The loop of a rhythm as it waits for the first beat after a moment. -/
def waiting (moment : Nat) : DrainLoop := ⟨rhythm.period, rhythm.beat (rhythm.count moment)⟩

theorem beat_succ (index : Nat) : rhythm.beat (index + 1) = rhythm.beat index + rhythm.period := by
  simp only [beat, Nat.succ_mul, Nat.add_assoc]

theorem count_start : rhythm.count rhythm.start = 1 := by
  simp [count]

variable {rhythm} (regular : 0 < rhythm.period)
include regular

theorem beat_le_iff (index moment : Nat) :
    rhythm.beat index ≤ moment ↔ index < rhythm.count moment := by
  unfold beat count
  split
  · omega
  · rw [Nat.lt_succ_iff, Nat.le_div_iff_mul_le regular]
    omega

theorem beat_le_beat_iff (index other : Nat) :
    rhythm.beat index ≤ rhythm.beat other ↔ index ≤ other := by
  simp only [beat, Nat.add_le_add_iff_left, Nat.mul_le_mul_right_iff regular]

/-- The first beat that is not counted lies ahead. -/
theorem lt_beat_count (moment : Nat) : moment < rhythm.beat (rhythm.count moment) := by
  have ahead := (beat_le_iff regular (rhythm.count moment) moment).not
  omega

/-- A second brings one more beat or none. -/
theorem count_succ (moment : Nat) :
    rhythm.count (moment + 1) =
      if rhythm.beat (rhythm.count moment) = moment + 1 then rhythm.count moment + 1
      else rhythm.count moment := by
  have ahead := lt_beat_count regular moment
  apply eq_of_forall_lt_iff
  intro index
  have now := beat_le_iff regular index moment
  have next := beat_le_iff regular index (moment + 1)
  have order := beat_le_beat_iff regular (rhythm.count moment) index
  split
  · have back := beat_le_beat_iff regular index (rhythm.count moment)
    omega
  · have strict : index = rhythm.count moment → rhythm.beat index = rhythm.beat _ :=
      congrArg rhythm.beat
    omega

theorem beats_succ (moment : Nat) :
    rhythm.beats (moment + 1) = rhythm.beats moment ++
      if rhythm.beat (rhythm.count moment) = moment + 1 then [moment + 1] else [] := by
  unfold beats
  rw [count_succ regular]
  split
  · next beat => rw [List.range_succ, List.map_append, List.map_singleton, beat]
  · exact (List.append_nil _).symm

end Rhythm

/-! ## What can happen -/

namespace DeliveryLine

/-- What can happen to a delivery line. -/
inductive Step (τ : Type) where
  | enqueue (frame : Frame)
  /-- Connections are opened or shut from outside, or begin or cease to fail. -/
  | alter (change : τ → τ)
  /-- A loop of the given period is started. -/
  | start (period : Nat)
  /-- Seconds go by. -/
  | pass (seconds : Nat)

variable {τ : Type} [Transport τ]

def perform (line : DeliveryLine τ) : Step τ → DeliveryLine τ
  | .enqueue frame => { line with queue := line.queue.push frame }
  | .alter change => { line with transport := change line.transport }
  | .start period => line.start period
  | .pass seconds => line.advance seconds

def machine : Machine (DeliveryLine τ) (Step τ) := ⟨perform⟩

/-- The rhythm of the loop that has been started by a step. -/
def begun? (event : Occurrence (DeliveryLine τ) (Step τ)) : Option Rhythm :=
  match event.step with
  | .start period => if period = 0 then none else some ⟨event.before.now, period⟩
  | _ => none

end DeliveryLine

/-- A step of delivery that a loop has made. Loops are numbered in the order in which they were
started. -/
structure DrainTurn where
  time : Nat
  loop : Nat
  before : List Frame
  after : List Frame
  outcome : Except DeliveryError (Option Delivery)

/-- The step has taken one frame off the queue, if there was one, and has nothing to tell only if
there was none. -/
structure DrainTurn.Single (turn : DrainTurn) : Prop where
  after_eq : turn.after = turn.before.tail
  idle_iff : turn.outcome = .ok none ↔ turn.before = []

/-- The step of delivery that a loop would make at present. -/
def DeliveryLine.turn {τ : Type} [Transport τ] (line : DeliveryLine τ) (loop : Nat) :
    DrainTurn where
  time := line.now
  loop := loop
  before := line.queue.frames
  after := line.drain.queue.frames
  outcome := (drainOnce line.queue line.transport).outcome

theorem DeliveryLine.single_turn {τ : Type} [Transport τ] (line : DeliveryLine τ) (loop : Nat) :
    (line.turn loop).Single where
  after_eq := (frames_drainOnce _ _).trans List.drop_one
  idle_iff := outcome_drainOnce_iff _ _

/-- A delivery line with the rhythms of its loops and the record of their steps, oldest first. -/
structure DrainLog (τ : Type) where
  line : DeliveryLine τ
  rhythms : List Rhythm := []
  turns : List DrainTurn := []

namespace DrainLog

variable {τ : Type}

/-- The moments at which a loop has made its steps. -/
def times (log : DrainLog τ) (loop : Nat) : List Nat :=
  (log.turns.filter fun turn => turn.loop = loop).map DrainTurn.time

/-- The loops that are due at the present moment. -/
def dueLoops (line : DeliveryLine τ) : List Nat :=
  (line.loops.zipIdx.filter fun entry => entry.1.due = line.now).map Prod.snd

variable [Transport τ]

/-- A step of delivery, on record as that of a loop. -/
def turn (log : DrainLog τ) (loop : Nat) : DrainLog τ :=
  { log with line := log.line.drain, turns := log.turns ++ [log.line.turn loop] }

/-- Starts a loop, whose first step follows at once. -/
def start (log : DrainLog τ) (period : Nat) : DrainLog τ :=
  if period = 0 then log
  else
    { line := log.line.start period
      rhythms := log.rhythms ++ [⟨log.line.now, period⟩]
      turns := log.turns ++ [log.line.turn log.line.loops.length] }

/-- Lets every loop make its step that is due at the present moment. -/
def settle (log : DrainLog τ) : DrainLog τ :=
  let turned := (dueLoops log.line).foldl turn log
  { turned with
    line := { turned.line with loops := DeliveryLine.rearm log.line.now log.line.loops } }

/-- One second goes by, with the steps at its end. -/
def second (log : DrainLog τ) : DrainLog τ :=
  settle { log with line := DeliveryLine.timeline.pass 1 log.line }

def perform (log : DrainLog τ) : DeliveryLine.Step τ → DrainLog τ
  | .enqueue frame => { log with line := log.line.perform (.enqueue frame) }
  | .alter change => { log with line := log.line.perform (.alter change) }
  | .start period => log.start period
  | .pass seconds => second^[seconds] log

def machine : Machine (DrainLog τ) (DeliveryLine.Step τ) := ⟨perform⟩

/-! ### The line goes its way without the record -/

theorem line_foldl_turn (loops : List Nat) (log : DrainLog τ) :
    (loops.foldl turn log).line = DeliveryLine.drain^[loops.length] log.line := by
  rw [← List.foldl_const]
  exact (List.foldl_hom line fun _ _ => rfl).symm

omit [Transport τ] in
theorem length_dueLoops (line : DeliveryLine τ) :
    (dueLoops line).length = (line.loops.filter fun loop => loop.due = line.now).length := by
  have unnumbered := congrArg List.length <| List.filter_map
    (f := Prod.fst) (p := fun loop : DrainLoop => decide (loop.due = line.now))
    (l := line.loops.zipIdx)
  rw [List.zipIdx_map_fst, List.length_map] at unnumbered
  rw [dueLoops, List.length_map]
  exact unnumbered.symm

theorem line_settle (log : DrainLog τ) : log.settle.line = log.line.settle := by
  unfold settle DeliveryLine.settle
  dsimp only
  rw [line_foldl_turn, length_dueLoops, List.foldl_const]

theorem line_second (log : DrainLog τ) : log.second.line = DeliveryLine.timeline.tick log.line :=
  line_settle _

theorem line_perform (log : DrainLog τ) (step : DeliveryLine.Step τ) :
    (log.perform step).line = log.line.perform step := by
  cases step with
  | enqueue frame => rfl
  | alter change => rfl
  | start period =>
      simp only [perform, start, DeliveryLine.perform]
      split
      · next none => rw [DeliveryLine.start, if_pos none]
      · rfl
  | pass seconds =>
      simp only [perform, DeliveryLine.perform, DeliveryLine.advance]
      rw [Timeline.advance_eq_iterate DeliveryLine.idles]
      exact (Function.Semiconj.iterate_right line_second seconds) log

/-- The record has no influence on what is recorded. -/
theorem line_run (log : DrainLog τ) (steps : List (DeliveryLine.Step τ)) :
    (machine.run log steps).line = DeliveryLine.machine.run log.line steps := by
  induction steps generalizing log with
  | nil => rfl
  | cons step rest inductionHypothesis =>
      rw [Machine.run, Machine.run, inductionHypothesis]
      exact congrArg (DeliveryLine.machine.run · rest) (log.line_perform step)

theorem rhythms_foldl_turn (loops : List Nat) (log : DrainLog τ) :
    (loops.foldl turn log).rhythms = log.rhythms := by
  induction loops generalizing log with
  | nil => rfl
  | cons loop rest inductionHypothesis => exact inductionHypothesis (log.turn loop)

theorem rhythms_second (log : DrainLog τ) : log.second.rhythms = log.rhythms :=
  rhythms_foldl_turn _ _

theorem rhythms_perform (log : DrainLog τ) (step : DeliveryLine.Step τ) :
    (log.perform step).rhythms = log.rhythms ++
      (DeliveryLine.begun? ⟨log.line, step, log.line.perform step⟩).toList := by
  cases step with
  | enqueue frame | alter change => exact (List.append_nil _).symm
  | start period =>
      simp only [perform, start, DeliveryLine.begun?]
      split
      · exact (List.append_nil _).symm
      · rfl
  | pass seconds =>
      have same : Function.Semiconj rhythms (second (τ := τ)) id := rhythms_second
      have kept := same.iterate_right seconds log
      rw [Function.iterate_id] at kept
      exact kept.trans (List.append_nil _).symm

/-- The rhythms are those of the loops that have been started. -/
theorem rhythms_run (log : DrainLog τ) (steps : List (DeliveryLine.Step τ)) :
    (machine.run log steps).rhythms = log.rhythms ++
      (DeliveryLine.machine.trace log.line steps).filterMap DeliveryLine.begun? := by
  induction steps generalizing log with
  | nil => exact (List.append_nil _).symm
  | cons step rest inductionHypothesis =>
      have ahead := inductionHypothesis (log.perform step)
      rw [rhythms_perform, line_perform, List.append_assoc] at ahead
      refine ahead.trans (congrArg _ ?_)
      rw [Machine.trace, ← List.singleton_append, List.filterMap_append]
      congr 1

/-! ### What a moment adds to the record -/

section Moments

variable {log : DrainLog τ}

omit [Transport τ] in
theorem mem_dueLoops {line : DeliveryLine τ} {index : Nat} :
    index ∈ dueLoops line ↔ ∃ loop, line.loops[index]? = some loop ∧ loop.due = line.now := by
  simp [dueLoops, List.mem_zipIdx_iff_getElem?]

omit [Transport τ] in
theorem nodup_dueLoops (line : DeliveryLine τ) : (dueLoops line).Nodup := by
  have numbered : (line.loops.zipIdx.map Prod.snd).Nodup := by
    rw [List.zipIdx_map_snd]
    exact List.nodup_range'
  exact numbered.sublist (List.Sublist.map _ List.filter_sublist)

/-- Loops have made one step each at one moment. -/
structure Served (loops : List Nat) (before after : DrainLog τ) (made : List DrainTurn) : Prop where
  now_eq : after.line.now = before.line.now
  turns_eq : after.turns = before.turns ++ made
  inOrder : made.map DrainTurn.loop = loops
  each : ∀ turn ∈ made, turn.time = before.line.now ∧ turn.Single
  frames_eq : after.line.queue.frames = before.line.queue.frames.drop made.length

theorem served_foldl_turn (loops : List Nat) (log : DrainLog τ) :
    ∃ made, Served loops log (loops.foldl turn log) made := by
  induction loops generalizing log with
  | nil => exact ⟨[], rfl, (List.append_nil _).symm, rfl, List.forall_mem_nil _, rfl⟩
  | cons loop rest inductionHypothesis =>
      obtain ⟨made, served⟩ := inductionHypothesis (log.turn loop)
      refine ⟨log.line.turn loop :: made, served.now_eq, ?_, ?_, ?_, ?_⟩
      · rw [List.foldl_cons, served.turns_eq, turn, List.append_assoc, List.singleton_append]
      · rw [List.map_cons, served.inOrder]
        rfl
      · exact List.forall_mem_cons.mpr ⟨⟨rfl, log.line.single_turn loop⟩, served.each⟩
      · rw [List.length_cons, Nat.add_comm, ← List.drop_drop, List.foldl_cons, served.frames_eq]
        exact congrArg (List.drop made.length) (frames_drainOnce _ _)

/-- Among steps at one moment that were made by different loops a loop has made one or none. -/
theorem times_of_nodup {made : List DrainTurn} {now : Nat}
    (once : (made.map DrainTurn.loop).Nodup) (times : ∀ turn ∈ made, turn.time = now)
    (index : Nat) :
    (made.filter fun turn => turn.loop = index).map DrainTurn.time =
      if index ∈ made.map DrainTurn.loop then [now] else [] := by
  induction made with
  | nil => rfl
  | cons turn rest inductionHypothesis =>
      rw [List.map_cons, List.nodup_cons] at once
      obtain ⟨time, times⟩ := List.forall_mem_cons.mp times
      have others := inductionHypothesis once.2 times
      by_cases own : turn.loop = index
      · subst own
        rw [if_neg once.1] at others
        simp [others, time]
      · simp [others, own, Ne.symm own]

omit [Transport τ] in
/-- A loop that is served has made one step more, and no other has. -/
theorem Served.times_eq {loops : List Nat} {before after : DrainLog τ} {made : List DrainTurn}
    (served : Served loops before after made) (once : loops.Nodup) (index : Nat) :
    after.times index =
      before.times index ++ if index ∈ loops then [before.line.now] else [] := by
  obtain ⟨-, recorded, rfl, each, -⟩ := served
  rw [times, recorded, List.filter_append, List.map_append,
    times_of_nodup once fun turn member => (each turn member).1]
  rfl

omit [Transport τ] in
/-- What is true of the loops and the steps before is true of all steps on record after. -/
theorem Served.forall_turns {loops : List Nat} {before after : DrainLog τ} {made : List DrainTurn}
    (served : Served loops before after made) {bound : Nat}
    (earlier : ∀ turn ∈ before.turns, turn.loop < bound ∧ turn.Single)
    (listed : ∀ index ∈ loops, index < bound) :
    ∀ turn ∈ after.turns, turn.loop < bound ∧ turn.Single := by
  obtain ⟨-, recorded, rfl, each, -⟩ := served
  rw [recorded]
  refine List.forall_mem_append.mpr ⟨earlier, fun turn member => ?_⟩
  exact ⟨listed _ (List.mem_map_of_mem member), (each turn member).2⟩

/-- At the end of a second the loops are served that are then due. -/
theorem served_second (log : DrainLog τ) :
    let passed := { log with line := DeliveryLine.timeline.pass 1 log.line }
    ∃ made, Served (dueLoops passed.line) passed log.second made := by
  intro passed
  obtain ⟨made, served⟩ := served_foldl_turn (dueLoops passed.line) passed
  exact ⟨made, served.now_eq, served.turns_eq, served.inOrder, served.each, served.frames_eq⟩

/-- A loop that is started is served at once. -/
theorem served_start (log : DrainLog τ) {period : Nat} (positive : period ≠ 0) :
    ∃ made, Served [log.line.loops.length] log (log.start period) made := by
  rw [start, if_neg positive, DeliveryLine.start, if_neg positive]
  refine ⟨[log.line.turn log.line.loops.length], rfl, rfl, rfl, ?_, frames_drainOnce _ _⟩
  exact List.forall_mem_singleton.mpr ⟨rfl, log.line.single_turn _⟩

end Moments

/-! ## Punctuality -/

/-- Every loop has made its steps at the beats of its rhythm and waits for the next one. -/
structure OnTime (log : DrainLog τ) : Prop where
  regular : ∀ rhythm ∈ log.rhythms, 0 < rhythm.period ∧ rhythm.start ≤ log.line.now
  loops_eq : log.line.loops = log.rhythms.map fun rhythm => rhythm.waiting log.line.now
  times_eq : ∀ index rhythm, log.rhythms[index]? = some rhythm →
    log.times index = rhythm.beats log.line.now
  turns : ∀ turn ∈ log.turns, turn.loop < log.rhythms.length ∧ turn.Single

section Punctuality

variable {log : DrainLog τ}

omit [Transport τ] in
theorem OnTime.length_eq (onTime : log.OnTime) : log.line.loops.length = log.rhythms.length := by
  rw [onTime.loops_eq, List.length_map]

omit [Transport τ] in
/-- The loop that is started next has made no step so far. -/
theorem OnTime.times_next (onTime : log.OnTime) : log.times log.rhythms.length = [] := by
  have unlisted : ∀ turn ∈ log.turns, turn.loop ≠ log.rhythms.length := fun turn member =>
    Nat.ne_of_lt (onTime.turns turn member).1
  simpa [times] using unlisted

theorem OnTime.start (onTime : log.OnTime) (period : Nat) : (log.start period).OnTime := by
  by_cases none : period = 0
  · rw [DrainLog.start, if_pos none]
    exact onTime
  obtain ⟨made, served⟩ := served_start log none
  have length := onTime.length_eq
  let rhythm : Rhythm := ⟨log.line.now, period⟩
  have rhythms : (log.start period).rhythms = log.rhythms ++ [rhythm] := by
    rw [DrainLog.start, if_neg none]
  have loops : (log.start period).line.loops =
      log.line.loops ++ [⟨period, log.line.now + period⟩] := by
    rw [DrainLog.start, if_neg none, DeliveryLine.start, if_neg none]
  have once : rhythm.count log.line.now = 1 := rhythm.count_start
  constructor
  case regular =>
    rw [rhythms, served.now_eq]
    exact List.forall_mem_append.mpr
      ⟨onTime.regular, List.forall_mem_singleton.mpr ⟨Nat.pos_of_ne_zero none, Nat.le_refl _⟩⟩
  case loops_eq =>
    rw [loops, rhythms, served.now_eq, List.map_append, ← onTime.loops_eq, List.map_singleton,
      Rhythm.waiting, once, Rhythm.beat, Nat.one_mul]
  case times_eq =>
    intro index other listed
    rw [served.times_eq (List.nodup_singleton _), served.now_eq]
    simp only [List.mem_singleton, length]
    rw [rhythms, List.getElem?_append] at listed
    split at listed
    · next early =>
        rw [if_neg (Nat.ne_of_lt early), List.append_nil]
        exact onTime.times_eq index other listed
    · next late =>
        rw [List.getElem?_singleton, Option.ite_none_right_eq_some, Option.some.injEq] at listed
        obtain ⟨last, rfl⟩ := listed
        have same : index = log.rhythms.length := by omega
        rw [if_pos same, same, onTime.times_next, Rhythm.beats, once]
        simp [Rhythm.beat, rhythm]
  case turns =>
    rw [rhythms, List.length_append, List.length_singleton]
    refine served.forall_turns (fun turn member => ?_) (List.forall_mem_singleton.mpr (by omega))
    have earlier := onTime.turns turn member
    exact ⟨Nat.lt_succ_of_lt earlier.1, earlier.2⟩

theorem OnTime.second (onTime : log.OnTime) : log.second.OnTime := by
  obtain ⟨made, served⟩ := served_second log
  have now : log.second.line.now = log.line.now + 1 := served.now_eq
  have rhythms := rhythms_second log
  -- A loop is due at the end of the second if the beat that it waits for falls on it.
  have due (index : Nat) : index ∈ dueLoops (DeliveryLine.timeline.pass 1 log.line) ↔
      ∃ rhythm, log.rhythms[index]? = some rhythm ∧
        rhythm.beat (rhythm.count log.line.now) = log.line.now + 1 := by
    rw [mem_dueLoops]
    change (∃ loop, log.line.loops[index]? = some loop ∧ loop.due = log.line.now + 1) ↔ _
    rw [onTime.loops_eq]
    simp [Rhythm.waiting]
  constructor
  case regular =>
    rw [rhythms, now]
    intro rhythm member
    have kept := onTime.regular rhythm member
    exact ⟨kept.1, Nat.le_succ_of_le kept.2⟩
  case loops_eq =>
    rw [rhythms, now]
    change DeliveryLine.rearm (log.line.now + 1) log.line.loops = _
    rw [onTime.loops_eq, DeliveryLine.rearm, List.map_map]
    apply List.map_congr_left
    intro rhythm member
    have regular := (onTime.regular rhythm member).1
    simp only [Function.comp_apply, Rhythm.waiting, rhythm.count_succ regular]
    split
    · next beat => rw [rhythm.beat_succ, beat]
    · rfl
  case times_eq =>
    intro index rhythm listed
    rw [rhythms] at listed
    have regular := (onTime.regular rhythm (List.mem_of_getElem? listed)).1
    rw [served.times_eq (nodup_dueLoops _), now, rhythm.beats_succ regular]
    change log.times index ++ _ = _
    rw [onTime.times_eq index rhythm listed]
    simp only [due, listed, Option.some.injEq, exists_eq_left']
    rfl
  case turns =>
    rw [rhythms]
    refine served.forall_turns onTime.turns fun index member => ?_
    obtain ⟨rhythm, listed, -⟩ := (due index).mp member
    exact (List.getElem?_eq_some_iff.mp listed).1

theorem OnTime.perform (onTime : log.OnTime) (step : DeliveryLine.Step τ) :
    (log.perform step).OnTime := by
  cases step with
  | enqueue frame | alter change =>
      exact ⟨onTime.regular, onTime.loops_eq, onTime.times_eq, onTime.turns⟩
  | start period => exact onTime.start period
  | pass seconds =>
      exact Function.Iterate.rec OnTime onTime (fun _ kept => kept.second) seconds

/-- In every run all loops keep their rhythm. -/
theorem onTime_run (queue : DeliveryQueue) (transport : τ) (now : Nat)
    (steps : List (DeliveryLine.Step τ)) :
    (machine.run { line := { queue, transport, now } } steps : DrainLog τ).OnTime := by
  refine Machine.run_invariant OnTime ?_ (fun _ step kept => kept.perform step) steps
  exact ⟨List.forall_mem_nil _, rfl, nofun, List.forall_mem_nil _⟩

omit [Transport τ] in
theorem OnTime.time_le (onTime : log.OnTime) {turn : DrainTurn} (member : turn ∈ log.turns) :
    turn.time ≤ log.line.now := by
  have listed := (onTime.turns turn member).1
  have beats := onTime.times_eq turn.loop _ (List.getElem?_eq_getElem listed)
  have regular := (onTime.regular _ (List.getElem_mem listed)).1
  have recorded : turn.time ∈ log.times turn.loop :=
    List.mem_map_of_mem (List.mem_filter.mpr ⟨member, decide_eq_true rfl⟩)
  rw [beats] at recorded
  obtain ⟨index, counted, beat⟩ := List.mem_map.mp recorded
  rw [← beat]
  exact (Rhythm.beat_le_iff regular index _).mpr (List.mem_range.mp counted)

end Punctuality

/-! ## What is left on the queue -/

section Accounting

open Finset in
/-- Steps are counted loop by loop. -/
theorem countP_turns {turns : List DrainTurn} {bound : Nat}
    (listed : ∀ turn ∈ turns, turn.loop < bound) (chosen : Nat → Bool) :
    turns.countP (fun turn => chosen turn.time) =
      ∑ loop ∈ range bound,
        ((turns.filter fun turn => turn.loop = loop).map DrainTurn.time).countP chosen := by
  induction turns with
  | nil => simp
  | cons turn rest inductionHypothesis =>
      obtain ⟨first, others⟩ := List.forall_mem_cons.mp listed
      have split (loop : Nat) :
          (((turn :: rest).filter fun turn => turn.loop = loop).map DrainTurn.time).countP chosen =
            ((rest.filter fun turn => turn.loop = loop).map DrainTurn.time).countP chosen +
              if turn.loop = loop then (if chosen turn.time then 1 else 0) else 0 := by
        by_cases own : turn.loop = loop <;> simp [own, List.countP_cons]
      rw [List.countP_cons, inductionHypothesis others, sum_congr rfl fun loop _ => split loop,
        sum_add_distrib, sum_ite_eq, if_pos (mem_range.mpr first)]

variable {log : DrainLog τ}

omit [Transport τ] in
/-- All steps on record are the beats of the loops. -/
theorem OnTime.countP_turns (onTime : log.OnTime) (chosen : Nat → Bool) :
    log.turns.countP (fun turn => chosen turn.time) =
      (log.rhythms.map fun rhythm => (rhythm.beats log.line.now).countP chosen).sum := by
  rw [DrainLog.countP_turns fun turn member => (onTime.turns turn member).1, Finset.sum_range,
    ← Fin.sum_univ_fun_getElem]
  refine Finset.sum_congr rfl fun loop _ => ?_
  exact congrArg (List.countP chosen) <|
    onTime.times_eq loop _ (List.getElem?_eq_getElem loop.isLt)

/-- Time has gone by, and since the moment of the cut each step has taken a frame while there were
any, and no frame has been added. -/
structure Drained (cut after : DrainLog τ) (made : List DrainTurn) : Prop where
  now_lt : cut.line.now < after.line.now
  turns_eq : after.turns = cut.turns ++ made
  late : ∀ turn ∈ made, cut.line.now < turn.time
  frames_eq : after.line.queue.frames = cut.line.queue.frames.drop made.length

variable {cut after next : DrainLog τ} {made more : List DrainTurn} {loops : List Nat}

omit [Transport τ] in
theorem Drained.served (drained : Drained cut after made) (served : Served loops after next more) :
    Drained cut next (made ++ more) where
  now_lt := by
    rw [served.now_eq]
    exact drained.now_lt
  turns_eq := by rw [served.turns_eq, drained.turns_eq, List.append_assoc]
  late := by
    refine List.forall_mem_append.mpr ⟨drained.late, fun turn member => ?_⟩
    rw [(served.each turn member).1]
    exact drained.now_lt
  frames_eq := by
    rw [served.frames_eq, drained.frames_eq, List.drop_drop, List.length_append]

theorem Drained.settle {log : DrainLog τ}
    (passed : Drained cut { log with line := DeliveryLine.timeline.pass 1 log.line } made) :
    ∃ more, Drained cut log.second more := by
  obtain ⟨more, served⟩ := served_second log
  exact ⟨_, passed.served served⟩

theorem exists_drained_second (cut : DrainLog τ) : ∃ made, Drained cut cut.second made :=
  Drained.settle
    ⟨Nat.lt_succ_self _, (List.append_nil _).symm, List.forall_mem_nil _, rfl⟩

theorem Drained.passOne (drained : Drained cut after made) :
    ∃ more, Drained cut after.second more :=
  Drained.settle
    ⟨Nat.lt_succ_of_lt drained.now_lt, drained.turns_eq, drained.late, drained.frames_eq⟩

theorem Drained.pass (drained : Drained cut after made) (seconds : Nat) :
    ∃ more, Drained cut (second^[seconds] after) more :=
  Function.Iterate.rec (fun log => ∃ more, Drained cut log more) ⟨made, drained⟩
    (fun _ ⟨_, kept⟩ => kept.passOne) seconds

theorem Drained.perform (drained : Drained cut after made) {step : DeliveryLine.Step τ}
    (silent : ∀ frame, step ≠ .enqueue frame) : ∃ more, Drained cut (after.perform step) more := by
  cases step with
  | enqueue frame => exact absurd rfl (silent frame)
  | alter change => exact ⟨made, drained.now_lt, drained.turns_eq, drained.late, drained.frames_eq⟩
  | start period =>
      by_cases none : period = 0
      · refine ⟨made, ?_⟩
        rw [DrainLog.perform, DrainLog.start, if_pos none]
        exact drained
      · obtain ⟨more, served⟩ := served_start after none
        exact ⟨_, drained.served served⟩
  | pass seconds => exact drained.pass seconds

theorem Drained.run (drained : Drained cut after made) {steps : List (DeliveryLine.Step τ)}
    (silent : ∀ frame, .enqueue frame ∉ steps) :
    ∃ more, Drained cut (machine.run after steps) more := by
  induction steps generalizing after made with
  | nil => exact ⟨made, drained⟩
  | cons step rest inductionHypothesis =>
      have first (frame : Frame) : step ≠ .enqueue frame := fun same =>
        silent frame (List.mem_cons.mpr (.inl same.symm))
      obtain ⟨more, kept⟩ := drained.perform first
      exact inductionHypothesis kept fun frame member =>
        silent frame (List.mem_cons_of_mem step member)

/-- Time goes by, and then anything happens but that frames are added. -/
theorem exists_drained_run (cut : DrainLog τ) (seconds : Nat) {later : List (DeliveryLine.Step τ)}
    (silent : ∀ frame, .enqueue frame ∉ later) :
    ∃ made, Drained cut (machine.run cut (.pass (seconds + 1) :: later)) made := by
  obtain ⟨made, first⟩ := exists_drained_second cut
  obtain ⟨more, passed⟩ := first.pass seconds
  exact passed.run silent

omit [Transport τ] in
theorem OnTime.size_drained (onTime : cut.OnTime) (later : after.OnTime)
    (drained : Drained cut after made) :
    after.line.queue.size = cut.line.queue.size -
      (after.rhythms.map fun rhythm =>
        (rhythm.beats after.line.now).countP (cut.line.now < ·)).sum := by
  have before : cut.turns.countP (fun turn => decide (cut.line.now < turn.time)) = 0 := by
    rw [List.countP_eq_zero]
    intro turn member
    simpa using onTime.time_le member
  have since : made.countP (fun turn => decide (cut.line.now < turn.time)) = made.length := by
    rw [List.countP_eq_length]
    intro turn member
    exact decide_eq_true (drained.late turn member)
  rw [← later.countP_turns fun time => decide (cut.line.now < time), drained.turns_eq,
    List.countP_append, before, since, Nat.zero_add]
  exact (congrArg List.length drained.frames_eq).trans List.length_drop

/-- Every loop makes a step at its start and one after every full period from then on, and no other,
whatever frames are added in between, whatever the transport answers and whatever the step comes
to. A step takes exactly one frame off a queue that is not empty. So if no frames are added any
more, what is left of the queue is told by the number of the beats of all loops. -/
theorem loops_keep_time (queue : DeliveryQueue) (transport : τ) (now : Nat)
    (steps : List (DeliveryLine.Step τ)) :
    let line : DeliveryLine τ := { queue, transport, now }
    let log : DrainLog τ := machine.run { line } steps
    log.line = DeliveryLine.machine.run line steps ∧
      log.rhythms = (DeliveryLine.machine.trace line steps).filterMap DeliveryLine.begun? ∧
      log.OnTime ∧
      ∀ seconds later, (∀ frame, .enqueue frame ∉ later) →
        let after := machine.run log (.pass (seconds + 1) :: later)
        after.line.queue.size = log.line.queue.size -
          (after.rhythms.map fun rhythm =>
            (rhythm.beats after.line.now).countP (log.line.now < ·)).sum := by
  intro line log
  refine ⟨line_run _ steps, rhythms_run _ steps, onTime_run queue transport now steps, ?_⟩
  intro seconds later silent after
  obtain ⟨made, drained⟩ := exists_drained_run log seconds silent
  have onTime : after.OnTime := by
    have whole := onTime_run queue transport now (steps ++ .pass (seconds + 1) :: later)
    rwa [Machine.run_append] at whole
  exact (onTime_run queue transport now steps).size_drained onTime drained

/-- A loop with a period of two seconds is joined a second later by one with a period of three. In
the four seconds after that they take three of the five frames that are left. -/
theorem loops_keep_time_two :
    let queue : DeliveryQueue := ⟨List.replicate 7 ⟨⟨1⟩, .text "x"⟩⟩
    let steps : List (DeliveryLine.Step RecordingTransport) := [.start 2, .pass 1, .start 3]
    let log : DrainLog RecordingTransport :=
      machine.run { line := { queue, transport := {} } } steps
    (machine.run log [.pass 4]).line.queue.size = 2 := by
  refine ((loops_keep_time ⟨List.replicate 7 ⟨⟨1⟩, .text "x"⟩⟩ ({} : RecordingTransport) 0
    [.start 2, .pass 1, .start 3]).2.2.2 3 [] fun _ => List.not_mem_nil).trans ?_
  decide

end Accounting

end DrainLog

end SessionServer
