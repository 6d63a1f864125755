import Mathlib.Data.List.Induction

/-!
Contract: what goes from state to state by steps, with the record of its steps.

Owns:
- `Machine`, its runs and their traces, and the induction over runs that has the trace at hand;
- `Machine.Leads`, from state to state by steps that keep to a rule;
- `Since`, what a trace says about an event that later ones may undo.
-/

namespace SessionServer

/-- A step with the states before and after it. -/
structure Occurrence (σ α : Type) where
  before : σ
  step : α
  after : σ

/-- Something that goes from state to state by steps. -/
structure Machine (σ α : Type) where
  apply : σ → α → σ

namespace Machine

variable {σ α : Type} (machine : Machine σ α)

/-- The state after any number of steps. -/
def run (state : σ) : List α → σ
  | [] => state
  | first :: rest => run (machine.apply state first) rest

/-- The record of any number of steps. -/
def trace (state : σ) : List α → List (Occurrence σ α)
  | [] => []
  | first :: rest =>
      ⟨state, first, machine.apply state first⟩ :: trace (machine.apply state first) rest

theorem run_append (state : σ) (first second : List α) :
    machine.run state (first ++ second) = machine.run (machine.run state first) second := by
  induction first generalizing state with
  | nil => rfl
  | cons step rest inductionHypothesis => exact inductionHypothesis _

theorem trace_append (state : σ) (first second : List α) :
    machine.trace state (first ++ second) =
      machine.trace state first ++ machine.trace (machine.run state first) second := by
  induction first generalizing state with
  | nil => rfl
  | cons step rest inductionHypothesis =>
      rw [List.cons_append, trace, trace, inductionHypothesis]
      rfl

theorem map_step_trace (state : σ) (steps : List α) :
    (machine.trace state steps).map Occurrence.step = steps := by
  induction steps generalizing state with
  | nil => rfl
  | cons first rest inductionHypothesis =>
      rw [trace, List.map_cons, inductionHypothesis]

variable {machine}

/-- What holds at the start and is kept by every step holds after every run. -/
theorem run_induction {start : σ} (property : List (Occurrence σ α) → σ → Prop)
    (initial : property [] start)
    (preserved : ∀ history state step, property history state →
      property (history ++ [⟨state, step, machine.apply state step⟩]) (machine.apply state step))
    (steps : List α) : property (machine.trace start steps) (machine.run start steps) := by
  induction steps using List.reverseRecOn with
  | nil => exact initial
  | append_singleton steps last inductionHypothesis =>
      rw [trace_append, run_append]
      exact preserved _ _ last inductionHypothesis

theorem run_invariant {start : σ} (property : σ → Prop) (initial : property start)
    (preserved : ∀ state step, property state → property (machine.apply state step))
    (steps : List α) : property (machine.run start steps) := by
  induction steps generalizing start with
  | nil => exact initial
  | cons first rest inductionHypothesis =>
      exact inductionHypothesis (preserved start first initial)

/-- What is kept by every step that keeps to a rule holds after every run of such steps. -/
theorem run_invariant_of_rule {start : σ} {rule : Occurrence σ α → Prop} (property : σ → Prop)
    (initial : property start)
    (preserved : ∀ state step, rule ⟨state, step, machine.apply state step⟩ → property state →
      property (machine.apply state step))
    {steps : List α} (keeps : ∀ event ∈ machine.trace start steps, rule event) :
    property (machine.run start steps) := by
  induction steps generalizing start with
  | nil => exact initial
  | cons first rest inductionHypothesis =>
      obtain ⟨here, later⟩ := List.forall_mem_cons.mp keeps
      exact inductionHypothesis (preserved start first here initial) later

/-- Every entry of a trace is a step from a state that has the trace up to there behind it and the
rest of the trace ahead. -/
theorem split_of_trace {start : σ} {steps : List α} {earlier later : List (Occurrence σ α)}
    {event : Occurrence σ α} (split : machine.trace start steps = earlier ++ event :: later) :
    ∃ before after, steps = before ++ event.step :: after ∧
      earlier = machine.trace start before ∧ event.before = machine.run start before ∧
      event.after = machine.apply event.before event.step ∧
      later = machine.trace event.after after := by
  induction earlier generalizing start steps with
  | nil =>
      cases steps with
      | nil => cases split
      | cons first rest =>
          cases split
          exact ⟨[], rest, rfl, rfl, rfl, rfl, rfl⟩
  | cons head earlier inductionHypothesis =>
      cases steps with
      | nil => cases split
      | cons first rest =>
          obtain ⟨same, tail⟩ := List.cons.inj split
          obtain ⟨before, after, steps, traced, reached, applied, ahead⟩ :=
            inductionHypothesis tail
          refine ⟨first :: before, after, ?_, ?_, reached, applied, ahead⟩
          · rw [steps, List.cons_append]
          · rw [trace, ← same, ← traced]

theorem trace_eq_append_cons {start : σ} {steps : List α} {earlier later : List (Occurrence σ α)}
    {event : Occurrence σ α} (split : machine.trace start steps = earlier ++ event :: later) :
    ∃ before, earlier = machine.trace start before ∧
      event.before = machine.run start before ∧
      event.after = machine.apply event.before event.step := by
  obtain ⟨before, -, -, traced, reached, applied, -⟩ := split_of_trace split
  exact ⟨before, traced, reached, applied⟩

/-- From every entry of a trace the run goes on to the same end. -/
theorem resume_of_trace {start : σ} {steps : List α} {earlier later : List (Occurrence σ α)}
    {event : Occurrence σ α} (split : machine.trace start steps = earlier ++ event :: later) :
    ∃ before after, event.before = machine.run start before ∧
      event.after = machine.apply event.before event.step ∧
      later = machine.trace event.after after ∧
      machine.run start steps = machine.run event.after after := by
  obtain ⟨before, after, rfl, -, reached, applied, ahead⟩ := split_of_trace split
  refine ⟨before, after, reached, applied, ahead, ?_⟩
  rw [run_append, applied, reached]
  rfl

/-- What holds at the start and is kept by every step holds before and after every entry of a
trace. -/
theorem trace_invariant {start : σ} (property : σ → Prop) (initial : property start)
    (preserved : ∀ state step, property state → property (machine.apply state step))
    {steps : List α} {event : Occurrence σ α} (member : event ∈ machine.trace start steps) :
    property event.before ∧ property event.after := by
  obtain ⟨earlier, later, split⟩ := List.append_of_mem member
  obtain ⟨before, -, reached, applied⟩ := trace_eq_append_cons split
  have holds : property event.before := by
    rw [reached]
    exact run_invariant property initial preserved before
  refine ⟨holds, ?_⟩
  rw [applied]
  exact preserved _ _ holds

/-! ## Steps that keep to a rule -/

variable {rule : Occurrence σ α → Prop} {first second third : σ}

/-- Steps that keep to the rule lead from state to state. -/
def Leads (machine : Machine σ α) (rule : Occurrence σ α → Prop) (first second : σ) : Prop :=
  ∃ steps, second = machine.run first steps ∧ ∀ event ∈ machine.trace first steps, rule event

theorem Leads.refl (state : σ) : machine.Leads rule state state :=
  ⟨[], rfl, fun _ member => nomatch member⟩

theorem Leads.trans (start : machine.Leads rule first second)
    (next : machine.Leads rule second third) : machine.Leads rule first third := by
  obtain ⟨before, rfl, beforeKeeps⟩ := start
  obtain ⟨after, rfl, afterKeeps⟩ := next
  refine ⟨before ++ after, (machine.run_append first before after).symm, ?_⟩
  rw [trace_append]
  exact List.forall_mem_append.mpr ⟨beforeKeeps, afterKeeps⟩

theorem Leads.step {state : σ} (step : α) (keeps : rule ⟨state, step, machine.apply state step⟩) :
    machine.Leads rule state (machine.apply state step) :=
  ⟨[step], rfl, List.forall_mem_singleton.mpr keeps⟩

end Machine

/-! ## Events that later ones undo -/

/-- Something of the first kind has happened, and nothing of the second kind since. -/
def Since {ε : Type} (happened undone : ε → Prop) (history : List ε) : Prop :=
  ∃ earlier event later, history = earlier ++ event :: later ∧ happened event ∧
    ∀ next ∈ later, ¬undone next

section Since

variable {ε : Type} {happened undone : ε → Prop}

theorem not_since_nil : ¬Since happened undone [] := by
  rintro ⟨earlier, event, later, split, -⟩
  exact List.append_ne_nil_of_right_ne_nil earlier (List.cons_ne_nil event later) split.symm

/-- After one more event it has either just happened, or it had happened and is not undone. -/
theorem since_snoc {history : List ε} {last : ε} :
    Since happened undone (history ++ [last]) ↔
      happened last ∨ Since happened undone history ∧ ¬undone last := by
  constructor
  · rintro ⟨earlier, event, later, split, occurred, standing⟩
    rcases List.eq_nil_or_concat later with rfl | ⟨between, final, rfl⟩
    · obtain ⟨-, same⟩ := List.append_inj' split rfl
      cases same
      exact .inl occurred
    · rw [List.concat_eq_append] at split standing
      have regrouped : history ++ [last] = (earlier ++ event :: between) ++ [final] := by
        rw [split, List.append_assoc]
        rfl
      obtain ⟨before, same⟩ := List.append_inj' regrouped rfl
      cases same
      refine .inr ⟨⟨earlier, event, between, before, occurred, ?_⟩, ?_⟩
      · intro next member
        exact standing next (List.mem_append_left _ member)
      · exact standing last (List.mem_append_right _ List.mem_cons_self)
  · rintro (occurred | ⟨⟨earlier, event, later, rfl, occurred, standing⟩, kept⟩)
    · exact ⟨history, last, [], rfl, occurred, fun _ member => nomatch member⟩
    · refine ⟨earlier, event, later ++ [last], ?_, occurred, ?_⟩
      · rw [List.append_assoc]
        rfl
      · intro next member
        rcases List.mem_append.mp member with old | new
        · exact standing next old
        · cases List.mem_singleton.mp new
          exact kept

/-- What every step decides anew is told from the trace: it has come about and has not been undone
since. -/
theorem Machine.since_run {σ α : Type} {machine : Machine σ α} {start : σ} (property : σ → Prop)
    {happened undone : Occurrence σ α → Prop} (initial : ¬property start)
    (decided : ∀ earlier step, let before := machine.run start earlier
      property (machine.apply before step) ↔
        happened ⟨before, step, machine.apply before step⟩ ∨
          property before ∧ ¬undone ⟨before, step, machine.apply before step⟩)
    (steps : List α) :
    property (machine.run start steps) ↔ Since happened undone (machine.trace start steps) := by
  induction steps using List.reverseRecOn with
  | nil => exact iff_of_false initial not_since_nil
  | append_singleton steps last inductionHypothesis =>
      rw [run_append, trace_append]
      refine (decided steps last).trans (Iff.trans ?_ since_snoc.symm)
      rw [inductionHypothesis]

end Since

end SessionServer
