import Mathlib.Data.List.Induction
import Mathlib.Data.List.Nodup
import SessionServer.Dispatch.Table

/-!
Contract: which tables can be assembled, what they hold, and what is wrong with the others.

Owns:
- `Table.registrations`, the entries of a list of steps in the order of their registration, and
  `Table.offer?`, the first of them for a code;
- `Table.register`, the registration of single entries, to which the assembly comes down;
- `Table.Holds`, the invariant of the registration, and `Table.FirstClash`, the entry that ends it;
- the theorem that an assembly succeeds exactly when all codes differ.
-/

namespace SessionServer

variable {μ : Type}

/-- The entry of a route. -/
def Route.entry (route : Route μ) (provider : String) : Entry μ :=
  ⟨route.code, route.allowed, provider, route.handler⟩

namespace Table

/-! ## Registrations -/

/-- The entries that a step registers, in order. -/
def Step.entries : Step μ → List (Entry μ)
  | .provider registered => registered.routes.map fun route => route.entry registered.name
  | .route name single => [single.entry name]

/-- The provider that a step registers as a whole. -/
def Step.provider? : Step μ → Option (Provider μ)
  | .provider registered => some registered
  | .route _ _ => none

/-- The entries of all steps, in the order of their registration. -/
def registrations (steps : List (Step μ)) : List (Entry μ) := steps.flatMap Step.entries

/-- The first entry offered for a code. -/
def offer? (entries : List (Entry μ)) (code : Code) : Option (Entry μ) :=
  entries.find? fun entry => entry.code = code

theorem offer?_cons (entry : Entry μ) (rest : List (Entry μ)) (code : Code) :
    offer? (entry :: rest) code = if entry.code = code then some entry else offer? rest code := by
  unfold offer?
  rw [List.find?_cons]
  by_cases same : entry.code = code
  · rw [if_pos same, decide_eq_true same]
  · rw [if_neg same, decide_eq_false same]

theorem offer?_append (first second : List (Entry μ)) (code : Code) :
    offer? (first ++ second) code = (offer? first code).or (offer? second code) :=
  List.find?_append

/-- Registers entries one after another up to the first whose code is taken. -/
def register (taken : OrderedMap Code (Entry μ)) :
    List (Entry μ) → Except DispatchError (OrderedMap Code (Entry μ))
  | [] => .ok taken
  | entry :: rest =>
      match taken.get? entry.code with
      | some existing => .error (.duplicateCode entry.code existing.provider entry.provider)
      | none => register (taken.insert entry.code entry) rest

variable {taken : OrderedMap Code (Entry μ)}

theorem register_append (taken : OrderedMap Code (Entry μ)) (first second : List (Entry μ)) :
    register taken (first ++ second) =
      (register taken first).bind fun after => register after second := by
  induction first generalizing taken with
  | nil => rfl
  | cons entry rest inductionHypothesis =>
      rw [List.cons_append, register, register]
      split
      · rfl
      · exact inductionHypothesis _

theorem addRoute_eq (table : Table μ) (name : String) (route : Route μ) :
    table.addRoute name route =
      (register table.entries [route.entry name]).map fun entries => { table with entries } := by
  have known : (route.entry name).code = route.code := rfl
  rw [addRoute, get?, register, known]
  cases table.entries.get? route.code <;> rfl

theorem addRoutes_eq (table : Table μ) (name : String) (routes : List (Route μ)) :
    table.addRoutes name routes =
      (register table.entries (routes.map fun route => route.entry name)).map fun entries =>
        { table with entries } := by
  induction routes generalizing table with
  | nil => rfl
  | cons route rest inductionHypothesis =>
      have split := register_append table.entries [route.entry name]
        (rest.map fun route => route.entry name)
      rw [List.singleton_append] at split
      rw [addRoutes, addRoute_eq, List.map_cons, split]
      cases register table.entries [route.entry name] with
      | error cause => rfl
      | ok after => exact inductionHypothesis _

theorem addStep_eq (table : Table μ) (step : Step μ) :
    table.addStep step = (register table.entries step.entries).map fun entries =>
      ⟨entries, table.providers ++ step.provider?.toList⟩ := by
  cases step with
  | provider registered =>
      rw [addStep, addProvider, addRoutes_eq, Step.entries]
      cases register table.entries
          (registered.routes.map fun route => route.entry registered.name) with
      | error cause => rfl
      | ok after => rfl
  | route name route =>
      rw [addStep, addRoute_eq, Step.provider?, Option.toList_none, List.append_nil]
      rfl

/-- Whole steps come down to their entries and their providers. -/
theorem addSteps_eq (table : Table μ) (steps : List (Step μ)) :
    table.addSteps steps = (register table.entries (registrations steps)).map fun entries =>
      ⟨entries, table.providers ++ steps.filterMap Step.provider?⟩ := by
  induction steps generalizing table with
  | nil => simp [addSteps, registrations, register, Except.map]
  | cons step rest inductionHypothesis =>
      rw [addSteps, addStep_eq, registrations, List.flatMap_cons, register_append]
      cases register table.entries step.entries with
      | error cause => rfl
      | ok after =>
          refine (inductionHypothesis _).trans ?_
          cases provides : step.provider? <;> simp [provides, registrations] <;> rfl

/-! ## What is registered -/

/-- The entries are registered, each under its own code, and nothing else is. -/
structure Holds (taken : OrderedMap Code (Entry μ)) (entries : List (Entry μ)) : Prop where
  distinct : (entries.map Entry.code).Nodup
  get?_eq : ∀ code, taken.get? code = offer? entries code
  size_eq : taken.size = entries.length

theorem distinct_concat_iff {entries : List (Entry μ)} {entry : Entry μ} :
    ((entries ++ [entry]).map Entry.code).Nodup ↔
      (entries.map Entry.code).Nodup ∧ entry.code ∉ entries.map Entry.code := by
  rw [List.map_append, List.map_singleton, ← List.concat_eq_append, List.nodup_concat]
  exact and_comm

theorem offer?_eq_none_iff {entries : List (Entry μ)} {code : Code} :
    offer? entries code = none ↔ code ∉ entries.map Entry.code := by
  simp [offer?]

theorem offer?_of_mem {entries : List (Entry μ)} (distinct : (entries.map Entry.code).Nodup)
    {entry : Entry μ} (member : entry ∈ entries) : offer? entries entry.code = some entry := by
  induction entries with
  | nil => simp at member
  | cons head rest inductionHypothesis =>
      rw [List.map_cons, List.nodup_cons] at distinct
      rw [offer?_cons]
      rcases List.mem_cons.mp member with rfl | later
      · rw [if_pos rfl]
      · have differs : head.code ≠ entry.code := fun same =>
          distinct.1 (same ▸ List.mem_map_of_mem later)
        rw [if_neg differs, inductionHypothesis distinct.2 later]

theorem holds_empty : Holds (.empty : OrderedMap Code (Entry μ)) [] :=
  ⟨List.nodup_nil, fun _ => rfl, rfl⟩

/-- A code that is free is taken from now on. -/
theorem Holds.insert {entries : List (Entry μ)} (holds : Holds taken entries) {entry : Entry μ}
    (free : entry.code ∉ entries.map Entry.code) :
    Holds (taken.insert entry.code entry) (entries ++ [entry]) := by
  have unknown : taken.get? entry.code = none :=
    (holds.get?_eq entry.code).trans (offer?_eq_none_iff.mpr free)
  constructor
  case distinct => exact distinct_concat_iff.mpr ⟨holds.distinct, free⟩
  case get?_eq =>
    intro code
    rw [OrderedMap.get?_insert, holds.get?_eq, offer?_append, offer?_cons]
    split
    · next same => rw [← same, offer?_eq_none_iff.mpr free, Option.none_or]
    · exact Option.or_none.symm
  case size_eq =>
    rw [OrderedMap.size_insert, OrderedMap.contains, unknown, holds.size_eq, List.length_append]
    rfl

/-- Entries whose codes all differ are all registered. -/
theorem Holds.register {before : List (Entry μ)} (holds : Holds taken before)
    {entries : List (Entry μ)} (distinct : ((before ++ entries).map Entry.code).Nodup) :
    ∃ after, register taken entries = .ok after ∧ Holds after (before ++ entries) := by
  induction entries generalizing taken before with
  | nil => exact ⟨taken, rfl, by rwa [List.append_nil]⟩
  | cons entry rest inductionHypothesis =>
      rw [← List.singleton_append, ← List.append_assoc] at distinct ⊢
      have free : entry.code ∉ before.map Entry.code := by
        simp only [List.map_append, List.nodup_append] at distinct
        intro member
        exact distinct.1.2.2 _ member _ (by simp) rfl
      have unknown : taken.get? entry.code = none :=
        (holds.get?_eq entry.code).trans (offer?_eq_none_iff.mpr free)
      rw [List.singleton_append, Table.register, unknown]
      exact inductionHypothesis (holds.insert free) distinct

theorem register_of_distinct {entries : List (Entry μ)}
    (distinct : (entries.map Entry.code).Nodup) :
    ∃ after, register .empty entries = .ok after ∧ Holds after entries :=
  holds_empty.register distinct

/-! ## What is refused -/

/-- The error of the first entry whose code has occurred before. -/
inductive FirstClash : List (Entry μ) → DispatchError → Prop where
  | intro (earlier : List (Entry μ)) (existing entry : Entry μ) (later : List (Entry μ))
      (distinct : (earlier.map Entry.code).Nodup) (occurred : existing ∈ earlier)
      (same : existing.code = entry.code) :
      FirstClash (earlier ++ entry :: later)
        (.duplicateCode entry.code existing.provider entry.provider)

theorem exists_firstClash {entries : List (Entry μ)}
    (clash : ¬(entries.map Entry.code).Nodup) : ∃ error, FirstClash entries error := by
  -- From behind: the last entry matters only if those before it differ.
  induction entries using List.reverseRecOn with
  | nil => exact absurd List.nodup_nil clash
  | append_singleton earlier last inductionHypothesis =>
      by_cases distinct : (earlier.map Entry.code).Nodup
      · have occurred : last.code ∈ earlier.map Entry.code := by
          by_contra free
          exact clash (distinct_concat_iff.mpr ⟨distinct, free⟩)
        obtain ⟨existing, member, same⟩ := List.mem_map.mp occurred
        exact ⟨_, .intro earlier existing last [] distinct member same⟩
      · obtain ⟨error, before, existing, entry, later, first, occurred, same⟩ :=
          inductionHypothesis distinct
        rw [List.append_assoc]
        exact ⟨_, .intro before existing entry _ first occurred same⟩

theorem FirstClash.register {entries : List (Entry μ)} {error : DispatchError}
    (clash : FirstClash entries error) : register .empty entries = .error error := by
  obtain ⟨earlier, existing, entry, later, distinct, occurred, same⟩ := clash
  obtain ⟨after, made, holds⟩ := register_of_distinct distinct
  have found : after.get? entry.code = some existing := by
    rw [holds.get?_eq, ← same]
    exact offer?_of_mem distinct occurred
  rw [register_append, made, Except.bind, Table.register, found]

/-! ## Whole tables -/

theorem build_eq (steps : List (Step μ)) :
    build steps = (register .empty (registrations steps)).map fun entries =>
      ⟨entries, steps.filterMap Step.provider?⟩ :=
  addSteps_eq empty steps

theorem build_of_distinct {steps : List (Step μ)}
    (distinct : ((registrations steps).map Entry.code).Nodup) :
    ∃ taken, Holds taken (registrations steps) ∧
      build steps = .ok ⟨taken, steps.filterMap Step.provider?⟩ := by
  obtain ⟨taken, made, holds⟩ := register_of_distinct distinct
  refine ⟨taken, holds, ?_⟩
  rw [build_eq, made]
  rfl

theorem FirstClash.build {steps : List (Step μ)} {error : DispatchError}
    (clash : FirstClash (registrations steps) error) : build steps = .error error := by
  rw [build_eq, clash.register]
  rfl

theorem exists_holds_of_build {steps : List (Step μ)} {table : Table μ}
    (made : build steps = .ok table) :
    ∃ taken, Holds taken (registrations steps) ∧
      table = ⟨taken, steps.filterMap Step.provider?⟩ := by
  by_cases distinct : ((registrations steps).map Entry.code).Nodup
  · obtain ⟨taken, holds, same⟩ := build_of_distinct distinct
    exact ⟨taken, holds, Except.ok.inj (made.symm.trans same)⟩
  · obtain ⟨error, clash⟩ := exists_firstClash distinct
    cases made.symm.trans clash.build

theorem firstClash_of_build {steps : List (Step μ)} {error : DispatchError}
    (failed : build steps = .error error) : FirstClash (registrations steps) error := by
  by_cases distinct : ((registrations steps).map Entry.code).Nodup
  · obtain ⟨taken, -, made⟩ := build_of_distinct distinct
    cases failed.symm.trans made
  · obtain ⟨other, clash⟩ := exists_firstClash distinct
    exact Except.error.inj (failed.symm.trans clash.build) ▸ clash

/-- A table holds what its steps have registered. -/
structure Assembled (table : Table μ) (steps : List (Step μ)) : Prop where
  /-- Every entry stands under its code, with its states, its handler and the name of its
  provider. -/
  get?_of_mem : ∀ entry ∈ registrations steps, table.get? entry.code = some entry
  /-- A route reserved to the states of a list lets exactly those through, one without any states
  all of them. -/
  permits_iff : ∀ entry ∈ registrations steps, ∀ states, entry.allowed = .ofList states →
    ∀ state, entry.allowed.permits state = true ↔ states = [] ∨ state ∈ states
  get?_of_not_mem : ∀ code ∉ (registrations steps).map Entry.code, table.get? code = none
  codes_ascending : table.codes.Pairwise (· < ·)
  mem_codes : ∀ code, code ∈ table.codes ↔ code ∈ (registrations steps).map Entry.code
  size_eq : table.size = (registrations steps).length
  providers_eq : table.providers = steps.filterMap Step.provider?

theorem Holds.assembled {steps : List (Step μ)} (holds : Holds taken (registrations steps)) :
    Assembled ⟨taken, steps.filterMap Step.provider?⟩ steps := by
  have mem_codes (code : Code) :
      code ∈ taken.keys ↔ code ∈ (registrations steps).map Entry.code := by
    rw [OrderedMap.mem_keys_iff, ← not_iff_not, ← offer?_eq_none_iff, ← holds.get?_eq,
      Option.eq_none_iff_forall_ne_some, not_exists]
  constructor
  case get?_of_mem =>
    intro entry member
    exact (holds.get?_eq entry.code).trans (offer?_of_mem holds.distinct member)
  case permits_iff =>
    intro entry _ states reserved state
    simp [reserved, AllowedStates.permits_ofList]
  case get?_of_not_mem =>
    intro code missing
    exact (holds.get?_eq code).trans (offer?_eq_none_iff.mpr missing)
  case codes_ascending =>
    rw [codes, OrderedMap.keys, List.pairwise_map]
    exact taken.ascending.imp compareOfLessAndEq_eq_lt.mp
  case mem_codes => exact mem_codes
  case size_eq => exact holds.size_eq
  case providers_eq => rfl

/-- A table can be assembled if and only if the codes of all routes differ. It then holds exactly
these routes, and otherwise the first code that has occurred before is reported with the providers
of both its routes. -/
theorem build_exact (steps : List (Step μ)) :
    ((∃ table, build steps = .ok table) ↔ ((registrations steps).map Entry.code).Nodup) ∧
      (∀ table, build steps = .ok table → Assembled table steps) ∧
      ∀ error, build steps = .error error ↔ FirstClash (registrations steps) error := by
  refine ⟨⟨?_, ?_⟩, ?_, fun error => ⟨firstClash_of_build, FirstClash.build⟩⟩
  · rintro ⟨table, made⟩
    obtain ⟨taken, holds, -⟩ := exists_holds_of_build made
    exact holds.distinct
  · intro distinct
    obtain ⟨taken, -, made⟩ := build_of_distinct distinct
    exact ⟨_, made⟩
  · intro table made
    obtain ⟨taken, holds, rfl⟩ := exists_holds_of_build made
    exact holds.assembled

end Table

end SessionServer
