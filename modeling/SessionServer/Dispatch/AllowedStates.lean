import SessionServer.Data.OrderedMap
import SessionServer.Protocol

/-!
Contract: which session states may reach a route.

Owns: `AllowedStates`, built from any list of states in any order; the empty list stands for no
restriction at all.
-/

namespace SessionServer

/-- The session states that may reach a route. -/
inductive AllowedStates where
  | any
  | only (states : OrderedSet State)
deriving DecidableEq

namespace AllowedStates

/-- The restriction to the states of a list; no state listed means no restriction. -/
def ofList (states : List State) : AllowedStates :=
  if states.isEmpty then .any else .only (OrderedSet.ofList states)

/-- Whether a session in the given state may pass. -/
def permits (allowed : AllowedStates) (state : State) : Bool :=
  match allowed with
  | .any => true
  | .only states => states.contains state

theorem permits_ofList (states : List State) (state : State) :
    (ofList states).permits state = (states.isEmpty || states.contains state) := by
  unfold ofList
  by_cases nothing : states.isEmpty = true
  · simp [nothing, permits]
  · simp [nothing, permits, OrderedSet.contains_ofList]

end AllowedStates

end SessionServer
