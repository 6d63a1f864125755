/-!
Contract: the names of live connections.

Owns: `ConnectionId`, its order and its text.
-/

namespace SessionServer

/-- The number under which an open connection is known; numbers are given out once. -/
structure ConnectionId where
  number : Nat
deriving DecidableEq, Repr, Inhabited

namespace ConnectionId

instance : Ord ConnectionId := ⟨fun left right => compare left.number right.number⟩

theorem compare_eq (left right : ConnectionId) :
    compare left right = compare left.number right.number := rfl

instance : Std.TransOrd ConnectionId where
  eq_swap {left right} := by
    simp only [compare_eq]
    exact Std.OrientedOrd.eq_swap
  isLE_trans {left middle right} := by
    simp only [compare_eq]
    exact Std.TransOrd.isLE_trans

instance : Std.LawfulEqOrd ConnectionId where
  compare_self {connection} := by
    simp only [compare_eq]
    exact Std.ReflOrd.compare_self
  eq_of_compare {left right} equal := by
    have same : left.number = right.number := Std.LawfulEqOrd.eq_of_compare equal
    cases left
    cases right
    exact congrArg ConnectionId.mk same

/-- The text by which messages name a connection. -/
def name (connection : ConnectionId) : String := "conn#" ++ toString connection.number

end ConnectionId

end SessionServer
