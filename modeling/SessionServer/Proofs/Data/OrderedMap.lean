import Mathlib.Data.Set.Card
import SessionServer.Data.OrderedMap

/-!
Contract: the keys of an ordered map as a set, counted and in any order.

Owns:
- `ncard_of_list` and `OrderedMap.ncard_keys`, the sizes of sets that a list or a map goes through;
- `OrderedSet.ofList_perm`, a set does not tell in which order its elements were added.
-/

namespace SessionServer

variable {κ ν : Type}

/-- A set that a list goes through once has as many elements as the list. -/
theorem ncard_of_list {α : Type} [DecidableEq α] {set : Set α} {list : List α}
    (nodup : list.Nodup) (members : ∀ element, element ∈ list ↔ element ∈ set) :
    set.ncard = list.length := by
  have same : set = (list.toFinset : Set α) := by
    ext element
    rw [Finset.mem_coe, List.mem_toFinset, members]
  rw [same, Set.ncard_coe_finset, List.toFinset_card_of_nodup nodup]

variable [Ord κ] [DecidableEq κ] [Std.TransOrd κ]

/-- The keys of a map are as many as its entries. -/
theorem OrderedMap.ncard_keys (map : OrderedMap κ ν) {set : Set κ}
    (members : ∀ key, key ∈ set ↔ ∃ value, map.get? key = some value) : set.ncard = map.size := by
  rw [ncard_of_list map.nodup_keys, OrderedMap.keys, List.length_map, OrderedMap.size]
  intro key
  rw [OrderedMap.mem_keys_iff, members]

theorem OrderedSet.ofList_perm [Std.LawfulEqOrd κ] {elements others : List κ}
    (same : elements.Perm others) :
    OrderedSet.ofList elements = OrderedSet.ofList others :=
  same.foldl_eq' (fun first _ second _ set => OrderedSet.add_comm set first second) _

end SessionServer
