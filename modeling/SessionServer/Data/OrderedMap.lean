/-!
Contract: finite maps whose entries are listed with their keys strictly ascending.

Owns:
- lookup, insertion and removal on plain entry lists (`Entries`), with look-up equations
  that need no assumption on the list;
- `OrderedMap`, an entry list together with the proof that its keys ascend, and `OrderedSet`.

Main statements: `get?_insert`, `get?_erase` and `get?_mapValues` say what each operation does to
every look-up, and `ext_get?` says that two maps with the same look-ups are the same map, so
nothing but the look-ups is ever observable.
-/

namespace SessionServer

variable {κ ν : Type}

/-! ## Entry lists -/

namespace Entries

def get? [DecidableEq κ] (key : κ) : List (κ × ν) → Option ν
  | [] => none
  | entry :: rest => if entry.1 = key then some entry.2 else get? key rest

/-- Puts an entry in front of the first larger key, replacing an entry with an equal key. -/
def insert [Ord κ] (key : κ) (value : ν) : List (κ × ν) → List (κ × ν)
  | [] => [(key, value)]
  | entry :: rest =>
      match compare key entry.1 with
      | .lt => (key, value) :: entry :: rest
      | .eq => (key, value) :: rest
      | .gt => entry :: insert key value rest

def erase [DecidableEq κ] (key : κ) (entries : List (κ × ν)) : List (κ × ν) :=
  entries.filter fun entry => entry.1 ≠ key

def Ascending [Ord κ] (entries : List (κ × ν)) : Prop :=
  entries.Pairwise fun left right => compare left.1 right.1 = .lt

theorem get?_insert [DecidableEq κ] [Ord κ] [Std.LawfulEqOrd κ]
    (key other : κ) (value : ν) (entries : List (κ × ν)) :
    get? other (insert key value entries) =
      if key = other then some value else get? other entries := by
  induction entries with
  | nil => simp [insert, get?]
  | cons entry rest inductionHypothesis =>
      simp only [insert]
      split
      · simp [get?]
      · next equal =>
          have same : key = entry.1 := Std.LawfulEqOrd.eq_of_compare equal
          by_cases hit : key = other <;> simp [get?, hit]
          intro clash
          exact absurd (same.trans clash) hit
      · next greater =>
          have differ : entry.1 ≠ key := by
            intro same
            rw [same, Std.ReflOrd.compare_self] at greater
            exact absurd greater (by decide)
          simp only [get?, inductionHypothesis]
          by_cases hit : entry.1 = other
          · have missed : key ≠ other := fun same => differ (hit.trans same.symm)
            simp [hit, missed]
          · simp [hit]

theorem get?_erase [DecidableEq κ] (key other : κ) (entries : List (κ × ν)) :
    get? other (erase key entries) = if key = other then none else get? other entries := by
  induction entries with
  | nil => simp [erase, get?]
  | cons entry rest inductionHypothesis =>
      unfold erase at inductionHypothesis ⊢
      by_cases dropped : entry.1 = key
      · simp only [List.filter_cons, dropped, ne_eq, not_true_eq_false, decide_false,
          Bool.false_eq_true, ↓reduceIte, inductionHypothesis, get?]
        by_cases hit : key = other <;> simp [hit]
      · simp only [List.filter_cons, dropped, ne_eq, not_false_eq_true, decide_true, ↓reduceIte,
          get?, inductionHypothesis]
        by_cases hit : entry.1 = other
        · have missed : key ≠ other := fun same => dropped (hit.trans same.symm)
          simp [hit, missed]
        · simp [hit]

theorem mem_of_get? [DecidableEq κ] {key : κ} {value : ν} {entries : List (κ × ν)}
    (found : get? key entries = some value) : (key, value) ∈ entries := by
  induction entries with
  | nil => simp [get?] at found
  | cons entry rest inductionHypothesis =>
      simp only [get?] at found
      split at found
      · next same =>
          simp only [Option.some.injEq] at found
          simp [← same, ← found]
      · exact List.mem_cons_of_mem _ (inductionHypothesis found)

theorem mem_insert [Ord κ] {key : κ} {value : ν} {entry : κ × ν} {entries : List (κ × ν)}
    (member : entry ∈ insert key value entries) : entry = (key, value) ∨ entry ∈ entries := by
  induction entries with
  | nil => simpa [insert] using member
  | cons head rest inductionHypothesis =>
      simp only [insert] at member
      split at member <;> simp only [List.mem_cons] at member ⊢
      · exact member
      · exact member.imp_right .inr
      · rcases member with same | later
        · exact .inr (.inl same)
        · exact (inductionHypothesis later).imp_right .inr

theorem ascending_insert [Ord κ] [Std.TransOrd κ] [Std.LawfulEqOrd κ] (key : κ) (value : ν)
    {entries : List (κ × ν)} (ascending : Ascending entries) :
    Ascending (insert key value entries) := by
  induction entries with
  | nil => simp [insert, Ascending]
  | cons head rest inductionHypothesis =>
      have parts := List.pairwise_cons.1 ascending
      simp only [insert]
      split
      · next less =>
          refine List.pairwise_cons.2 ⟨fun entry member => ?_, ascending⟩
          rcases List.mem_cons.1 member with same | later
          · exact same ▸ less
          · exact Std.TransCmp.lt_trans less (parts.1 entry later)
      · next equal =>
          have same : key = head.1 := Std.LawfulEqOrd.eq_of_compare equal
          exact List.pairwise_cons.2 ⟨fun entry member => same ▸ parts.1 entry member, parts.2⟩
      · next greater =>
          refine List.pairwise_cons.2 ⟨fun entry member => ?_, inductionHypothesis parts.2⟩
          rcases mem_insert member with same | later
          · exact same ▸ Std.OrientedCmp.gt_iff_lt.1 greater
          · exact parts.1 entry later

theorem ascending_erase [DecidableEq κ] [Ord κ] (key : κ) {entries : List (κ × ν)}
    (ascending : Ascending entries) : Ascending (erase key entries) :=
  List.Pairwise.filter _ ascending

theorem get?_eq_some_iff [DecidableEq κ] [Ord κ] [Std.TransOrd κ] {key : κ} {value : ν}
    {entries : List (κ × ν)} (ascending : Ascending entries) :
    get? key entries = some value ↔ (key, value) ∈ entries := by
  refine ⟨mem_of_get?, fun member => ?_⟩
  induction entries with
  | nil => simp at member
  | cons head rest inductionHypothesis =>
      have parts := List.pairwise_cons.1 ascending
      simp only [get?]
      rcases List.mem_cons.1 member with same | later
      · simp [← same]
      · have less := parts.1 _ later
        have differ : head.1 ≠ key := by
          intro same
          rw [same, Std.ReflOrd.compare_self] at less
          exact absurd less (by decide)
        simp [differ, inductionHypothesis parts.2 later]

private theorem head_le_of_mem [Ord κ] [Std.ReflOrd κ] {head entry : κ × ν}
    {rest : List (κ × ν)} (ascending : Ascending (head :: rest)) (member : entry ∈ head :: rest) :
    compare head.1 entry.1 ≠ .gt := by
  rcases List.mem_cons.1 member with same | later
  · simp [same, Std.ReflOrd.compare_self]
  · simp [(List.pairwise_cons.1 ascending).1 entry later]

/-- An insertion replaces the value of a known key and adds an entry for an unknown one. -/
theorem length_insert [DecidableEq κ] [Ord κ] [Std.TransOrd κ] [Std.LawfulEqOrd κ] (key : κ)
    (value : ν) {entries : List (κ × ν)} (ascending : Ascending entries) :
    (insert key value entries).length =
      if (get? key entries).isSome then entries.length else entries.length + 1 := by
  induction entries with
  | nil => rfl
  | cons head rest inductionHypothesis =>
      have parts := List.pairwise_cons.1 ascending
      simp only [insert]
      split
      · next less =>
          have missing : get? key (head :: rest) = none := by
            rw [Option.eq_none_iff_forall_ne_some]
            intro found listed
            have behind := head_le_of_mem ascending (mem_of_get? listed)
            exact behind (Std.OrientedCmp.gt_iff_lt.2 less)
          simp [missing]
      · next equal =>
          have same : key = head.1 := Std.LawfulEqOrd.eq_of_compare equal
          simp [get?, same]
      · next greater =>
          have differ : head.1 ≠ key := by
            intro same
            rw [same, Std.ReflOrd.compare_self] at greater
            exact absurd greater (by decide)
          simp only [List.length_cons, inductionHypothesis parts.2, get?, if_neg differ]
          split <;> rfl

/-- Ascending entry lists with the same members are equal. -/
theorem eq_of_mem_iff [Ord κ] [Std.TransOrd κ] [Std.LawfulEqOrd κ] {left right : List (κ × ν)}
    (leftAscending : Ascending left) (rightAscending : Ascending right)
    (same : ∀ entry, entry ∈ left ↔ entry ∈ right) : left = right := by
  induction left generalizing right with
  | nil =>
      cases right with
      | nil => rfl
      | cons head rest => exact absurd ((same head).2 (by simp)) (by simp)
  | cons head rest inductionHypothesis =>
      cases right with
      | nil => exact absurd ((same head).1 (by simp)) (by simp)
      | cons otherHead otherRest =>
          have leftParts := List.pairwise_cons.1 leftAscending
          have rightParts := List.pairwise_cons.1 rightAscending
          have headKeys : head.1 = otherHead.1 := by
            have forward := head_le_of_mem leftAscending ((same otherHead).2 (by simp))
            have backward := head_le_of_mem rightAscending ((same head).1 (by simp))
            cases order : compare head.1 otherHead.1 with
            | eq => exact Std.LawfulEqOrd.eq_of_compare order
            | gt => exact absurd order forward
            | lt => exact absurd (Std.OrientedCmp.gt_iff_lt.2 order) backward
          have headSame : head = otherHead := by
            rcases List.mem_cons.1 ((same head).1 (by simp)) with equal | later
            · exact equal
            · have less := rightParts.1 head later
              rw [headKeys, Std.ReflOrd.compare_self] at less
              exact absurd less (by decide)
          subst headSame
          congr 1
          refine inductionHypothesis leftParts.2 rightParts.2 fun entry => ?_
          have apart : ∀ {tail : List (κ × ν)}, Ascending (head :: tail) → entry ∈ tail →
              entry ≠ head := by
            intro tail ascending member equal
            have less := (List.pairwise_cons.1 ascending).1 entry member
            rw [equal, Std.ReflOrd.compare_self] at less
            exact absurd less (by decide)
          constructor
          · intro member
            rcases List.mem_cons.1 ((same entry).1 (List.mem_cons_of_mem _ member)) with
              equal | later
            · exact absurd equal (apart leftAscending member)
            · exact later
          · intro member
            rcases List.mem_cons.1 ((same entry).2 (List.mem_cons_of_mem _ member)) with
              equal | later
            · exact absurd equal (apart rightAscending member)
            · exact later

end Entries

/-! ## Ordered maps -/

/-- A finite map, kept as its entries in ascending key order. -/
structure OrderedMap (κ ν : Type) [Ord κ] where
  entries : List (κ × ν) := []
  ascending : Entries.Ascending entries := by exact List.Pairwise.nil

namespace OrderedMap

def empty [Ord κ] : OrderedMap κ ν := {}

instance [Ord κ] : Inhabited (OrderedMap κ ν) := ⟨empty⟩

theorem ext_entries [Ord κ] {left right : OrderedMap κ ν} (same : left.entries = right.entries) :
    left = right := by
  cases left
  cases right
  congr

instance [Ord κ] [DecidableEq κ] [DecidableEq ν] : DecidableEq (OrderedMap κ ν) :=
  fun left right =>
    if same : left.entries = right.entries then .isTrue (ext_entries same)
    else .isFalse fun equal => same (equal ▸ rfl)

def toList [Ord κ] (map : OrderedMap κ ν) : List (κ × ν) := map.entries

def keys [Ord κ] (map : OrderedMap κ ν) : List κ := map.entries.map Prod.fst

def size [Ord κ] (map : OrderedMap κ ν) : Nat := map.entries.length

def isEmpty [Ord κ] (map : OrderedMap κ ν) : Bool := map.entries.isEmpty

section Lookup

variable [DecidableEq κ] [Ord κ]

def get? (map : OrderedMap κ ν) (key : κ) : Option ν := Entries.get? key map.entries

def contains (map : OrderedMap κ ν) (key : κ) : Bool := (map.get? key).isSome

/-- Removes a key; nothing happens when it is absent. -/
def erase (map : OrderedMap κ ν) (key : κ) : OrderedMap κ ν where
  entries := Entries.erase key map.entries
  ascending := Entries.ascending_erase key map.ascending

/-- Applies a change to every value, keeping the keys. -/
def mapValues (map : OrderedMap κ ν) (change : κ → ν → ν) : OrderedMap κ ν where
  entries := map.entries.map fun entry => (entry.1, change entry.1 entry.2)
  ascending := by
    have ascending := map.ascending
    unfold Entries.Ascending at ascending ⊢
    rw [List.pairwise_map]
    exact ascending

@[simp] theorem get?_empty (key : κ) : (empty : OrderedMap κ ν).get? key = none := rfl

theorem get?_erase (map : OrderedMap κ ν) (key other : κ) :
    (map.erase key).get? other = if key = other then none else map.get? other :=
  Entries.get?_erase key other map.entries

@[simp] theorem get?_erase_self (map : OrderedMap κ ν) (key : κ) :
    (map.erase key).get? key = none := by
  simp [get?_erase]

theorem get?_mapValues (map : OrderedMap κ ν) (change : κ → ν → ν) (key : κ) :
    (map.mapValues change).get? key = (map.get? key).map (change key) := by
  unfold mapValues get?
  dsimp only
  induction map.entries with
  | nil => rfl
  | cons entry rest inductionHypothesis =>
      simp only [List.map_cons, Entries.get?]
      split
      · next same => simp [same]
      · exact inductionHypothesis

theorem contains_mapValues (map : OrderedMap κ ν) (change : κ → ν → ν) (key : κ) :
    (map.mapValues change).contains key = map.contains key := by
  rw [contains, get?_mapValues, Option.isSome_map]
  rfl

theorem size_erase_le (map : OrderedMap κ ν) (key : κ) : (map.erase key).size ≤ map.size :=
  List.length_filter_le _ _

omit [DecidableEq κ] in
theorem size_mapValues (map : OrderedMap κ ν) (change : κ → ν → ν) :
    (map.mapValues change).size = map.size :=
  List.length_map _

theorem contains_iff (map : OrderedMap κ ν) (key : κ) :
    map.contains key = true ↔ ∃ value, map.get? key = some value := by
  simp [contains, Option.isSome_iff_exists]

variable [Std.TransOrd κ]

theorem get?_eq_some_iff (map : OrderedMap κ ν) {key : κ} {value : ν} :
    map.get? key = some value ↔ (key, value) ∈ map.entries :=
  Entries.get?_eq_some_iff map.ascending

theorem mem_keys_iff (map : OrderedMap κ ν) (key : κ) :
    key ∈ map.keys ↔ ∃ value, map.get? key = some value := by
  simp [keys, get?_eq_some_iff]

omit [DecidableEq κ] in
theorem nodup_keys (map : OrderedMap κ ν) : map.keys.Nodup := by
  unfold keys List.Nodup
  rw [List.pairwise_map]
  refine map.ascending.imp ?_
  intro left right less same
  rw [same, Std.ReflOrd.compare_self] at less
  cases less

variable [Std.LawfulEqOrd κ]

/-- Stores a value under a key, replacing the value stored there before. -/
def insert (map : OrderedMap κ ν) (key : κ) (value : ν) : OrderedMap κ ν where
  entries := Entries.insert key value map.entries
  ascending := Entries.ascending_insert key value map.ascending

/-- The map of a list of entries; of two entries with one key the later one stays. -/
def ofList (entries : List (κ × ν)) : OrderedMap κ ν :=
  entries.foldl (fun map entry => map.insert entry.1 entry.2) empty

theorem get?_insert (map : OrderedMap κ ν) (key other : κ) (value : ν) :
    (map.insert key value).get? other = if key = other then some value else map.get? other :=
  Entries.get?_insert key other value map.entries

@[simp] theorem get?_insert_self (map : OrderedMap κ ν) (key : κ) (value : ν) :
    (map.insert key value).get? key = some value := by
  simp [get?_insert]

theorem get?_insert_ne (map : OrderedMap κ ν) {key other : κ} (differ : key ≠ other) (value : ν) :
    (map.insert key value).get? other = map.get? other := by
  simp [get?_insert, differ]

theorem size_insert (map : OrderedMap κ ν) (key : κ) (value : ν) :
    (map.insert key value).size = if map.contains key then map.size else map.size + 1 :=
  Entries.length_insert key value map.ascending

/-- Two maps with the same look-ups are the same map. -/
theorem ext_get? {left right : OrderedMap κ ν} (same : ∀ key, left.get? key = right.get? key) :
    left = right :=
  ext_entries <| Entries.eq_of_mem_iff left.ascending right.ascending fun entry => by
    obtain ⟨key, value⟩ := entry
    rw [← left.get?_eq_some_iff, same key, right.get?_eq_some_iff]

/-- To remove a key that is absent changes nothing. -/
theorem erase_of_missing {map : OrderedMap κ ν} {key : κ} (missing : map.get? key = none) :
    map.erase key = map := by
  apply ext_get?
  intro other
  rw [get?_erase]
  split
  · next same => rw [← same, missing]
  · rfl

/-- To remove a key that was absent before undoes its insertion. -/
theorem erase_insert_of_missing {map : OrderedMap κ ν} {key : κ} (missing : map.get? key = none)
    (value : ν) : (map.insert key value).erase key = map := by
  apply ext_get?
  intro other
  rw [get?_erase, get?_insert]
  split
  · next same => rw [← same, missing]
  · rfl

/-- To store what is already there changes nothing. -/
theorem insert_of_get? {map : OrderedMap κ ν} {key : κ} {value : ν}
    (present : map.get? key = some value) : map.insert key value = map := by
  apply ext_get?
  intro other
  rw [get?_insert]
  split
  · next same => rw [← same, present]
  · rfl

@[simp] theorem insert_insert (map : OrderedMap κ ν) (key : κ) (first second : ν) :
    (map.insert key first).insert key second = map.insert key second := by
  apply ext_get?
  intro other
  simp only [get?_insert]
  split <;> rfl

theorem insert_comm (map : OrderedMap κ ν) {key other : κ} (differ : key ≠ other)
    (first second : ν) :
    (map.insert key first).insert other second = (map.insert other second).insert key first := by
  apply ext_get?
  intro third
  simp only [get?_insert]
  by_cases same : other = third
  · rw [if_pos same, if_pos same, if_neg fun equal => differ (equal.trans same.symm)]
  · rw [if_neg same, if_neg same]

end Lookup

end OrderedMap

/-! ## Ordered sets -/

/-- A finite set, kept as its elements in ascending order. -/
abbrev OrderedSet (κ : Type) [Ord κ] := OrderedMap κ Unit

namespace OrderedSet

section

variable [Ord κ] [DecidableEq κ] [Std.TransOrd κ] [Std.LawfulEqOrd κ]

def add (set : OrderedSet κ) (element : κ) : OrderedSet κ := OrderedMap.insert set element ()

def addAll (set : OrderedSet κ) (elements : List κ) : OrderedSet κ := elements.foldl add set

def ofList (elements : List κ) : OrderedSet κ := addAll OrderedMap.empty elements

theorem contains_add (set : OrderedSet κ) (element other : κ) :
    (add set element).contains other = (decide (element = other) || set.contains other) := by
  by_cases same : element = other <;> simp [add, OrderedMap.contains, OrderedMap.get?_insert, same]

theorem add_comm (set : OrderedSet κ) (first second : κ) :
    add (add set first) second = add (add set second) first := by
  by_cases same : first = second
  · rw [same]
  · exact OrderedMap.insert_comm set same () ()

theorem contains_addAll (set : OrderedSet κ) (elements : List κ) (other : κ) :
    (addAll set elements).contains other = (elements.contains other || set.contains other) := by
  unfold addAll
  induction elements generalizing set with
  | nil => simp
  | cons head rest inductionHypothesis =>
      rw [List.foldl_cons, inductionHypothesis, contains_add, List.contains_cons]
      by_cases same : head = other
      · simp [same]
      · have apart : (other == head) = false := by simp [Ne.symm same]
        simp [same, apart]

theorem contains_ofList (elements : List κ) (other : κ) :
    (ofList elements).contains other = elements.contains other := by
  rw [ofList, contains_addAll]
  simp [OrderedMap.contains]

end

end OrderedSet

end SessionServer
