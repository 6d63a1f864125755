import SessionServer.Proofs.Json.Numbers
import SessionServer.Store.File

/-!
Contract: the names of entity files show their keys, and the highest key is found again.

Owns:
- `integer?_integerChars`, printed integers read back;
- `ofFileName?_fileName`, every key is shown by the name of its file, so no two keys share a file;
- `IsTop`, the highest of a set of keys, and how it behaves under a new key and under `next`.
-/

namespace SessionServer

/-! ## Numerals -/

namespace Decimal

theorem digits?_toDigits (size : Nat) : digits? (Nat.toDigits 10 size) = some size := by
  have occupied : (Nat.toDigits 10 size).isEmpty = false :=
    List.isEmpty_eq_false_iff.mpr Nat.toDigits_ne_nil
  have digits : (Nat.toDigits 10 size).all Char.isDigit = true :=
    List.all_eq_true.mpr fun _ member =>
      Nat.isDigit_of_mem_toDigits (by decide) (by decide) member
  simp only [digits?, occupied, digits, Bool.not_true, Bool.or_self, Bool.false_eq_true, ↓reduceIte,
    Nat.ofDigitChars_ten_toDigits]

theorem integer?_integerChars (value : Int) :
    integer? (Json.integerChars value) = some value := by
  unfold Json.integerChars
  split
  · next negative =>
      have size : -(value.natAbs : Int) = value := by omega
      rw [integer?, digits?_toDigits]
      exact congrArg some size
  · next natural =>
      obtain ⟨first, rest, split⟩ := List.exists_cons_of_ne_nil
        (Nat.toDigits_ne_nil : Nat.toDigits 10 value.natAbs ≠ [])
      have digit : first.isDigit = true :=
        Nat.isDigit_of_mem_toDigits (b := 10) (by decide) (by decide)
          (split ▸ List.mem_cons_self : first ∈ Nat.toDigits 10 value.natAbs)
      have read := digits?_toDigits value.natAbs
      rw [split] at read ⊢
      have plus : first ≠ '+' := by
        rintro rfl
        cases digit
      have minus : first ≠ '-' := by
        rintro rfl
        cases digit
      have whole : natural? (first :: rest) = some value.natAbs := by
        unfold natural?
        split
        · next same => exact absurd (List.cons.inj same).1 plus
        · exact read
      unfold integer?
      split
      · next same => exact absurd (List.cons.inj same).1 minus
      · rw [whole, Option.map_some]
        congr 1
        exact Int.natAbs_of_nonneg (Int.not_lt.mp natural)

end Decimal

namespace EntityKey

/-! ## Names -/

theorem splitEnding_append {stem ending : List Char} (occupied : stem ≠ []) (plain : '.' ∉ ending)
    (short : ending ≠ []) : splitEnding (stem ++ '.' :: ending) = (stem, some ending) := by
  have before : ∀ c ∈ ending.reverse, decide (c ≠ '.') = true := by
    intro c member
    exact decide_eq_true fun point => plain (point ▸ List.mem_reverse.mp member)
  have reversed : (stem ++ '.' :: ending).reverse = ending.reverse ++ '.' :: stem.reverse := by
    simp
  have taken : (stem ++ '.' :: ending).reverse.takeWhile (· ≠ '.') = ending.reverse := by
    rw [reversed, List.takeWhile_append_of_pos before, List.takeWhile_cons_of_neg (by decide),
      List.append_nil]
  have dropped : (stem ++ '.' :: ending).reverse.dropWhile (· ≠ '.') = '.' :: stem.reverse := by
    rw [reversed, List.dropWhile_append_of_pos before, List.dropWhile_cons_of_neg (by decide)]
  have behind : stem.reverse.isEmpty = false := by
    rw [List.isEmpty_eq_false_iff]
    simpa using occupied
  have apart : stem ++ '.' :: ending ≠ ['.', '.'] := by
    intro same
    have lengths := congrArg List.length same
    obtain ⟨_, _, rfl⟩ := List.exists_cons_of_ne_nil occupied
    obtain ⟨_, _, rfl⟩ := List.exists_cons_of_ne_nil short
    simp at lengths
    omega
  unfold splitEnding
  simp only [taken, dropped, behind, apart, decide_false, Bool.or_self, Bool.false_eq_true,
    ↓reduceIte, List.reverse_reverse]

theorem parse?_integerChars (key : EntityKey) :
    parse? (Json.integerChars key.toInt) = some key := by
  have fits : -0x8000000000000000 ≤ key.toInt ∧ key.toInt < 0x8000000000000000 :=
    ⟨key.le_toInt, key.toInt_lt⟩
  rw [parse?, Decimal.integer?_integerChars, Option.bind_some, if_pos fits, Int64.ofInt_toInt]

/-- The name of a file shows the key that it was made of. -/
@[simp] theorem ofFileName?_fileName (key : EntityKey) : ofFileName? key.fileName = some key := by
  have name : key.fileName.toList =
      Json.integerChars key.toInt ++ '.' :: fileEnding.toList := by
    simp [fileName, fileEnding, String.toList_append]
  rw [ofFileName?, name, splitEnding_append (Json.integerChars_ne_nil _) (by decide) (by decide)]
  dsimp only
  rw [if_pos rfl, parse?_integerChars]

theorem fileName_injective {left right : EntityKey} (same : left.fileName = right.fileName) :
    left = right := by
  have shown := ofFileName?_fileName left
  rw [same, ofFileName?_fileName] at shown
  exact (Option.some.inj shown).symm

/-! ## The highest key -/

/-- The highest of the shown keys, or zero if that is higher. -/
structure IsTop (shown : EntityKey → Prop) (top : EntityKey) : Prop where
  zero_le : 0 ≤ top
  le : ∀ {key : EntityKey}, shown key → key ≤ top
  reached : top = 0 ∨ shown top

theorem toInt_max (left right : EntityKey) :
    (max left right).toInt = max left.toInt right.toInt := by
  show (if left ≤ right then right else left).toInt = _
  split
  · next below =>
      rw [Int64.le_iff_toInt_le] at below
      omega
  · next above =>
      rw [Int64.le_iff_toInt_le] at above
      omega

theorem IsTop.unique {shown : EntityKey → Prop} {first second : EntityKey}
    (firstTop : IsTop shown first) (secondTop : IsTop shown second) : first = second := by
  have bounded : ∀ {left right : EntityKey}, IsTop shown left → IsTop shown right →
      left ≤ right := by
    intro left right leftTop rightTop
    rcases leftTop.reached with rfl | present
    · exact rightTop.zero_le
    · exact rightTop.le present
  exact Int64.le_antisymm (bounded firstTop secondTop) (bounded secondTop firstTop)

/-- One more key pushes the top up to itself. -/
theorem IsTop.insert {shown : EntityKey → Prop} {top : EntityKey} (isTop : IsTop shown top)
    (key : EntityKey) : IsTop (fun other => other = key ∨ shown other) (max top key) := by
  have size := toInt_max top key
  constructor
  · have low := isTop.zero_le
    rw [Int64.le_iff_toInt_le] at low ⊢
    omega
  · rintro other (rfl | present)
    · rw [Int64.le_iff_toInt_le]
      omega
    · have below := isTop.le present
      rw [Int64.le_iff_toInt_le] at below ⊢
      omega
  · by_cases order : top ≤ key
    · exact .inr (.inl (if_pos order))
    · have kept : max top key = top := if_neg order
      rw [kept]
      exact isTop.reached.imp_right .inr

theorem isTop_foldl_max (keys : List EntityKey) {shown : EntityKey → Prop} {top : EntityKey}
    (isTop : IsTop shown top) :
    IsTop (fun key => key ∈ keys ∨ shown key) (keys.foldl max top) := by
  induction keys generalizing shown top with
  | nil => simpa using isTop
  | cons first rest inductionHypothesis =>
      have regrouped : (fun key => key ∈ first :: rest ∨ shown key) =
          fun key => key ∈ rest ∨ key = first ∨ shown key := by
        funext key
        simp only [List.mem_cons, or_assoc, or_left_comm]
      rw [regrouped]
      exact inductionHypothesis (isTop.insert first)

end EntityKey

/-- The highest key is the top of the keys that the names show. -/
theorem FileStore.isTop_highestKey (names : List String) :
    EntityKey.IsTop (fun key => ∃ name ∈ names, EntityKey.ofFileName? name = some key)
      (highestKey names) := by
  have nothing : EntityKey.IsTop (fun _ => False) 0 := ⟨Int64.le_refl 0, nofun, .inl rfl⟩
  have top := EntityKey.isTop_foldl_max (names.filterMap EntityKey.ofFileName?) nothing
  simp only [List.mem_filterMap, or_false] at top
  exact top

namespace EntityKey

theorem toInt_next (key : EntityKey) :
    key.next.toInt = min (key.toInt + 1) Int64.maxValue.toInt := by
  have bound : key.toInt ≤ Int64.maxValue.toInt := Int64.le_iff_toInt_le.mp (Int64.le_maxValue key)
  unfold next
  split
  · next same =>
      rw [same]
      omega
  · next apart =>
      have below : key.toInt ≠ Int64.maxValue.toInt := fun same => apart (Int64.toInt_inj.mp same)
      have least := key.le_toInt
      have greatest : Int64.maxValue.toInt = 2 ^ 63 - 1 := rfl
      have one : (1 : Int64).toInt = 1 := rfl
      rw [Int64.toInt_add, one, Int.bmod_eq_of_le (by omega) (by omega)]
      omega

/-- The key behind the higher of two keys is the higher of the keys behind them. -/
theorem next_max (left right : EntityKey) : (max left right).next = max left.next right.next := by
  apply Int64.toInt_inj.mp
  rw [toInt_next, toInt_max, toInt_max, toInt_next, toInt_next]
  omega

end EntityKey

end SessionServer
