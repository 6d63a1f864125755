import SessionServer.Json.Printer

/-!
Contract: the characters of a printed number, and where in a text it ends.

Owns:
- `isNumeric`, the characters of which every printed number consists;
- the proof that nothing else stands in an integer or in a binary64 value;
- the consequence that two texts which begin with numbers ended by another character agree on the
  number.
-/

namespace SessionServer

namespace Json

/-- The characters of numbers. -/
def isNumeric (c : Char) : Bool := c.isDigit || c = '-' || c = '.' || c = 'e' || c = '+'

theorem isNumeric_of_isDigit {c : Char} (digit : c.isDigit = true) : isNumeric c = true := by
  simp only [isNumeric, digit, Bool.true_or]

theorem isNumeric_of_mem_toDigits {value : Nat} {c : Char} (member : c ∈ Nat.toDigits 10 value) :
    isNumeric c = true :=
  isNumeric_of_isDigit (Nat.isDigit_of_mem_toDigits (by decide) (by decide) member)

/-! ## Integers -/

theorem isNumeric_of_mem_integerChars {value : Int} {c : Char}
    (member : c ∈ integerChars value) : isNumeric c = true := by
  unfold integerChars at member
  split at member
  · rcases List.mem_cons.mp member with rfl | digit
    · rfl
    · exact isNumeric_of_mem_toDigits digit
  · exact isNumeric_of_mem_toDigits member

theorem integerChars_ne_nil (value : Int) : integerChars value ≠ [] := by
  unfold integerChars
  split
  · exact List.cons_ne_nil _ _
  · exact Nat.toDigits_ne_nil

theorem toDigits_injective {left right : Nat}
    (same : Nat.toDigits 10 left = Nat.toDigits 10 right) : left = right := by
  rw [← Nat.ofDigitChars_ten_toDigits (n := left), same, Nat.ofDigitChars_ten_toDigits]

private theorem toDigits_ne_minus (value : Nat) (rest : List Char) :
    Nat.toDigits 10 value ≠ '-' :: rest := by
  intro same
  have digit : ('-').isDigit = true :=
    Nat.isDigit_of_mem_toDigits (b := 10) (n := value) (by decide) (by decide)
      (same ▸ List.mem_cons_self)
  exact absurd digit (by decide)

theorem integerChars_injective {left right : Int}
    (same : integerChars left = integerChars right) : left = right := by
  unfold integerChars at same
  split at same <;> split at same
  · have sizes := toDigits_injective (List.cons.inj same).2
    omega
  · exact absurd same.symm (toDigits_ne_minus _ _)
  · exact absurd same (toDigits_ne_minus _ _)
  · have sizes := toDigits_injective same
    omega

end Json

/-! ## Binary64 values -/

namespace Binary64

open Json (isNumeric isNumeric_of_mem_toDigits)

/-- Whether a text consists of characters of numbers. -/
private def Numeric (text : List Char) : Prop := ∀ c ∈ text, isNumeric c = true

private theorem numeric_nil : Numeric [] := fun _ member => (by cases member)

private theorem numeric_cons {c : Char} {text : List Char} (first : isNumeric c = true)
    (rest : Numeric text) : Numeric (c :: text) := by
  intro other member
  rcases List.mem_cons.mp member with rfl | later
  · exact first
  · exact rest other later

private theorem numeric_append {left right : List Char} (first : Numeric left)
    (second : Numeric right) : Numeric (left ++ right) := by
  intro c member
  rcases List.mem_append.mp member with early | late
  · exact first c early
  · exact second c late

private theorem Numeric.sublist {part text : List Char} (numeric : Numeric text)
    (sublist : part.Sublist text) : Numeric part :=
  fun c member => numeric c (sublist.subset member)

private theorem numeric_zeros (count : Nat) : Numeric (List.replicate count '0') := by
  intro c member
  rw [List.eq_of_mem_replicate member]
  rfl

private theorem numeric_toDigits (value : Nat) : Numeric (Nat.toDigits 10 value) :=
  fun _ member => isNumeric_of_mem_toDigits member

private theorem numeric_trimZeros {digits : List Char} (numeric : Numeric digits) :
    Numeric (trimZeros digits) := by
  have kept : ((digits.reverse.dropWhile (· = '0')).reverse).Sublist digits := by
    have dropped := List.dropWhile_sublist (l := digits.reverse) (· = '0')
    have reversed := dropped.reverse
    rwa [List.reverse_reverse] at reversed
  unfold trimZeros
  split
  · exact numeric_cons rfl numeric_nil
  · exact numeric.sublist kept

private theorem numeric_plainChars {digits : List Char} (numeric : Numeric digits) (whole : Nat) :
    Numeric (plainChars digits whole) := by
  have padded := numeric_append numeric (numeric_zeros (whole - digits.length))
  unfold plainChars
  apply numeric_append (padded.sublist (List.take_sublist _ _))
  apply numeric_cons rfl
  split
  · exact numeric_cons rfl numeric_nil
  · exact padded.sublist (List.drop_sublist _ _)

private theorem numeric_scientificChars {digits : List Char} (numeric : Numeric digits)
    (exponent : Int) : Numeric (scientificChars digits exponent) := by
  unfold scientificChars
  dsimp only
  apply numeric_append
  · split
    · exact numeric_nil
    · exact numeric
    · next first rest _ =>
        apply numeric_cons (numeric first List.mem_cons_self)
        exact numeric_cons rfl (numeric.sublist (List.sublist_cons_self first rest))
  · apply numeric_cons rfl
    apply numeric_cons
    · split <;> rfl
    · exact numeric_toDigits _

private theorem numeric_decimalChars (point : Nat) (exponent : Int) :
    Numeric (decimalChars point exponent) := by
  have digits := numeric_trimZeros (numeric_toDigits point)
  unfold decimalChars
  dsimp only
  split
  · exact numeric_scientificChars digits _
  · split
    · apply numeric_append _ digits
      exact numeric_cons rfl (numeric_cons rfl (numeric_zeros _))
    · exact numeric_plainChars digits _

theorem isNumeric_of_mem_toChars {value : Binary64} {c : Char} (member : c ∈ value.toChars) :
    isNumeric c = true := by
  have body : Numeric (if value.significand = 0 then ['0', '.', '0']
      else decimalChars value.shortest.1 value.shortest.2) := by
    split
    · exact numeric_cons rfl (numeric_cons rfl (numeric_cons rfl numeric_nil))
    · exact numeric_decimalChars _ _
  unfold toChars at member
  dsimp only at member
  split at member
  · exact numeric_cons rfl body c member
  · exact body c member

end Binary64

/-! ## Where a number ends -/

namespace Json

/-- The numbers at the front of two equal texts are the same if both are ended by another
character. -/
theorem numeric_append_inj {left right leftRest rightRest : List Char} {leftEnd rightEnd : Char}
    (leftNumeric : ∀ c ∈ left, isNumeric c = true) (leftEnds : isNumeric leftEnd = false)
    (rightNumeric : ∀ c ∈ right, isNumeric c = true) (rightEnds : isNumeric rightEnd = false)
    (same : left ++ leftEnd :: leftRest = right ++ rightEnd :: rightRest) :
    left = right ∧ leftEnd :: leftRest = rightEnd :: rightRest := by
  have leftSpan : (left ++ leftEnd :: leftRest).takeWhile isNumeric = left := by
    rw [List.takeWhile_append_of_pos leftNumeric,
      List.takeWhile_cons_of_neg (Bool.eq_false_iff.mp leftEnds), List.append_nil]
  have rightSpan : (right ++ rightEnd :: rightRest).takeWhile isNumeric = right := by
    rw [List.takeWhile_append_of_pos rightNumeric,
      List.takeWhile_cons_of_neg (Bool.eq_false_iff.mp rightEnds), List.append_nil]
  have numbers : left = right := by rw [← leftSpan, same, rightSpan]
  rw [numbers] at same
  exact ⟨numbers, List.append_cancel_left same⟩

end Json

end SessionServer
