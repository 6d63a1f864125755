import SessionServer.Json.Printer
import SessionServer.Json.Reader

/-!
Contract: a printed string reads back, whatever follows it.

Owns:
- `readChar_escape`, one character under its escape;
- `readString_quoted`, a whole string between its quotes;
- the consequence that a text begins with at most one printed string.
-/

namespace SessionServer.Json

/-! ## Hexadecimal escapes -/

theorem value?_digit {value : Nat} (small : value < 16) :
    Hexadecimal.value? (Hexadecimal.digit value) = some value := by
  have table : ∀ value < 16, Hexadecimal.value? (Hexadecimal.digit value) = some value := by
    decide
  exact table value small

/-- The escape of a control character, its `\u` already taken. -/
theorem readCodePoint_control {c : Char} (control : c.toNat < 0x20) (rest : List Char) :
    readCodePoint ('0' :: '0' :: Hexadecimal.digit (c.toNat / 16) ::
      Hexadecimal.digit (c.toNat % 16) :: rest) = some (c, rest) := by
  have high : Hexadecimal.value? (Hexadecimal.digit (c.toNat / 16)) = some (c.toNat / 16) :=
    value?_digit (by omega)
  have low : Hexadecimal.value? (Hexadecimal.digit (c.toNat % 16)) = some (c.toNat % 16) :=
    value?_digit (by omega)
  have zero : Hexadecimal.value? '0' = some 0 := by decide
  have unit : ((0 * 16 + 0) * 16 + c.toNat / 16) * 16 + c.toNat % 16 = c.toNat := by omega
  have outside : c.toNat < 0xD800 ∨ 0xE000 ≤ c.toNat := .inl (by omega)
  simp only [readCodePoint, readUnit, zero, high, low, Option.bind_eq_bind, Option.bind_some, unit,
    if_pos outside, Char.ofNat_toNat]

/-! ## Characters -/

theorem readChar_escape (c : Char) (rest : List Char) :
    readChar (escape c ++ rest) = some (c, rest) := by
  unfold escape
  -- The letters of the short escapes first, one test after the other.
  iterate 7
    split
    · next letter =>
        rw [letter]
        rfl
  split
  · next control => exact readCodePoint_control control rest
  · next notQuote notBackslash _ _ _ _ _ printable =>
      have plain : ¬(c = '"' ∨ c = '\\' ∨ c.toNat < 0x20) := by
        rintro (quote | backslash | control)
        · exact notQuote quote
        · exact notBackslash backslash
        · exact printable control
      show readChar (c :: rest) = some (c, rest)
      unfold readChar
      split
      · next absurdity => cases absurdity
      · next start => exact absurd (List.cons.inj start).1 notBackslash
      · next start => exact absurd (List.cons.inj start).1 notBackslash
      · next start =>
          cases start
          exact if_neg plain

theorem readChars_of_readChar {text rest : List Char} {c : Char}
    (first : readChar text = some (c, rest)) (bound : Nat) :
    readChars (bound + 1) text =
      (readChars bound rest).map fun result => (c :: result.1, result.2) := by
  have apart : ∀ later, text = '"' :: later → False := by
    intro later quote
    rw [quote] at first
    cases first
  rw [readChars, first]
  · simp only [Option.bind_eq_bind, Option.bind_some]
    cases readChars bound rest <;> rfl
  · exact apart

theorem readChars_flatMap_escape {bound : Nat} (characters rest : List Char)
    (enough : characters.length ≤ bound) :
    readChars bound (characters.flatMap escape ++ '"' :: rest) = some (characters, rest) := by
  induction characters generalizing bound with
  | nil =>
      unfold readChars
      rfl
  | cons c later inductionHypothesis =>
      obtain ⟨smaller, rfl⟩ : ∃ smaller, bound = smaller + 1 :=
        Nat.exists_eq_succ_of_ne_zero (by rw [List.length_cons] at enough; omega)
      rw [List.flatMap_cons, List.append_assoc,
        readChars_of_readChar (readChar_escape c _) smaller,
        inductionHypothesis (Nat.le_of_succ_le_succ enough)]
      rfl

theorem length_le_length_flatMap_escape (characters : List Char) :
    characters.length ≤ (characters.flatMap escape).length := by
  induction characters with
  | nil => exact Nat.le_refl _
  | cons c later inductionHypothesis =>
      have occupied : 1 ≤ (escape c).length := by
        unfold escape
        repeat' split
        all_goals simp only [List.length_cons, List.length_nil]; omega
      rw [List.flatMap_cons, List.length_append, List.length_cons]
      omega

/-! ## Strings -/

theorem readString_quoted (value : String) (rest : List Char) :
    readString (quoted value.toList ++ rest) = some (value, rest) := by
  have enough : value.toList.length ≤
      (value.toList.flatMap escape ++ '"' :: rest).length := by
    have atLeast := length_le_length_flatMap_escape value.toList
    rw [List.length_append]
    omega
  have text : quoted value.toList ++ rest =
      '"' :: (value.toList.flatMap escape ++ '"' :: rest) := by
    simp only [quoted, List.cons_append, List.append_assoc, List.nil_append]
  rw [text]
  simp only [readString, readChars_flatMap_escape _ _ enough, Option.bind_eq_bind,
    Option.bind_some, String.ofList_toList]

/-- A text begins with at most one printed string. -/
theorem quoted_append_inj {left right : String} {leftRest rightRest : List Char}
    (same : quoted left.toList ++ leftRest = quoted right.toList ++ rightRest) :
    left = right ∧ leftRest = rightRest := by
  have read := readString_quoted left leftRest
  rw [same, readString_quoted] at read
  cases read
  exact ⟨rfl, rfl⟩

end SessionServer.Json
