import SessionServer.Proofs.Json.Tokens

/-!
Contract: the numerals of a text decide the numbers of the value that is read from it.

Owns:
- `Json.numerals`, the numerals that stand in a text outside of its strings, in their order;
- `Json.Keeps`, what a reader does with a text of integral numerals: the value has the property in
  question, and what is left of the text has integral numerals again;
- `readValue_whole`, for values, and `readValue_depth`, the bound on their nesting.

Does not own: whether a text can be read. `numerals` is defined for all texts.
-/

namespace SessionServer

namespace Json

/-- The numerals from a place in the text on; the first so many characters belong to a string or a
numeral that begins before them. -/
def numeralsFrom : Nat → List Char → List Numeral
  | _, [] => []
  | skipped + 1, _ :: rest => numeralsFrom skipped rest
  | 0, c :: rest =>
      match readString (c :: rest) with
      | some (_, after) => numeralsFrom (rest.length - after.length) rest
      | none =>
          match readNumeral (c :: rest) with
          | some (numeral, after) => numeral :: numeralsFrom (rest.length - after.length) rest
          | none => numeralsFrom 0 rest

/-- The numerals of a text. -/
def numerals (text : List Char) : List Numeral := numeralsFrom 0 text

theorem numeralsFrom_eq (skipped : Nat) (text : List Char) :
    numeralsFrom skipped text = numerals (text.drop skipped) := by
  induction text generalizing skipped with
  | nil => cases skipped <;> rfl
  | cons c rest inductionHypothesis =>
      cases skipped with
      | zero => rfl
      | succ skipped => exact inductionHypothesis skipped

/-- Behind a token the scan goes on where the token's reader stopped. -/
theorem numeralsFrom_of_suffix {rest after : List Char} (suffix : after <:+ rest) :
    numeralsFrom (rest.length - after.length) rest = numerals after := by
  obtain ⟨token, rfl⟩ := suffix
  rw [numeralsFrom_eq, List.length_append, Nat.add_sub_cancel, List.drop_left]

/-! ## Readers advance -/

/-- The reader takes at least one character, and leaves an end of the text. -/
def Advances {α : Type} (reader : Reader α) : Prop :=
  ∀ (text : List Char) (value : α) (rest : List Char), reader text = some (value, rest) →
    ∃ c tail, text = c :: tail ∧ rest <:+ tail

/-- Whoever takes tokens that are not empty advances. -/
theorem Reads.advances {α : Type} {spells : List Char → α → Prop} {reader : Reader α}
    (reads : Reads spells reader)
    (occupied : ∀ (token : List Char) (value : α), spells token value → token ≠ []) :
    Advances reader := by
  intro text value rest read
  obtain ⟨token, rfl, spelled⟩ := reads.sound read
  obtain ⟨c, tail, rfl⟩ := List.exists_cons_of_ne_nil (occupied token value spelled)
  exact ⟨c, tail ++ rest, rfl, List.suffix_append _ _⟩

theorem readString_advances : Advances readString := by
  refine readString_takes.reads.advances fun token value spelled => ?_
  cases spelled with
  | intro _ => exact List.cons_ne_nil _ _

theorem readNumeral_advances : Advances readNumeral := by
  refine readNumeral_reads.advances fun token numeral spelled => ?_
  cases spelled with
  | intro _ occupied _ _ _ =>
      exact List.append_ne_nil_of_right_ne_nil _ (List.append_ne_nil_of_left_ne_nil occupied.1 _)

/-! ## Tokens of a text -/

theorem numerals_of_readString {text rest : List Char} {value : String}
    (read : readString text = some (value, rest)) : numerals text = numerals rest := by
  obtain ⟨c, tail, rfl, suffix⟩ := readString_advances _ _ _ read
  rw [numerals, numeralsFrom, read]
  exact numeralsFrom_of_suffix suffix

theorem readString_of_ne {c : Char} (other : c ≠ '"') (rest : List Char) :
    readString (c :: rest) = none := by
  unfold readString
  split
  · next same => exact absurd (List.cons.inj same).1 other
  · rfl

/-- Neither a string nor a numeral begins with the character. -/
abbrev Plain (c : Char) : Prop := c ≠ '"' ∧ c ≠ '-' ∧ c.isDigit = false

theorem readNumeral_of_plain {c : Char} (plain : Plain c) (tail : List Char) :
    readNumeral (c :: tail) = none := by
  have noDigits : readDigits (c :: tail) = none := by
    rw [readDigits, List.takeWhile_cons_of_neg (Bool.eq_false_iff.mp plain.2.2)]
  unfold readNumeral
  split
  next negative unsigned sign =>
    split at sign
    · next same => exact absurd (List.cons.inj same).1 plain.2.1
    · cases sign
      rw [readWhole, noDigits]
      rfl

theorem numerals_of_readNumeral {text rest : List Char} {numeral : Numeral}
    (read : readNumeral text = some (numeral, rest)) :
    numerals text = numeral :: numerals rest := by
  obtain ⟨c, tail, rfl, suffix⟩ := readNumeral_advances _ _ _ read
  have noQuote : c ≠ '"' := by
    rintro rfl
    cases read
  rw [numerals, numeralsFrom, readString_of_ne noQuote, read]
  exact congrArg (numeral :: ·) (numeralsFrom_of_suffix suffix)

theorem numerals_cons {c : Char} (plain : Plain c) (rest : List Char) :
    numerals (c :: rest) = numerals rest := by
  rw [numerals, numeralsFrom, readString_of_ne plain.1, readNumeral_of_plain plain]
  rfl

theorem numerals_skipBlanks (text : List Char) : numerals (skipBlanks text) = numerals text := by
  induction text with
  | nil => rfl
  | cons c rest inductionHypothesis =>
      cases blank : isBlank c with
      | false => rw [skipBlanks_cons blank]
      | true =>
          have plain : Plain c := by
            simp only [isBlank, Bool.or_eq_true, decide_eq_true_iff] at blank
            rcases blank with ((rfl | rfl) | rfl) | rfl <;> decide
          rw [numerals_cons plain, ← inductionHypothesis, skipBlanks,
            List.dropWhile_cons_of_pos blank, skipBlanks]

theorem numerals_of_word? {word text rest : List Char} (plain : ∀ c ∈ word, Plain c)
    (read : word? word text = some rest) : numerals text = numerals rest := by
  induction word generalizing text with
  | nil => cases read; rfl
  | cons expected word inductionHypothesis =>
      cases text with
      | nil => cases read
      | cons c tail =>
          rw [word?] at read
          split at read
          · next same =>
              rw [same, numerals_cons (plain expected List.mem_cons_self)]
              exact inductionHypothesis (fun c member => plain c (List.mem_cons_of_mem _ member))
                read
          · cases read

/-! ## Texts of integral numerals -/

/-- All numerals of the text are integers of 64 bits. -/
def IntegralText (text : List Char) : Prop := ∀ numeral ∈ numerals text, numeral.Integral

instance (text : List Char) : Decidable (IntegralText text) :=
  inferInstanceAs (Decidable (∀ numeral ∈ numerals text, numeral.Integral))

theorem IntegralText.of_eq {text other : List Char} (integral : IntegralText text)
    (same : numerals text = numerals other) : IntegralText other :=
  fun numeral member => integral numeral (same ▸ member)

theorem IntegralText.tail {c : Char} {rest : List Char} (integral : IntegralText (c :: rest))
    (plain : Plain c) : IntegralText rest :=
  integral.of_eq (numerals_cons plain rest)

theorem IntegralText.skipBlanks {text : List Char} (integral : IntegralText text) :
    IntegralText (skipBlanks text) :=
  integral.of_eq (numerals_skipBlanks text).symm

/-- On texts of integral numerals the values that the reader takes have the property, and it leaves
a text of integral numerals. -/
def Keeps {α : Type} (property : α → Prop) (reader : Reader α) : Prop :=
  ∀ (text : List Char) (value : α) (rest : List Char), reader text = some (value, rest) →
    IntegralText text → property value ∧ IntegralText rest

section Combinators

variable {α : Type} {property : α → Prop} {element : Reader α} {close : Char}

theorem Keeps.elements (keeps : Keeps property element) (closing : Plain close) (bound : Nat) :
    Keeps (fun items => ∀ item ∈ items, property item) (readElements close element bound) := by
  induction bound with
  | zero =>
      intro text items rest read
      cases read
  | succ bound inductionHypothesis =>
      intro text items rest read integral
      simp only [readElements, Option.bind_eq_bind, Option.bind_eq_some_iff] at read
      obtain ⟨⟨head, afterHead⟩, first, read⟩ := read
      obtain ⟨headHas, integral⟩ := keeps _ _ _ first integral.skipBlanks
      have behind := integral.skipBlanks
      dsimp only at read
      split at read
      · next c others start =>
          rw [start] at behind
          split at read
          · next closes =>
              cases read
              exact ⟨List.forall_mem_singleton.mpr headHas, behind.tail (closes ▸ closing)⟩
          · split at read
            · next comma =>
                simp only [Option.bind_eq_some_iff] at read
                obtain ⟨⟨tail, afterTail⟩, later, same⟩ := read
                cases same
                obtain ⟨tailHas, left⟩ :=
                  inductionHypothesis _ _ _ later (behind.tail (comma ▸ by decide))
                exact ⟨List.forall_mem_cons.mpr ⟨headHas, tailHas⟩, left⟩
            · cases read
      · cases read

theorem Keeps.enclosed (keeps : Keeps property element) (closing : Plain close) :
    Keeps (fun items => ∀ item ∈ items, property item) (readEnclosed close element) := by
  intro text items rest read integral
  unfold readEnclosed at read
  split at read
  · next c others start =>
      split at read
      · next closes =>
          cases read
          have behind := integral.skipBlanks
          rw [start] at behind
          exact ⟨List.forall_mem_nil _, behind.tail (closes ▸ closing)⟩
      · exact keeps.elements closing text.length _ _ _ read integral
  · cases read

theorem Keeps.member {property : Json → Prop} {value : Reader Json}
    (keeps : Keeps property value) :
    Keeps (fun member => property member.2) (readMember value) := by
  intro text member rest read integral
  simp only [readMember, Option.bind_eq_bind, Option.bind_eq_some_iff] at read
  obtain ⟨⟨name, afterName⟩, named, read⟩ := read
  have behind := (integral.of_eq (numerals_of_readString named)).skipBlanks
  dsimp only at read
  split at read
  · next tail start =>
      simp only [Option.bind_eq_some_iff] at read
      obtain ⟨⟨content, afterContent⟩, taken, same⟩ := read
      cases same
      rw [start] at behind
      exact keeps _ _ _ taken (behind.tail (by decide)).skipBlanks
  · cases read

end Combinators

/-! ## Values -/

theorem readNumber_whole : Keeps Whole readNumber := by
  intro text value rest read integral
  simp only [readNumber, Option.bind_eq_bind, Option.bind_eq_some_iff] at read
  obtain ⟨⟨numeral, afterNumeral⟩, taken, number, denotes, same⟩ := read
  cases same
  have split := numerals_of_readNumeral taken
  constructor
  · have first : numeral.Integral := integral numeral (split ▸ List.mem_cons_self)
    exact first.whole_value denotes
  · exact fun other member => integral other (split ▸ List.mem_cons_of_mem numeral member)

/-- A word of the format behind its first letter. -/
theorem readWord_whole {word text rest : List Char} {first : Char} {constant value : Json}
    (plain : (first :: word).all (decide <| Plain ·) = true) (whole : Whole constant)
    (read : (word? word text).map (fun rest => (constant, rest)) = some (value, rest))
    (integral : IntegralText (first :: text)) : Whole value ∧ IntegralText rest := by
  obtain ⟨after, taken, same⟩ := Option.map_eq_some_iff.mp read
  cases same
  have each : ∀ c ∈ first :: word, Plain c := fun c member =>
    of_decide_eq_true (List.all_eq_true.mp plain c member)
  have behind := integral.tail (each first List.mem_cons_self)
  exact ⟨whole, behind.of_eq (numerals_of_word?
    (fun c member => each c (List.mem_cons_of_mem first member)) taken)⟩

theorem readScalar_whole : Keeps Whole readScalar := by
  intro text value rest read integral
  unfold readScalar at read
  split at read
  · exact readWord_whole rfl .null read integral
  · exact readWord_whole rfl (.bool true) read integral
  · exact readWord_whole rfl (.bool false) read integral
  · obtain ⟨⟨characters, after⟩, taken, same⟩ := Option.map_eq_some_iff.mp read
    cases same
    exact ⟨.string characters, integral.of_eq (numerals_of_readString taken)⟩
  · exact readNumber_whole _ _ _ read integral

theorem readValue_whole (levels : Nat) : Keeps Whole (readValue levels) := by
  induction levels with
  | zero => exact readScalar_whole
  | succ levels inductionHypothesis =>
      intro text value rest read integral
      unfold readValue at read
      split at read
      · obtain ⟨⟨items, afterItems⟩, taken, same⟩ := Option.map_eq_some_iff.mp read
        cases same
        obtain ⟨each, behind⟩ := inductionHypothesis.enclosed (by decide) _ _ _ taken
          (integral.tail (by decide))
        exact ⟨.array each, behind⟩
      · obtain ⟨⟨members, afterMembers⟩, taken, same⟩ := Option.map_eq_some_iff.mp read
        cases same
        obtain ⟨each, behind⟩ := inductionHypothesis.member.enclosed (by decide) _ _ _ taken
          (integral.tail (by decide))
        exact ⟨.object fun member found => each member (Args.mem_of_mem_ofList found), behind⟩
      · exact readScalar_whole _ _ _ read integral

/-! ## Depth -/

theorem Numeral.depth_value? {numeral : Numeral} {number : Json}
    (denotes : numeral.value? = some number) : number.depth = 0 := by
  unfold Numeral.value? at denotes
  extract_lets digits size signed exact exponent at denotes
  split at denotes
  · cases denotes
    rfl
  · obtain ⟨value, -, rfl⟩ := Option.map_eq_some_iff.mp denotes
    rfl

theorem readScalar_depth : Yields (fun value => value.depth = 0) readScalar := by
  intro text value rest read
  unfold readScalar at read
  split at read
  iterate 4
    · obtain ⟨_, -, same⟩ := Option.map_eq_some_iff.mp read
      cases same
      rfl
  · simp only [readNumber, Option.bind_eq_bind, Option.bind_eq_some_iff] at read
    obtain ⟨⟨numeral, afterNumeral⟩, -, number, denotes, same⟩ := read
    cases same
    exact Numeral.depth_value? denotes

/-- What is read with so many levels has no more of them. -/
theorem readValue_depth (levels : Nat) :
    Yields (fun value => value.depth ≤ levels) (readValue levels) := by
  induction levels with
  | zero => exact fun text value rest read => Nat.le_of_eq (readScalar_depth text value rest read)
  | succ levels inductionHypothesis =>
      intro text value rest read
      unfold readValue at read
      split at read
      · obtain ⟨⟨items, afterItems⟩, taken, same⟩ := Option.map_eq_some_iff.mp read
        cases same
        have each := inductionHypothesis.enclosed _ _ _ taken
        exact Nat.succ_le_succ (depthOfItems_le_iff.mpr each)
      · obtain ⟨⟨members, afterMembers⟩, taken, same⟩ := Option.map_eq_some_iff.mp read
        cases same
        have each := inductionHypothesis.member.enclosed _ _ _ taken
        apply Nat.succ_le_succ
        rw [depthOfMembers_le_iff]
        exact fun member found => each member (Args.mem_of_mem_ofList found)
      · rw [readScalar_depth _ _ _ read]
        exact Nat.zero_le _

end Json

end SessionServer
