import SessionServer.Proofs.Json.Grammar

/-!
Contract: the readers of strings and numerals take what the grammar calls by that name.

Owns:
- `Json.Takes`, for readers of tokens that tell by themselves where they end: whatever follows, the
  reader takes a token if and only if one stands there;
- `Json.Stops`, what may follow a numeral, and `Json.Reads`, for readers that rely on it.
-/

namespace SessionServer.Json

/-- The reader takes exactly the tokens off the text. -/
def Takes {α : Type} (spells : List Char → α → Prop) (reader : Reader α) : Prop :=
  ∀ {text : List Char} {value : α} {rest : List Char},
    reader text = some (value, rest) ↔ ∃ token, text = token ++ rest ∧ spells token value

theorem Takes.sound {α : Type} {spells : List Char → α → Prop} {reader : Reader α}
    (takes : Takes spells reader) {text : List Char} {value : α} {rest : List Char}
    (read : reader text = some (value, rest)) :
    ∃ token, text = token ++ rest ∧ spells token value :=
  takes.mp read

theorem Takes.complete {α : Type} {spells : List Char → α → Prop} {reader : Reader α}
    (takes : Takes spells reader) {token : List Char} {value : α} (spelled : spells token value)
    (rest : List Char) : reader (token ++ rest) = some (value, rest) :=
  takes.mpr ⟨token, rfl, spelled⟩

/-! ## Units -/

instance (c : Char) (value : Nat) : Decidable (HexDigit c value) :=
  inferInstanceAs (Decidable (value < 16 ∧ _))

theorem value?_eq_some_iff {c : Char} {value : Nat} :
    Hexadecimal.value? c = some value ↔ HexDigit c value := by
  constructor
  · intro read
    -- No code from 103 on, that of `g`, is a digit, so all others can be tried.
    have table : ∀ code < 103, ∀ value ∈ Hexadecimal.value? (Char.ofNat code),
        HexDigit (Char.ofNat code) value := by decide
    have bounded : c.toNat < 103 := by
      unfold Hexadecimal.value? at read
      split at read
      · next range => exact Nat.lt_of_le_of_lt (UInt32.le_iff_toNat_le.mp range.2) (by decide)
      · split at read
        · next range => exact Nat.lt_of_le_of_lt (UInt32.le_iff_toNat_le.mp range.2) (by decide)
        · split at read
          · next range => exact Nat.lt_of_le_of_lt (UInt32.le_iff_toNat_le.mp range.2) (by decide)
          · cases read
    have known := table c.toNat bounded
    rw [Char.ofNat_toNat] at known
    exact known value read
  · rintro ⟨small, letter⟩
    have table : ∀ value < 16, Hexadecimal.value? (Nat.digitChar value) = some value ∧
        Hexadecimal.value? (Nat.digitChar value).toUpper = some value := by decide
    rcases letter with rfl | rfl
    · exact (table value small).1
    · exact (table value small).2

theorem readUnit_takes : Takes SpellsUnit readUnit := by
  intro text unit rest
  constructor
  · intro read
    unfold readUnit at read
    split at read
    · next a b c d tail =>
        simp only [Option.bind_eq_bind, Option.bind_eq_some_iff, value?_eq_some_iff] at read
        obtain ⟨first, ofFirst, second, ofSecond, third, ofThird, fourth, ofFourth, same⟩ := read
        cases same
        exact ⟨[a, b, c, d], rfl, .intro ofFirst ofSecond ofThird ofFourth⟩
    · cases read
  · rintro ⟨token, rfl, spelled⟩
    cases spelled with
    | intro ofFirst ofSecond ofThird ofFourth =>
        rw [← value?_eq_some_iff] at ofFirst ofSecond ofThird ofFourth
        simp only [List.cons_append, List.nil_append, readUnit, ofFirst, ofSecond, ofThird,
          ofFourth, Option.bind_eq_bind, Option.bind_some]

theorem readCodePoint_takes : Takes SpellsCodePoint readCodePoint := by
  intro text c rest
  constructor
  · intro read
    simp only [readCodePoint, Option.bind_eq_bind, Option.bind_eq_some_iff] at read
    obtain ⟨⟨unit, afterUnit⟩, taken, read⟩ := read
    obtain ⟨digits, rfl, spelled⟩ := readUnit_takes.mp taken
    dsimp only at read
    split at read
    · next scalar =>
        cases read
        exact ⟨digits, rfl, .unit spelled scalar⟩
    · next surrogate =>
        split at read
        · cases read
        · next leading =>
            split at read
            · next tail =>
                simp only [Option.bind_eq_some_iff] at read
                obtain ⟨⟨partner, afterPartner⟩, takenPartner, read⟩ := read
                obtain ⟨others, rfl, spelledPartner⟩ := readUnit_takes.mp takenPartner
                dsimp only at read
                split at read
                · next trailing =>
                    obtain ⟨rfl, rfl⟩ := Prod.mk.inj (Option.some.inj read)
                    refine ⟨digits ++ '\\' :: 'u' :: others, ?_,
                      .pair spelled (by omega) spelledPartner trailing⟩
                    rw [List.append_assoc, List.cons_append, List.cons_append]
                · cases read
            · cases read
  · rintro ⟨token, rfl, spelled⟩
    cases spelled with
    | unit spelled scalar =>
        simp only [readCodePoint, readUnit_takes.complete spelled, Option.bind_eq_bind,
          Option.bind_some, if_pos scalar]
    | pair spelled isLeading partner isTrailing =>
        rw [List.append_assoc]
        simp only [readCodePoint, readUnit_takes.complete spelled, List.cons_append,
          Option.bind_eq_bind, Option.bind_some]
        rw [if_neg (by omega), if_neg (by omega), readUnit_takes.complete partner]
        simp only [Option.bind_some, if_pos isTrailing]

/-! ## Strings -/

theorem escapeLetter?_eq_some_iff {letter c : Char} :
    escapeLetter? letter = some c ↔ (letter, c) ∈ escapeLetters := by
  unfold escapeLetter?
  constructor
  · intro found
    iterate 8
      split at found
      · next same =>
          cases same
          cases found
          decide
    cases found
  · intro listed
    simp only [escapeLetters, List.mem_cons, Prod.mk.injEq, List.not_mem_nil, or_false] at listed
    rcases listed with h | h | h | h | h | h | h | h <;> (obtain ⟨rfl, rfl⟩ := h; rfl)

theorem readChar_takes : Takes SpellsChar readChar := by
  intro text c rest
  constructor
  · intro read
    unfold readChar at read
    split at read
    · cases read
    · next tail =>
        obtain ⟨token, rfl, spelled⟩ := readCodePoint_takes.sound read
        exact ⟨'\\' :: 'u' :: token, rfl, .codePoint spelled⟩
    · next letter tail _ =>
        simp only [Option.bind_eq_bind, Option.bind_eq_some_iff] at read
        obtain ⟨character, found, same⟩ := read
        cases same
        exact ⟨['\\', letter], rfl, .letter (escapeLetter?_eq_some_iff.mp found)⟩
    · next first tail _ _ =>
        split at read
        · cases read
        · next plain =>
            cases read
            obtain ⟨notQuote, notBackslash, visible⟩ := by
              simpa only [not_or, Nat.not_lt] using plain
            exact ⟨[c], rfl, .plain visible notQuote notBackslash⟩
  · rintro ⟨token, rfl, spelled⟩
    cases spelled with
    | plain visible notQuote notBackslash =>
        have plain : ¬(c = '"' ∨ c = '\\' ∨ c.toNat < 0x20) := by
          simpa only [not_or, Nat.not_lt] using And.intro notQuote ⟨notBackslash, visible⟩
        rw [List.singleton_append]
        unfold readChar
        split
        · next absurdity => cases absurdity
        · next start => exact absurd (List.cons.inj start).1 notBackslash
        · next start => exact absurd (List.cons.inj start).1 notBackslash
        · next start =>
            cases start
            exact if_neg plain
    | @letter letter _ listed =>
        rw [List.cons_append, List.singleton_append]
        unfold readChar
        split
        · next absurdity => cases absurdity
        · next start =>
            cases start
            simp [escapeLetters] at listed
        · next start =>
            cases start
            rw [escapeLetter?_eq_some_iff.mpr listed]
            rfl
        · next escaped start =>
            cases start
            exact (escaped letter rest rfl rfl).elim
    | codePoint spelled => exact readCodePoint_takes.complete spelled rest

theorem SpellsChar.length_pos {token : List Char} {c : Char} (spelled : SpellsChar token c) :
    0 < token.length := by
  cases spelled with
  | plain | letter | codePoint => exact Nat.succ_pos _

theorem SpellsChars.length_le {token characters : List Char}
    (spelled : SpellsChars token characters) : characters.length ≤ token.length := by
  induction spelled with
  | nil => exact Nat.le_refl 0
  | cons first others inductionHypothesis =>
      have occupied := first.length_pos
      rw [List.length_cons, List.length_append]
      omega

/-- The bound only has to suffice for the number of the characters. -/
theorem readChars_eq_some_iff {bound : Nat} {text characters rest : List Char} :
    readChars bound text = some (characters, rest) ↔
      ∃ token, text = token ++ '"' :: rest ∧ SpellsChars token characters ∧
        characters.length ≤ bound := by
  constructor
  · intro read
    fun_induction readChars bound text generalizing characters rest with
    | case1 bound tail =>
        cases read
        exact ⟨[], rfl, .nil, Nat.zero_le _⟩
    | case2 text => cases read
    | case3 bound text _ inductionHypothesis =>
        simp only [Option.bind_eq_bind, Option.bind_eq_some_iff] at read
        obtain ⟨⟨c, afterFirst⟩, taken, ⟨later, afterLater⟩, others, same⟩ := read
        cases same
        obtain ⟨token, rfl, first⟩ := readChar_takes.sound taken
        obtain ⟨tail, rfl, spelled, enough⟩ := inductionHypothesis _ others
        exact ⟨token ++ tail, (List.append_assoc ..).symm, .cons first spelled,
          Nat.succ_le_succ enough⟩
  · rintro ⟨token, rfl, spelled, enough⟩
    induction spelled generalizing bound with
    | nil =>
        unfold readChars
        rfl
    | cons first others inductionHypothesis =>
        obtain ⟨smaller, rfl⟩ : ∃ smaller, bound = smaller + 1 :=
          Nat.exists_eq_succ_of_ne_zero (by rw [List.length_cons] at enough; omega)
        rw [List.append_assoc, readChars_of_readChar (readChar_takes.complete first _) smaller,
          inductionHypothesis (Nat.le_of_succ_le_succ enough)]
        rfl

theorem readString_takes : Takes SpellsString readString := by
  intro text value rest
  constructor
  · intro read
    unfold readString at read
    split at read
    · next tail =>
        simp only [Option.bind_eq_bind, Option.bind_eq_some_iff] at read
        obtain ⟨⟨characters, after⟩, taken, same⟩ := read
        cases same
        obtain ⟨inner, rfl, spelled, -⟩ := readChars_eq_some_iff.mp taken
        refine ⟨'"' :: (inner ++ ['"']), ?_, .intro spelled⟩
        rw [List.cons_append, List.append_assoc, List.singleton_append]
    · cases read
  · rintro ⟨token, rfl, spelled⟩
    cases spelled with
    | @intro inner characters spelled =>
        have enough : characters.length ≤ (inner ++ '"' :: rest).length := by
          have atLeast := spelled.length_le
          rw [List.length_append]
          omega
        rw [List.cons_append, List.append_assoc, List.singleton_append, readString,
          readChars_eq_some_iff.mpr ⟨inner, rfl, spelled, enough⟩]
        rfl

/-! ## Numerals -/

/-- The text does not go on with a character that would continue a numeral. -/
def Stops (rest : List Char) : Prop :=
  ∀ c ∈ rest.head?, c.isDigit = false ∧ c ≠ '.' ∧ c ≠ 'e' ∧ c ≠ 'E'

/-- The reader takes nothing but tokens off the text, and takes each of them in front of a text that
does not continue it. -/
structure Reads {α : Type} (spells : List Char → α → Prop) (reader : Reader α) : Prop where
  sound : ∀ {text : List Char} {value : α} {rest : List Char}, reader text = some (value, rest) →
    ∃ token, text = token ++ rest ∧ spells token value
  complete : ∀ {token : List Char} {value : α} {rest : List Char}, spells token value →
    Stops rest → reader (token ++ rest) = some (value, rest)

theorem Takes.reads {α : Type} {spells : List Char → α → Prop} {reader : Reader α}
    (takes : Takes spells reader) : Reads spells reader where
  sound := takes.sound
  complete spelled _ := takes.complete spelled _

/-- The text does not go on with a digit. -/
abbrev NoDigit (rest : List Char) : Prop := ∀ c ∈ rest.head?, c.isDigit = false

theorem readDigits_sound {text digits rest : List Char}
    (read : readDigits text = some (digits, rest)) : text = digits ++ rest ∧ Digits digits := by
  unfold readDigits at read
  split at read
  · cases read
  · next occupied =>
      cases read
      exact ⟨List.takeWhile_append_dropWhile.symm, occupied,
        List.all_eq_true.mp List.all_takeWhile⟩

theorem canonical_iff (whole : List Char) :
    Canonical whole ↔ ∀ next rest, whole ≠ '0' :: next :: rest := by
  unfold Canonical
  match whole with
  | [] => simp
  | [c] => simp [Decidable.em]
  | c :: next :: rest => simp

theorem readWhole_sound {text whole rest : List Char} (read : readWhole text = some (whole, rest)) :
    text = whole ++ rest ∧ Digits whole ∧ Canonical whole := by
  simp only [readWhole, Option.bind_eq_bind, Option.bind_eq_some_iff] at read
  obtain ⟨⟨digits, afterDigits⟩, taken, read⟩ := read
  obtain ⟨rfl, occupied⟩ := readDigits_sound taken
  dsimp only at read
  split at read
  · cases read
  · next canonical =>
      cases read
      exact ⟨rfl, occupied, (canonical_iff _).mpr canonical⟩

theorem readWhole_complete {whole rest : List Char} (occupied : Digits whole)
    (canonical : Canonical whole) (ends : NoDigit rest) :
    readWhole (whole ++ rest) = some (whole, rest) := by
  unfold readWhole
  rw [readDigits_append occupied.1 occupied.2 ends]
  simp only [Option.bind_eq_bind, Option.bind_some]
  split
  · next next later => exact absurd rfl ((canonical_iff _).mp canonical next later)
  · rfl

theorem readFraction_sound {text rest : List Char} {fraction : Option (List Char)}
    (read : readFraction text = some (fraction, rest)) :
    ∃ token, text = token ++ rest ∧ SpellsFraction token fraction := by
  unfold readFraction at read
  split at read
  · simp only [Option.bind_eq_bind, Option.bind_eq_some_iff] at read
    obtain ⟨⟨digits, after⟩, taken, same⟩ := read
    cases same
    obtain ⟨rfl, occupied⟩ := readDigits_sound taken
    exact ⟨'.' :: digits, rfl, .some occupied⟩
  · cases read
    exact ⟨[], rfl, .none⟩

theorem readFraction_complete {token rest : List Char} {fraction : Option (List Char)}
    (spelled : SpellsFraction token fraction)
    (ends : ∀ c ∈ rest.head?, c.isDigit = false ∧ c ≠ '.') :
    readFraction (token ++ rest) = some (fraction, rest) := by
  cases spelled with
  | none =>
      rw [List.nil_append]
      unfold readFraction
      split
      · exact absurd rfl (ends '.' rfl).2
      · rfl
  | some occupied =>
      rw [List.cons_append, readFraction,
        readDigits_append occupied.1 occupied.2 fun c member => (ends c member).1]
      rfl

theorem readSign_sound (text : List Char) :
    ∃ token, text = token ++ (readSign text).2 ∧ SpellsSign token (readSign text).1 := by
  unfold readSign
  split
  · exact ⟨['-'], rfl, .minus⟩
  · exact ⟨['+'], rfl, .plus⟩
  · exact ⟨[], rfl, .none⟩

theorem readSign_complete {sign digits : List Char} {negative : Bool}
    (spelled : SpellsSign sign negative) (occupied : Digits digits) (rest : List Char) :
    readSign (sign ++ (digits ++ rest)) = (negative, digits ++ rest) := by
  cases spelled with
  | none =>
      obtain ⟨c, later, rfl⟩ := List.exists_cons_of_ne_nil occupied.1
      have digit := occupied.2 c List.mem_cons_self
      rw [List.nil_append]
      unfold readSign
      split
      · next start => cases start; cases digit
      · next start => cases start; cases digit
      · rfl
  | plus | minus => rfl

theorem readExponent_sound {text rest : List Char} {exponent : Option Int}
    (read : readExponent text = some (exponent, rest)) :
    ∃ token, text = token ++ rest ∧ SpellsExponent token exponent := by
  unfold readExponent at read
  split at read
  · next letter tail =>
      split at read
      · next letters =>
          simp only [Option.bind_eq_bind, Option.bind_eq_some_iff] at read
          obtain ⟨⟨digits, after⟩, taken, same⟩ := read
          cases same
          obtain ⟨sign, split, signed⟩ := readSign_sound tail
          obtain ⟨behind, occupied⟩ := readDigits_sound taken
          refine ⟨letter :: (sign ++ digits), ?_, .some letters signed occupied⟩
          rw [List.cons_append, List.append_assoc, ← behind, ← split]
      · cases read
        exact ⟨[], rfl, .none⟩
  · cases read
    exact ⟨[], rfl, .none⟩

theorem readExponent_complete {token rest : List Char} {exponent : Option Int}
    (spelled : SpellsExponent token exponent) (stops : Stops rest) :
    readExponent (token ++ rest) = some (exponent, rest) := by
  cases spelled with
  | none =>
      cases rest with
      | nil => rfl
      | cons c later =>
          have first := stops c rfl
          have other : ¬(c = 'e' ∨ c = 'E') := fun letter => letter.elim first.2.2.1 first.2.2.2
          rw [List.nil_append, readExponent, if_neg other]
  | some letters signed occupied =>
      rw [List.cons_append, List.append_assoc, readExponent, if_pos letters,
        readSign_complete signed occupied]
      simp only [readDigits_append occupied.1 occupied.2 fun c member => (stops c member).1,
        Option.bind_eq_bind, Option.bind_some]

/-- Behind the digits of a numeral neither a digit nor a point follows except in its fraction. -/
theorem SpellsExponent.ends {token rest : List Char} {exponent : Option Int}
    (spelled : SpellsExponent token exponent) (stops : Stops rest) :
    ∀ c ∈ (token ++ rest).head?, c.isDigit = false ∧ c ≠ '.' := by
  cases spelled with
  | none => exact fun c member => ⟨(stops c member).1, (stops c member).2.1⟩
  | some letters _ _ =>
      rintro c ⟨rfl⟩
      rcases letters with rfl | rfl <;> decide

theorem SpellsFraction.ends {token rest : List Char} {fraction : Option (List Char)}
    (spelled : SpellsFraction token fraction)
    (ends : ∀ c ∈ rest.head?, c.isDigit = false ∧ c ≠ '.') : NoDigit (token ++ rest) := by
  cases spelled with
  | none => exact fun c member => (ends c member).1
  | some _ =>
      rintro c ⟨rfl⟩
      rfl

theorem readNumeral_reads : Reads SpellsNumeral readNumeral where
  sound := by
    intro text numeral rest read
    unfold readNumeral at read
    split at read
    next negative unsigned sign =>
      simp only [Option.bind_eq_bind, Option.bind_eq_some_iff] at read
      obtain ⟨⟨whole, afterWhole⟩, takenWhole, ⟨fraction, afterFraction⟩, takenFraction,
        ⟨exponent, afterExponent⟩, takenExponent, same⟩ := read
      cases same
      obtain ⟨rfl, occupied, canonical⟩ := readWhole_sound takenWhole
      obtain ⟨point, rfl, parts⟩ := readFraction_sound takenFraction
      obtain ⟨power, rfl, scale⟩ := readExponent_sound takenExponent
      obtain ⟨minus, split, signed⟩ : ∃ minus,
          text = minus ++ (whole ++ (point ++ (power ++ afterExponent))) ∧
            SpellsMinus minus negative := by
        split at sign
        · cases sign
          exact ⟨['-'], rfl, .minus⟩
        · cases sign
          exact ⟨[], rfl, .none⟩
      refine ⟨minus ++ (whole ++ (point ++ power)), ?_,
        .intro signed occupied canonical parts scale⟩
      rw [split]
      simp only [List.append_assoc]
  complete := by
    intro token numeral rest spelled stops
    cases spelled with
    | @intro sign whole point power negative fraction exponent signed occupied canonical parts
        scale =>
        have endsPower := scale.ends stops
        have takenWhole := readWhole_complete occupied canonical (parts.ends endsPower)
        have takenFraction := readFraction_complete parts endsPower
        have takenExponent := readExponent_complete scale stops
        simp only [List.append_assoc]
        cases signed with
        | minus =>
            simp only [List.singleton_append, readNumeral, takenWhole, takenFraction,
              takenExponent, Option.bind_eq_bind, Option.bind_some]
        | none =>
            rw [List.nil_append]
            unfold readNumeral
            split
            next negative others sign =>
              split at sign
              · next start =>
                  obtain ⟨c, later, rfl⟩ := List.exists_cons_of_ne_nil occupied.1
                  have digit := occupied.2 c List.mem_cons_self
                  cases start
                  cases digit
              · cases sign
                simp only [takenWhole, takenFraction, takenExponent, Option.bind_eq_bind,
                  Option.bind_some]

end SessionServer.Json
