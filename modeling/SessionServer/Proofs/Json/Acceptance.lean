import Mathlib.Data.List.Forall2
import SessionServer.Proofs.Json.Tokens

/-!
Contract: a text is read if and only if the grammar has it and the levels suffice for it.

Owns:
- the readers of elements, of what stands between brackets and of members, each of them over any
  reader of the parts that agrees with a relation of the grammar;
- `Json.Denotes`, what a piece of text denotes by way of the document that it spells;
- `readValue_reads`, by induction on the levels, and `readText_eq_some_iff` for whole texts.
-/

namespace SessionServer.Json

/-! ## Blanks -/

theorem isBlank_iff {c : Char} :
    isBlank c = true ↔ c = ' ' ∨ c = '\t' ∨ c = '\n' ∨ c = '\r' := by
  simp only [isBlank, Bool.or_eq_true, decide_eq_true_iff, or_assoc]

theorem exists_blanks (text : List Char) :
    ∃ before, Blanks before ∧ text = before ++ skipBlanks text := by
  refine ⟨text.takeWhile isBlank, fun c member => ?_, List.takeWhile_append_dropWhile.symm⟩
  exact isBlank_iff.mp (List.all_eq_true.mp List.all_takeWhile c member)

theorem Blanks.skip {before : List Char} (blanks : Blanks before) (rest : List Char) :
    skipBlanks (before ++ rest) = skipBlanks rest :=
  List.dropWhile_append_of_pos fun c member => isBlank_iff.mpr (blanks c member)

theorem Blanks.stops {after rest : List Char} (blanks : Blanks after) (stops : Stops rest) :
    Stops (after ++ rest) := by
  cases after with
  | nil => exact stops
  | cons c later =>
      rintro other ⟨rfl⟩
      rcases blanks c List.mem_cons_self with rfl | rfl | rfl | rfl <;> decide

/-! ## Elements -/

section Elements

variable {α : Type} {spells : List Char → α → Prop} {element : Reader α}

/-- Every token begins with a character that is neither a blank nor one that closes a list. -/
def Visible (spells : List Char → α → Prop) : Prop :=
  ∀ {token : List Char} {value : α}, spells token value → Begins token

theorem Reads.padded_sound (reads : Reads spells element) {text rest : List Char} {item : α}
    (read : element (skipBlanks text) = some (item, rest)) :
    ∃ token, text = token ++ skipBlanks rest ∧ Padded spells token item := by
  obtain ⟨before, ahead, start⟩ := exists_blanks text
  obtain ⟨token, middle, spelled⟩ := reads.sound read
  obtain ⟨after, behind, finish⟩ := exists_blanks rest
  refine ⟨before ++ (token ++ after), ?_, .intro ahead spelled behind⟩
  rw [List.append_assoc, List.append_assoc, ← finish, ← middle, ← start]

theorem Reads.padded_complete (reads : Reads spells element) (visible : Visible spells)
    {token rest : List Char} {item : α} (spelled : Padded spells token item) (stops : Stops rest) :
    ∃ after, element (skipBlanks (token ++ rest)) = some (item, after) ∧
      skipBlanks after = skipBlanks rest := by
  cases spelled with
  | @intro before inner after _ ahead spelled behind =>
      refine ⟨after ++ rest, ?_, behind.skip rest⟩
      rw [List.append_assoc, List.append_assoc, ahead.skip, (visible spelled).skipBlanks]
      exact reads.complete spelled (behind.stops stops)

variable {close : Char}

theorem Reads.elements_sound (reads : Reads spells element) {bound : Nat} {text rest : List Char}
    {items : List α} (read : readElements close element bound text = some (items, rest)) :
    ∃ inner, text = inner ++ close :: rest ∧ Separated spells inner items := by
  induction bound generalizing text items with
  | zero => cases read
  | succ bound inductionHypothesis =>
      simp only [readElements, Option.bind_eq_bind, Option.bind_eq_some_iff] at read
      obtain ⟨⟨head, afterHead⟩, first, read⟩ := read
      obtain ⟨token, start, spelled⟩ := reads.padded_sound first
      dsimp only at read
      split at read
      · next c others behind =>
          rw [behind] at start
          split at read
          · next closes =>
              cases read
              exact ⟨token, closes ▸ start, .last spelled⟩
          · split at read
            · next comma =>
                simp only [Option.bind_eq_some_iff] at read
                obtain ⟨⟨tail, afterTail⟩, later, same⟩ := read
                cases same
                obtain ⟨inner, rfl, separated⟩ := inductionHypothesis later
                refine ⟨token ++ ',' :: inner, ?_, .next spelled separated⟩
                rw [start, comma, List.append_assoc, List.cons_append]
            · cases read
      · cases read

theorem stops_cons {c : Char} (closing : c = ',' ∨ c = ']' ∨ c = '\x7d') (rest : List Char) :
    Stops (c :: rest) := by
  rintro other ⟨rfl⟩
  rcases closing with rfl | rfl | rfl <;> decide

theorem Reads.elements_complete (reads : Reads spells element) (visible : Visible spells)
    (closing : close = ']' ∨ close = '\x7d') {bound : Nat} {inner : List Char} {items : List α}
    (separated : Separated spells inner items) (enough : items.length ≤ bound)
    (rest : List Char) :
    readElements close element bound (inner ++ close :: rest) = some (items, rest) := by
  have apart : ',' ≠ close := by rcases closing with rfl | rfl <;> decide
  have printed : isBlank close = false := by rcases closing with rfl | rfl <;> rfl
  induction separated generalizing bound with
  | last spelled =>
      obtain ⟨smaller, rfl⟩ := Nat.exists_eq_succ_of_ne_zero (Nat.ne_of_gt enough)
      obtain ⟨after, read, behind⟩ :=
        reads.padded_complete visible spelled (stops_cons (.inr closing) rest)
      rw [skipBlanks_cons printed] at behind
      simp only [readElements, read, Option.bind_eq_bind, Option.bind_some, behind, if_true]
  | @next text others item items spelled _ inductionHypothesis =>
      obtain ⟨smaller, rfl⟩ : ∃ smaller, bound = smaller + 1 :=
        Nat.exists_eq_succ_of_ne_zero (by rw [List.length_cons] at enough; omega)
      obtain ⟨after, read, behind⟩ := reads.padded_complete visible spelled
        (stops_cons (.inl rfl) (others ++ close :: rest))
      rw [skipBlanks_cons (c := ',') rfl] at behind
      rw [List.append_assoc, List.cons_append]
      simp only [readElements, read, Option.bind_eq_bind, Option.bind_some, behind, if_neg apart,
        if_true, inductionHypothesis (Nat.le_of_succ_le_succ enough)]

theorem Separated.length_le (visible : Visible spells) {inner : List Char} {items : List α}
    (separated : Separated spells inner items) : items.length ≤ inner.length := by
  induction separated with
  | last spelled =>
      cases spelled with
      | intro ahead spelled behind =>
          obtain ⟨c, later, rfl, -⟩ := visible spelled
          simp only [List.length_append, List.length_cons, List.length_nil]
          omega
  | next spelled others inductionHypothesis =>
      simp only [List.length_append, List.length_cons]
      omega

theorem Padded.skipBlanks_begins (visible : Visible spells) {text : List Char} {item : α}
    (spelled : Padded spells text item) (rest : List Char) :
    Begins (skipBlanks (text ++ rest)) := by
  cases spelled with
  | intro ahead spelled behind =>
      obtain ⟨c, later, rfl, printed, apart⟩ := visible spelled
      simp only [List.append_assoc, List.cons_append, ahead.skip, skipBlanks_cons printed]
      exact ⟨c, _, rfl, printed, apart⟩

theorem Separated.skipBlanks_begins (visible : Visible spells) {inner : List Char} {items : List α}
    (separated : Separated spells inner items) (rest : List Char) :
    Begins (skipBlanks (inner ++ rest)) := by
  cases separated with
  | last spelled => exact spelled.skipBlanks_begins visible rest
  | next spelled others =>
      rw [List.append_assoc]
      exact spelled.skipBlanks_begins visible _

/-- Behind the opening bracket the reader takes what the grammar lists, with the closing bracket. -/
theorem Reads.enclosed_iff (reads : Reads spells element) (visible : Visible spells)
    (closing : close = ']' ∨ close = '\x7d') {text rest : List Char} {items : List α} :
    readEnclosed close element text = some (items, rest) ↔
      ∃ inner, text = inner ++ close :: rest ∧ Listed spells inner items := by
  constructor
  · intro read
    unfold readEnclosed at read
    split at read
    · next c others start =>
        split at read
        · next closes =>
            cases read
            obtain ⟨before, blanks, split⟩ := exists_blanks text
            rw [start, closes] at split
            exact ⟨before, split, .none blanks⟩
        · obtain ⟨inner, split, separated⟩ := reads.elements_sound read
          exact ⟨inner, split, .some separated⟩
    · cases read
  · rintro ⟨inner, rfl, listed⟩
    cases listed with
    | none blanks =>
        have printed : isBlank close = false := by rcases closing with rfl | rfl <;> rfl
        simp only [readEnclosed, blanks.skip, skipBlanks_cons printed, if_true]
    | some separated =>
        have enough : items.length ≤ (inner ++ close :: rest).length := by
          have atLeast := separated.length_le visible
          rw [List.length_append]
          omega
        have read := reads.elements_complete visible closing separated enough rest
        obtain ⟨c, later, start, -, notBracket, notBrace⟩ :=
          separated.skipBlanks_begins visible (close :: rest)
        have apart : c ≠ close := by
          rcases closing with rfl | rfl
          · exact notBracket
          · exact notBrace
        simp only [readEnclosed, start, if_neg apart]
        exact read

theorem visible_member : Visible (SpellsMember spells) := by
  intro token member spelled
  cases spelled with
  | intro named _ _ _ =>
      cases named with
      | intro _ => exact ⟨'"', _, rfl, rfl, by decide, by decide⟩

theorem readMember_reads {value : Reader Json} {spells : List Char → Json → Prop}
    (reads : Reads spells value) (visible : Visible spells) :
    Reads (SpellsMember spells) (readMember value) where
  sound := by
    intro text member rest read
    simp only [readMember, Option.bind_eq_bind, Option.bind_eq_some_iff] at read
    obtain ⟨⟨name, afterName⟩, taken, read⟩ := read
    obtain ⟨quoted, rfl, named⟩ := readString_takes.sound taken
    dsimp only at read
    split at read
    · next tail colon =>
        simp only [Option.bind_eq_some_iff] at read
        obtain ⟨⟨content, afterContent⟩, takenContent, same⟩ := read
        cases same
        obtain ⟨before, ahead, start⟩ := exists_blanks afterName
        obtain ⟨after, behind, middle⟩ := exists_blanks tail
        obtain ⟨token, finish, spelled⟩ := reads.sound takenContent
        refine ⟨quoted ++ (before ++ ':' :: (after ++ token)), ?_,
          .intro named ahead behind spelled⟩
        rw [start, colon, middle, finish]
        simp only [List.append_assoc, List.cons_append]
    · cases read
  complete := by
    intro token member rest spelled stops
    cases spelled with
    | intro named ahead behind spelled =>
        simp only [List.append_assoc, List.cons_append, readMember,
          readString_takes.complete named, Option.bind_eq_bind, Option.bind_some, ahead.skip,
          skipBlanks_cons (c := ':') rfl, behind.skip, (visible spelled).skipBlanks,
          reads.complete spelled stops]

end Elements

/-! ## What a text denotes -/

section Meaning

variable {α β : Type}

/-- A piece of text has a value by way of what it spells. -/
def Meaning (spells : List Char → α → Prop) (means : α → β → Prop) (text : List Char) (value : β) :
    Prop :=
  ∃ item, spells text item ∧ means item value

variable {spells : List Char → α → Prop} {means : α → β → Prop}

theorem padded_meaning_iff {text : List Char} {value : β} :
    Padded (Meaning spells means) text value ↔ Meaning (Padded spells) means text value := by
  constructor
  · rintro ⟨ahead, ⟨item, spelled, meant⟩, behind⟩
    exact ⟨item, .intro ahead spelled behind, meant⟩
  · rintro ⟨item, ⟨ahead, spelled, behind⟩, meant⟩
    exact .intro ahead ⟨item, spelled, meant⟩ behind

theorem separated_meaning_iff {text : List Char} {values : List β} :
    Separated (Meaning spells means) text values ↔
      Meaning (Separated spells) (List.Forall₂ means) text values := by
  constructor
  · intro separated
    induction separated with
    | last spelled =>
        obtain ⟨item, spelled, meant⟩ := padded_meaning_iff.mp spelled
        exact ⟨[item], .last spelled, .cons meant .nil⟩
    | next spelled _ inductionHypothesis =>
        obtain ⟨item, spelled, meant⟩ := padded_meaning_iff.mp spelled
        obtain ⟨items, others, each⟩ := inductionHypothesis
        exact ⟨item :: items, .next spelled others, .cons meant each⟩
  · rintro ⟨items, separated, each⟩
    induction separated generalizing values with
    | last spelled =>
        cases each with
        | cons meant rest =>
            cases rest
            exact .last (padded_meaning_iff.mpr ⟨_, spelled, meant⟩)
    | next spelled _ inductionHypothesis =>
        cases each with
        | cons meant rest =>
            exact .next (padded_meaning_iff.mpr ⟨_, spelled, meant⟩) (inductionHypothesis rest)

theorem listed_meaning_iff {text : List Char} {values : List β} :
    Listed (Meaning spells means) text values ↔
      Meaning (Listed spells) (List.Forall₂ means) text values := by
  constructor
  · intro listed
    cases listed with
    | none blanks => exact ⟨[], .none blanks, .nil⟩
    | some separated =>
        obtain ⟨items, separated, each⟩ := separated_meaning_iff.mp separated
        exact ⟨items, .some separated, each⟩
  · rintro ⟨items, listed, each⟩
    cases listed with
    | none blanks =>
        cases each
        exact .none blanks
    | some separated => exact .some (separated_meaning_iff.mpr ⟨items, separated, each⟩)

/-- A member means one with the same name. -/
def MemberMeans (means : α → β → Prop) (member : String × α) (valued : String × β) : Prop :=
  member.1 = valued.1 ∧ means member.2 valued.2

theorem spellsMember_meaning :
    SpellsMember (Meaning spells means) = Meaning (SpellsMember spells) (MemberMeans means) := by
  funext text valued
  apply propext
  constructor
  · rintro ⟨named, ahead, behind, item, spelled, meant⟩
    exact ⟨(_, item), .intro named ahead behind spelled, rfl, meant⟩
  · rintro ⟨⟨name, item⟩, spelled, same, meant⟩
    cases spelled with
    | intro named ahead behind spelled =>
        obtain ⟨_, value⟩ := valued
        cases same
        exact .intro named ahead behind ⟨item, spelled, meant⟩

end Meaning

/-! ## Values of documents -/

namespace Document

theorem valuesOf_eq_some_iff {items : List Document} {values : List Json} :
    valuesOf items = some values ↔
      List.Forall₂ (fun item value => item.value? = some value) items values := by
  induction items generalizing values with
  | nil => simp [valuesOf, eq_comm]
  | cons item rest inductionHypothesis =>
      simp only [valuesOf, Option.bind_eq_bind, Option.bind_eq_some_iff, Option.some.injEq,
        List.forall₂_cons_left_iff, inductionHypothesis]
      constructor
      · rintro ⟨first, head, others, tail, rfl⟩
        exact ⟨first, others, head, tail, rfl⟩
      · rintro ⟨first, others, head, tail, rfl⟩
        exact ⟨first, head, others, tail, rfl⟩

theorem valuesOfMembers_eq_some_iff {members : List (String × Document)}
    {values : List (String × Json)} :
    valuesOfMembers members = some values ↔
      List.Forall₂ (MemberMeans fun item value => item.value? = some value) members values := by
  induction members generalizing values with
  | nil => simp [valuesOfMembers, eq_comm]
  | cons member rest inductionHypothesis =>
      obtain ⟨name, item⟩ := member
      simp only [valuesOfMembers, Option.bind_eq_bind, Option.bind_eq_some_iff, Option.some.injEq,
        List.forall₂_cons_left_iff, inductionHypothesis]
      constructor
      · rintro ⟨first, head, others, tail, rfl⟩
        exact ⟨(name, first), others, ⟨rfl, head⟩, tail, rfl⟩
      · rintro ⟨⟨_, first⟩, others, ⟨rfl, head⟩, tail, rfl⟩
        exact ⟨first, head, others, tail, rfl⟩

/-- The document has the value and fits into so many levels. -/
structure Means (levels : Nat) (document : Document) (value : Json) : Prop where
  shallow : document.depth ≤ levels
  finite : document.Finite
  value_eq : document.value? = some value

variable {levels : Nat} {value : Json}

theorem Means.mono {document : Document} {more : Nat} (meant : Means levels document value)
    (enough : levels ≤ more) : Means more document value :=
  ⟨Nat.le_trans meant.shallow enough, meant.finite, meant.value_eq⟩

theorem means_iff {document : Document} :
    Means levels document value ↔
      document.depth ≤ levels ∧ document.Finite ∧ document.value? = some value :=
  ⟨fun meant => ⟨meant.shallow, meant.finite, meant.value_eq⟩,
    fun parts => ⟨parts.1, parts.2.1, parts.2.2⟩⟩

theorem finite_array_iff {items : List Document} :
    (array items).Finite ↔ ∀ item ∈ items, item.Finite :=
  ⟨fun finite => by cases finite with | array each => exact each, .array⟩

theorem finite_object_iff {members : List (String × Document)} :
    (object members).Finite ↔ ∀ member ∈ members, member.2.Finite :=
  ⟨fun finite => by cases finite with | object each => exact each, .object⟩

/-- An array means the array of what its items mean one level further in. -/
theorem means_array_iff {items : List Document} :
    Means (levels + 1) (array items) value ↔
      ∃ values, List.Forall₂ (Means levels) items values ∧ .array values = value := by
  have parts : Means levels = fun item value =>
      item.depth ≤ levels ∧ item.Finite ∧ item.value? = some value := by
    funext item value
    exact propext means_iff
  simp only [parts, List.forall₂_and_left, ← valuesOf_eq_some_iff, means_iff, depth_array_le_iff,
    finite_array_iff, value?, Option.map_eq_some_iff, and_assoc, exists_and_left]

/-- An object means the object of what its members mean one level further in. -/
theorem means_object_iff {members : List (String × Document)} :
    Means (levels + 1) (object members) value ↔
      ∃ values, List.Forall₂ (MemberMeans (Means levels)) members values ∧
        .object (Args.ofList values) = value := by
  have parts : MemberMeans (Means levels) = fun member valued =>
      member.2.depth ≤ levels ∧ member.2.Finite ∧
        MemberMeans (fun item value => item.value? = some value) member valued := by
    funext member valued
    apply propext
    rw [MemberMeans, MemberMeans, means_iff]
    exact ⟨fun ⟨same, shallow, finite, meant⟩ => ⟨shallow, finite, same, meant⟩,
      fun ⟨shallow, finite, same, meant⟩ => ⟨same, shallow, finite, meant⟩⟩
  simp only [parts, List.forall₂_and_left,
    ← valuesOfMembers_eq_some_iff, means_iff, depth_object_le_iff,
    finite_object_iff, value?, Option.map_eq_some_iff, and_assoc, exists_and_left]

end Document

/-- A piece of text denotes the value of the document that it spells, if that fits into so many
levels. -/
def Denotes (levels : Nat) : List Char → Json → Prop := Meaning Spells (Document.Means levels)

/-! ## Scalars -/

theorem word?_eq_some_iff {word text rest : List Char} :
    word? word text = some rest ↔ text = word ++ rest := by
  induction word generalizing text with
  | nil => simp [word?]
  | cons expected word inductionHypothesis =>
      cases text with
      | nil => simp [word?]
      | cons c tail =>
          rw [word?]
          split
          · next same => simp [same, inductionHypothesis]
          · next other => simp [other]

theorem SpellsNumeral.begins {text : List Char} {numeral : Numeral}
    (spelled : SpellsNumeral text numeral) :
    ∃ c rest, text = c :: rest ∧ isNumeric c = true := by
  cases spelled with
  | intro signed occupied _ _ _ =>
      cases signed with
      | minus => exact ⟨'-', _, rfl, rfl⟩
      | none =>
          obtain ⟨c, later, rfl⟩ := List.exists_cons_of_ne_nil occupied.1
          exact ⟨c, _, rfl, isNumeric_of_isDigit (occupied.2 c List.mem_cons_self)⟩

theorem readNumber_reads :
    Reads (Meaning SpellsNumeral fun numeral value => numeral.value? = some value) readNumber where
  sound := by
    intro text value rest read
    simp only [readNumber, Option.bind_eq_bind, Option.bind_eq_some_iff] at read
    obtain ⟨⟨numeral, afterNumeral⟩, taken, number, denotes, same⟩ := read
    cases same
    obtain ⟨token, rfl, spelled⟩ := readNumeral_reads.sound taken
    exact ⟨token, rfl, numeral, spelled, denotes⟩
  complete := by
    rintro token value rest ⟨numeral, spelled, denotes⟩ stops
    simp only [readNumber, readNumeral_reads.complete spelled stops, denotes, Option.bind_eq_bind,
      Option.bind_some]

theorem readScalar_reads : Reads (Denotes 0) readScalar where
  sound := by
    intro text value rest read
    unfold readScalar at read
    split at read
    · obtain ⟨after, taken, same⟩ := Option.map_eq_some_iff.mp read
      cases same
      rw [word?_eq_some_iff.mp taken]
      exact ⟨_, rfl, .null, .null, Nat.le_refl 0, .null, rfl⟩
    · obtain ⟨after, taken, same⟩ := Option.map_eq_some_iff.mp read
      cases same
      rw [word?_eq_some_iff.mp taken]
      exact ⟨_, rfl, .bool true, .true, Nat.le_refl 0, .bool true, rfl⟩
    · obtain ⟨after, taken, same⟩ := Option.map_eq_some_iff.mp read
      cases same
      rw [word?_eq_some_iff.mp taken]
      exact ⟨_, rfl, .bool false, .false, Nat.le_refl 0, .bool false, rfl⟩
    · obtain ⟨⟨characters, after⟩, taken, same⟩ := Option.map_eq_some_iff.mp read
      cases same
      obtain ⟨token, split, spelled⟩ := readString_takes.sound taken
      exact ⟨token, split, .string characters, .string spelled, Nat.le_refl 0,
        .string characters, rfl⟩
    · obtain ⟨token, split, numeral, spelled, denotes⟩ := readNumber_reads.sound read
      have bounded : ¬numeral.Overflows := by
        rw [← Numeral.value?_eq_none_iff, denotes]
        exact Option.some_ne_none value
      exact ⟨token, split, .number numeral, .number spelled, Nat.le_refl 0, .number bounded,
        denotes⟩
  complete := by
    rintro token value rest ⟨document, spelled, shallow, finite, denotes⟩ stops
    cases spelled with
    | null | false | true =>
        cases denotes
        rfl
    | number spelled =>
        have read := readNumber_reads.complete ⟨_, spelled, denotes⟩ stops
        obtain ⟨c, later, rfl, numeric⟩ := spelled.begins
        exact (readValue_of_isNumeric numeric 0 _).trans read
    | string spelled =>
        cases denotes
        have read := readString_takes.complete spelled rest
        cases spelled with
        | intro _ =>
            rw [List.cons_append] at read ⊢
            rw [readScalar, read]
            rfl
    | array | object => exact absurd shallow (Nat.not_succ_le_zero _)

/-! ## Arrays and objects -/

theorem visible_spells : Visible Spells := by
  intro token document spelled
  cases spelled with
  | null => exact ⟨'n', _, rfl, rfl, by decide, by decide⟩
  | false => exact ⟨'f', _, rfl, rfl, by decide, by decide⟩
  | true => exact ⟨'t', _, rfl, rfl, by decide, by decide⟩
  | number spelled =>
      obtain ⟨c, later, rfl, numeric⟩ := spelled.begins
      exact begins_of_isNumeric numeric later
  | string spelled =>
      cases spelled with
      | intro _ => exact ⟨'"', _, rfl, rfl, by decide, by decide⟩
  | array => exact ⟨'[', _, rfl, rfl, by decide, by decide⟩
  | object => exact ⟨'\x7b', _, rfl, rfl, by decide, by decide⟩

theorem visible_denotes (levels : Nat) : Visible (Denotes levels) := by
  rintro token value ⟨document, spelled, -⟩
  exact visible_spells spelled

theorem readValue_succ_of_ne {c : Char} (notBracket : c ≠ '[') (notBrace : c ≠ '\x7b')
    (levels : Nat) (rest : List Char) :
    readValue (levels + 1) (c :: rest) = readScalar (c :: rest) := by
  unfold readValue
  split
  · next start => exact absurd (List.cons.inj start).1 notBracket
  · next start => exact absurd (List.cons.inj start).1 notBrace
  · rfl

/-- What needs no level begins as no array and no object does. -/
theorem Spells.begins_of_depth_eq_zero {token : List Char} {document : Document}
    (spelled : Spells token document) (flat : document.depth = 0) :
    ∃ c rest, token = c :: rest ∧ c ≠ '[' ∧ c ≠ '\x7b' := by
  cases spelled with
  | null => exact ⟨'n', _, rfl, by decide, by decide⟩
  | false => exact ⟨'f', _, rfl, by decide, by decide⟩
  | true => exact ⟨'t', _, rfl, by decide, by decide⟩
  | number spelled =>
      obtain ⟨c, later, rfl, numeric⟩ := spelled.begins
      refine ⟨c, later, rfl, ?_, ?_⟩ <;> (rintro rfl; cases numeric)
  | string spelled =>
      cases spelled with
      | intro _ => exact ⟨'"', _, rfl, by decide, by decide⟩
  | array | object => exact absurd flat (Nat.succ_ne_zero _)

theorem readArray_iff {levels : Nat} (reads : Reads (Denotes levels) (readValue levels))
    {text rest : List Char} {value : Json} :
    readValue (levels + 1) ('[' :: text) = some (value, rest) ↔
      ∃ inner items, text = inner ++ ']' :: rest ∧ Listed Spells inner items ∧
        (Document.array items).Means (levels + 1) value := by
  simp only [readValue, Option.map_eq_some_iff, Prod.exists, Prod.mk.injEq,
    reads.enclosed_iff (visible_denotes levels) (.inl rfl), Denotes, listed_meaning_iff,
    Document.means_array_iff]
  constructor
  · rintro ⟨values, _, ⟨inner, split, items, listed, each⟩, same, rfl⟩
    exact ⟨inner, items, split, listed, values, each, same⟩
  · rintro ⟨inner, items, split, listed, values, each, same⟩
    exact ⟨values, rest, ⟨inner, split, items, listed, each⟩, same, rfl⟩

theorem readObject_iff {levels : Nat} (reads : Reads (Denotes levels) (readValue levels))
    {text rest : List Char} {value : Json} :
    readValue (levels + 1) ('\x7b' :: text) = some (value, rest) ↔
      ∃ inner members, text = inner ++ '\x7d' :: rest ∧
        Listed (SpellsMember Spells) inner members ∧
        (Document.object members).Means (levels + 1) value := by
  have members := readMember_reads reads (visible_denotes levels)
  simp only [readValue, Option.map_eq_some_iff, Prod.exists, Prod.mk.injEq,
    members.enclosed_iff visible_member (.inr rfl), Denotes, spellsMember_meaning,
    listed_meaning_iff, Document.means_object_iff]
  constructor
  · rintro ⟨values, _, ⟨inner, split, members, listed, each⟩, same, rfl⟩
    exact ⟨inner, members, split, listed, values, each, same⟩
  · rintro ⟨inner, members, split, listed, values, each, same⟩
    exact ⟨values, rest, ⟨inner, split, members, listed, each⟩, same, rfl⟩

theorem Denotes.mono {levels more : Nat} {text : List Char} {value : Json}
    (denotes : Denotes levels text value) (enough : levels ≤ more) : Denotes more text value := by
  obtain ⟨document, spelled, meant⟩ := denotes
  exact ⟨document, spelled, meant.mono enough⟩

/-- With so many levels exactly the values are read that a text of so many levels denotes. -/
theorem readValue_reads (levels : Nat) : Reads (Denotes levels) (readValue levels) := by
  induction levels with
  | zero => exact readScalar_reads
  | succ levels inductionHypothesis =>
      constructor
      case sound =>
        intro text value rest read
        have scalar (read : readScalar text = some (value, rest)) :
            ∃ token, text = token ++ rest ∧ Denotes (levels + 1) token value := by
          obtain ⟨token, split, denotes⟩ := readScalar_reads.sound read
          exact ⟨token, split, denotes.mono (Nat.zero_le _)⟩
        cases text with
        | nil => exact scalar read
        | cons c tail =>
            by_cases bracket : c = '['
            · subst bracket
              obtain ⟨inner, items, rfl, listed, meant⟩ :=
                (readArray_iff inductionHypothesis).mp read
              refine ⟨'[' :: (inner ++ [']']), ?_, _, .array listed, meant⟩
              rw [List.cons_append, List.append_assoc, List.singleton_append]
            · by_cases brace : c = '\x7b'
              · subst brace
                obtain ⟨inner, members, rfl, listed, meant⟩ :=
                  (readObject_iff inductionHypothesis).mp read
                refine ⟨'\x7b' :: (inner ++ ['\x7d']), ?_, _, .object listed, meant⟩
                rw [List.cons_append, List.append_assoc, List.singleton_append]
              · rw [readValue_succ_of_ne bracket brace] at read
                exact scalar read
      case complete =>
        rintro token value rest ⟨document, spelled, meant⟩ stops
        -- Without levels the document is a scalar; otherwise it begins with a bracket.
        rcases Nat.eq_zero_or_pos document.depth with flat | deep
        · have denotes : Denotes 0 token value :=
            ⟨document, spelled, Nat.le_of_eq flat, meant.finite, meant.value_eq⟩
          have read := readScalar_reads.complete denotes stops
          obtain ⟨c, later, rfl, notBracket, notBrace⟩ := spelled.begins_of_depth_eq_zero flat
          rw [List.cons_append, readValue_succ_of_ne notBracket notBrace]
          exact read
        · cases spelled with
          | null | false | true | number | string => exact absurd deep (Nat.lt_irrefl 0)
          | array listed =>
              rw [List.cons_append, List.append_assoc, List.singleton_append]
              exact (readArray_iff inductionHypothesis).mpr ⟨_, _, rfl, listed, meant⟩
          | object listed =>
              rw [List.cons_append, List.append_assoc, List.singleton_append]
              exact (readObject_iff inductionHypothesis).mpr ⟨_, _, rfl, listed, meant⟩

/-! ## Whole texts -/

/-- A text is read with so many levels exactly if it spells, with blanks around it, a document that
fits into them. -/
theorem readText_eq_some_iff {levels : Nat} {text : List Char} {value : Json} :
    readText levels text = some value ↔
      ∃ document, Padded Spells text document ∧ document.Means levels value := by
  have padded : (∃ document, Padded Spells text document ∧ document.Means levels value) ↔
      Padded (Denotes levels) text value := padded_meaning_iff.symm
  rw [padded]
  constructor
  · intro read
    unfold readText at read
    split at read
    · next taken =>
        split at read
        · next finished =>
            cases read
            obtain ⟨token, split, spelled⟩ := (readValue_reads levels).padded_sound taken
            rw [List.isEmpty_iff.mp finished, List.append_nil] at split
            exact split ▸ spelled
        · cases read
    · cases read
  · intro spelled
    have ends : Stops [] := fun c member => nomatch member
    obtain ⟨after, read, behind⟩ := (readValue_reads levels).padded_complete
      (visible_denotes levels) spelled ends
    rw [List.append_nil] at read
    rw [readText, read]
    dsimp only
    rw [behind]
    rfl

end SessionServer.Json
