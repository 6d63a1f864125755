import SessionServer.Proofs.Json.Numbers
import SessionServer.Proofs.Json.Sorted
import SessionServer.Proofs.Json.Strings

/-!
Contract: a printed value reads back exactly where the levels suffice for its depth.

Owns:
- `Json.Whole`, values whose numbers are integers of 64 bits, signed or unsigned;
- `Json.separated`, the common form of printed items and printed members, and what reading it comes
  to;
- `recovers_print`, for all values whose objects are in order: the value itself if it is no deeper
  than the levels, and nothing otherwise.

The sign of zero cannot be kept in an integer, so the number that is written `-0` is a double. It
prints as a double as well and belongs to `Whole`.
-/

namespace SessionServer

namespace Args

private theorem insert_of_last {name : String} {value : Json} {args : Args}
    (last : ∀ member ∈ args, compare member.1 name = .lt) :
    args.insert name value = args ++ [(name, value)] := by
  unfold insert
  induction args with
  | nil => rfl
  | cons first rest inductionHypothesis =>
      have greater : compare name first.1 = .gt :=
        Std.OrientedCmp.gt_iff_lt.mpr (last first List.mem_cons_self)
      rw [Entries.insert, greater, List.cons_append]
      rw [inductionHypothesis fun member later => last member (List.mem_cons_of_mem first later)]

/-- Members that stand in order are an object as they are. -/
theorem ofList_of_ascending {members : Args} (ascending : members.Ascending) :
    ofList members = members := by
  have built : ∀ (members args : Args), (args ++ members).Ascending →
      members.foldl (fun args member => args.insert member.1 member.2) args = args ++ members := by
    intro members
    induction members with
    | nil => exact fun args _ => (List.append_nil args).symm
    | cons first rest inductionHypothesis =>
        intro args ascending
        have before := (List.pairwise_append.mp ascending).2.2
        have last : ∀ member ∈ args, compare member.1 first.1 = .lt :=
          fun member listed => before member listed first List.mem_cons_self
        rw [List.foldl_cons, insert_of_last last, inductionHypothesis, List.append_assoc,
          List.singleton_append]
        rwa [List.append_assoc, List.singleton_append]
  exact built members [] ascending

end Args

namespace Json

/-- Every number in the value is an integer that fits 64 bits, or zero with a sign. -/
inductive Whole : Json → Prop where
  | null : Whole .null
  | bool (value : Bool) : Whole (.bool value)
  | integer {value : Int} (least : leastInteger ≤ value) (bound : value < unsignedBound) :
      Whole (.integer value)
  | negativeZero : Whole (.double (.zero true))
  | string (value : String) : Whole (.string value)
  | array {items : List Json} (each : ∀ item ∈ items, Whole item) : Whole (.array items)
  | object {members : Args} (each : ∀ member ∈ members, Whole member.2) : Whole (.object members)

/-! ## Integral numerals -/

namespace Numeral

/-- The integer in front of a fraction and an exponent. -/
def signed (numeral : Numeral) : Int :=
  if numeral.negative then -(Nat.ofDigitChars 10 numeral.whole 0 : Int)
  else Nat.ofDigitChars 10 numeral.whole 0

/-- Written without a fraction and without an exponent, and within 64 bits. -/
structure Integral (numeral : Numeral) : Prop where
  fraction : numeral.fraction = none
  exponent : numeral.exponent = none
  least : leastInteger ≤ numeral.signed
  bound : numeral.signed < unsignedBound

instance : DecidablePred Integral := fun numeral =>
  decidable_of_iff
    ((numeral.fraction.isNone = true ∧ numeral.exponent.isNone = true) ∧
      leastInteger ≤ numeral.signed ∧ numeral.signed < unsignedBound)
    ⟨fun parts => ⟨Option.isNone_iff_eq_none.mp parts.1.1, Option.isNone_iff_eq_none.mp parts.1.2,
      parts.2.1, parts.2.2⟩,
    fun integral => ⟨⟨Option.isNone_iff_eq_none.mpr integral.fraction,
      Option.isNone_iff_eq_none.mpr integral.exponent⟩, integral.least, integral.bound⟩⟩

theorem Integral.value?_eq {numeral : Numeral} (integral : numeral.Integral) :
    numeral.value? =
      if numeral.negative && Nat.ofDigitChars 10 numeral.whole 0 == 0 then
        some (.double (.zero true))
      else some (.integer numeral.signed) := by
  obtain ⟨negative, whole, fraction, exponent⟩ := numeral
  obtain ⟨noFraction, noExponent, least, bound⟩ := integral
  cases noFraction
  cases noExponent
  have fits : decide (leastInteger ≤ signed ⟨negative, whole, none, none⟩ ∧
      signed ⟨negative, whole, none, none⟩ < unsignedBound) = true :=
    decide_eq_true ⟨least, bound⟩
  unfold value?
  dsimp only [Option.getD_none]
  rw [List.append_nil]
  cases zero : negative && Nat.ofDigitChars 10 whole 0 == 0 with
  | true =>
      obtain ⟨minus, nothing⟩ := Bool.and_eq_true_iff.mp zero
      rw [beq_iff_eq] at nothing
      rw [if_neg (by simp), if_pos rfl, minus, nothing]
      rfl
  | false =>
      rw [if_pos, if_neg Bool.false_ne_true]
      · rfl
      · exact fits

theorem Integral.whole_value {numeral : Numeral} (integral : numeral.Integral) {number : Json}
    (denotes : numeral.value? = some number) : Whole number := by
  rw [integral.value?_eq] at denotes
  split at denotes
  · cases denotes
    exact .negativeZero
  · cases denotes
    exact .integer integral.least integral.bound

end Numeral

/-! ## Ends of values -/

/-- A value ends here: the text is over, or a character follows that stands behind values. -/
def Ends (rest : List Char) : Prop :=
  ∀ c ∈ rest.head?, c = ',' ∨ c = ']' ∨ c = '\x7d'

theorem ends_cons {c : Char} (rest : List Char) (closing : c = ',' ∨ c = ']' ∨ c = '\x7d') :
    Ends (c :: rest) := by
  intro other member
  cases member
  exact closing

theorem skipBlanks_cons {c : Char} (printed : isBlank c = false) (rest : List Char) :
    skipBlanks (c :: rest) = c :: rest :=
  List.dropWhile_cons_of_neg (Bool.eq_false_iff.mp printed)

/-- What stands behind a value does not continue a number. -/
theorem ends_first {c : Char} {rest : List Char} (ends : Ends (c :: rest)) :
    c.isDigit = false ∧ c ≠ '.' ∧ c ≠ 'e' ∧ c ≠ 'E' := by
  rcases ends c rfl with rfl | rfl | rfl <;> decide

theorem Ends.isDigit_head {rest : List Char} (ends : Ends rest) :
    ∀ c ∈ rest.head?, c.isDigit = false := by
  intro c member
  cases rest with
  | nil => cases member
  | cons first later =>
      cases member
      exact (ends_first ends).1

/-! ## Numbers -/

theorem toDigits_ne_zero_cons (value : Nat) (next : Char) (rest : List Char) :
    Nat.toDigits 10 value ≠ '0' :: next :: rest := by
  have first : ∀ value, 0 < value → ∀ rest, Nat.toDigits 10 value ≠ '0' :: rest := by
    intro value
    induction value using Nat.strongRecOn with
    | ind value inductionHypothesis =>
        intro positive rest same
        by_cases single : value < 10
        · have table : ∀ value < 10, 0 < value → Nat.toDigits 10 value ≠ ['0'] := by decide
          have digit : (Nat.toDigits 10 value).length = 1 := by
            rw [Nat.toDigits_of_lt_base single]
            rfl
          rw [same] at digit
          rw [List.eq_nil_of_length_eq_zero (Nat.succ.inj digit)] at same
          exact table value single positive same
        · rw [Nat.toDigits_of_base_le (by decide) (Nat.not_lt.mp single)] at same
          obtain ⟨head, tail, split⟩ := List.exists_cons_of_ne_nil
            (Nat.toDigits_ne_nil : Nat.toDigits 10 (value / 10) ≠ [])
          rw [split, List.cons_append] at same
          rw [(List.cons.inj same).1] at split
          exact inductionHypothesis (value / 10) (by omega) (by omega) tail split
  intro same
  rcases Nat.eq_zero_or_pos value with rfl | positive
  · cases same
  · exact first value positive _ same

theorem readDigits_append {digits rest : List Char} (occupied : digits ≠ [])
    (each : ∀ c ∈ digits, c.isDigit = true) (ends : ∀ c ∈ rest.head?, c.isDigit = false) :
    readDigits (digits ++ rest) = some (digits, rest) := by
  have taken : (digits ++ rest).takeWhile Char.isDigit = digits := by
    rw [List.takeWhile_append_of_pos each]
    cases rest with
    | nil => simp
    | cons c later => simp [ends c rfl]
  have dropped : (digits ++ rest).dropWhile Char.isDigit = rest := by
    rw [List.dropWhile_append_of_pos each]
    cases rest with
    | nil => rfl
    | cons c later => simp [ends c rfl]
  unfold readDigits
  rw [taken, dropped]
  cases digits with
  | nil => exact absurd rfl occupied
  | cons first later => rfl

theorem readWhole_toDigits (size : Nat) {rest : List Char}
    (ends : ∀ c ∈ rest.head?, c.isDigit = false) :
    readWhole (Nat.toDigits 10 size ++ rest) = some (Nat.toDigits 10 size, rest) := by
  have digits := readDigits_append Nat.toDigits_ne_nil
    (fun _ member => Nat.isDigit_of_mem_toDigits (b := 10) (n := size) (by decide) (by decide)
      member) ends
  unfold readWhole
  rw [digits]
  simp only [Option.bind_eq_bind, Option.bind_some]
  split
  · next first later split => exact absurd split (toDigits_ne_zero_cons size first later)
  · rfl

theorem readFraction_of_ends {rest : List Char} (ends : Ends rest) :
    readFraction rest = some (none, rest) := by
  unfold readFraction
  split
  · exact absurd rfl (ends_first ends).2.1
  · rfl

theorem readExponent_of_ends {rest : List Char} (ends : Ends rest) :
    readExponent rest = some (none, rest) := by
  cases rest with
  | nil => rfl
  | cons c later =>
      have first := ends_first ends
      have other : ¬(c = 'e' ∨ c = 'E') := fun letter => letter.elim first.2.2.1 first.2.2.2
      rw [readExponent, if_neg other]

/-- The numeral of printed digits, the sign already taken. -/
private theorem readNumeral_digits (size : Nat) {rest : List Char} (ends : Ends rest) :
    readNumeral (Nat.toDigits 10 size ++ rest) =
        some (⟨false, Nat.toDigits 10 size, none, none⟩, rest) ∧
      readNumeral ('-' :: (Nat.toDigits 10 size ++ rest)) =
        some (⟨true, Nat.toDigits 10 size, none, none⟩, rest) := by
  have whole : readWhole (Nat.toDigits 10 size ++ rest) =
      some (Nat.toDigits 10 size, rest) :=
    readWhole_toDigits size ends.isDigit_head
  obtain ⟨first, later, split⟩ := List.exists_cons_of_ne_nil
    (Nat.toDigits_ne_nil : Nat.toDigits 10 size ≠ [])
  have digit : first.isDigit = true :=
    Nat.isDigit_of_mem_toDigits (b := 10) (n := size) (by decide) (by decide)
      (split ▸ List.mem_cons_self)
  have unsigned : ∀ tail, Nat.toDigits 10 size ++ rest ≠ '-' :: tail := by
    intro tail same
    rw [split, List.cons_append] at same
    rw [(List.cons.inj same).1] at digit
    cases digit
  constructor
  · unfold readNumeral
    split
    next negative tail same =>
      split at same
      · next minus => exact absurd minus (unsigned _)
      · cases same
        simp only [whole, readFraction_of_ends ends, readExponent_of_ends ends, Option.bind_eq_bind,
          Option.bind_some]
  · simp only [readNumeral, whole, readFraction_of_ends ends, readExponent_of_ends ends,
      Option.bind_eq_bind, Option.bind_some]

/-- The integer of printed digits behind their sign. -/
private theorem signed_digits (value : Int) :
    Numeral.signed ⟨decide (value < 0), Nat.toDigits 10 value.natAbs, none, none⟩ = value := by
  rw [Numeral.signed, Nat.ofDigitChars_ten_toDigits]
  split
  · next negative =>
      have below : value < 0 := of_decide_eq_true negative
      omega
  · next positive =>
      have above : ¬value < 0 := fun below => positive (decide_eq_true below)
      omega

theorem readNumeral_integerChars (value : Int) {rest : List Char} (ends : Ends rest) :
    readNumeral (integerChars value ++ rest) =
      some (⟨decide (value < 0), Nat.toDigits 10 value.natAbs, none, none⟩, rest) := by
  obtain ⟨natural, minus⟩ := readNumeral_digits value.natAbs ends
  unfold integerChars
  split
  · next negative =>
      rw [List.cons_append, minus, decide_eq_true negative]
  · next positive =>
      rw [natural, decide_eq_false positive]

theorem readNumber_integerChars {value : Int} (least : leastInteger ≤ value)
    (bound : value < unsignedBound) {rest : List Char} (ends : Ends rest) :
    readNumber (integerChars value ++ rest) = some (.integer value, rest) := by
  have signed := signed_digits value
  have integral : Numeral.Integral
      ⟨decide (value < 0), Nat.toDigits 10 value.natAbs, none, none⟩ :=
    ⟨rfl, rfl, signed.symm ▸ least, signed.symm ▸ bound⟩
  have nonzero : ¬((decide (value < 0) &&
      Nat.ofDigitChars 10 (Nat.toDigits 10 value.natAbs) 0 == 0) = true) := by
    rw [Nat.ofDigitChars_ten_toDigits, Bool.and_eq_true, decide_eq_true_iff, beq_iff_eq]
    rintro ⟨negative, zero⟩
    rw [Int.natAbs_eq_zero.mp zero] at negative
    cases negative
  have number := integral.value?_eq
  rw [if_neg nonzero, signed] at number
  unfold readNumber
  rw [readNumeral_integerChars value ends]
  simp only [Option.bind_eq_bind, Option.bind_some, number]

/-- The text `-0.0`, the print of zero with a sign. -/
theorem readNumber_negativeZero {rest : List Char} (ends : Ends rest) :
    readNumber ((Binary64.zero true).toChars ++ rest) =
      some (.double (.zero true), rest) := by
  have fraction : readDigits ('0' :: rest) = some (['0'], rest) := by
    apply readDigits_append (List.cons_ne_nil '0' [])
    · intro c member
      rw [List.mem_singleton.mp member]
      rfl
    · exact ends.isDigit_head
  have text : (Binary64.zero true).toChars ++ rest = '-' :: '0' :: '.' :: '0' :: rest := rfl
  have whole : readWhole ('0' :: '.' :: '0' :: rest) = some (['0'], '.' :: '0' :: rest) := rfl
  have denotes : Numeral.value? ⟨true, ['0'], some ['0'], none⟩ =
      some (.double (.zero true)) := rfl
  rw [text, readNumber, readNumeral]
  simp only [whole, readFraction, fraction, readExponent_of_ends ends, denotes,
    Option.bind_eq_bind, Option.bind_some]

/-! ## Items between commas -/

/-- The texts of the items with commas between them. -/
def separated {α : Type} (print : α → List Char) : List α → List Char
  | [] => []
  | [item] => print item
  | item :: next :: rest => print item ++ ',' :: separated print (next :: rest)

/-- A member of an object: its name, a colon and its value. -/
def printMember (member : String × Json) : List Char :=
  quoted member.1.toList ++ ':' :: print member.2

theorem printItems_eq (items : List Json) : printItems items = separated print items := by
  match items with
  | [] => rfl
  | [_] => rfl
  | _ :: next :: rest => rw [printItems, separated, printItems_eq (next :: rest)]

theorem printMembers_eq (members : List (String × Json)) :
    printMembers members = separated printMember members := by
  match members with
  | [] => rfl
  | [_] => rfl
  | _ :: next :: rest => rw [printMembers, separated, printMembers_eq (next :: rest), printMember]

/-- How printed items begin: with no blank, and with neither of the closing characters. -/
def Begins (text : List Char) : Prop :=
  ∃ c rest, text = c :: rest ∧ isBlank c = false ∧ c ≠ ']' ∧ c ≠ '\x7d'

theorem Begins.skipBlanks {text : List Char} (begins : Begins text) (rest : List Char) :
    skipBlanks (text ++ rest) = text ++ rest := by
  obtain ⟨c, later, rfl, visible, -, -⟩ := begins
  exact skipBlanks_cons visible (later ++ rest)

/-- The printed item reads back in front of the end of a value, if it fits; if it does not fit,
nothing is read. -/
structure Recovers {α : Type} (element : Reader α) (print : α → List Char) (fits : α → Bool)
    (item : α) : Prop where
  begins : Begins (print item)
  read : ∀ rest, Ends rest →
    element (print item ++ rest) = if fits item then some (item, rest) else none

section Enclosed

variable {α : Type} {element : Reader α} {print : α → List Char} {fits : α → Bool} {close : Char}

theorem begins_separated {items : List α} (occupied : items ≠ [])
    (each : ∀ item ∈ items, Recovers element print fits item) :
    Begins (separated print items) := by
  match items with
  | [] => exact absurd rfl occupied
  | [item] => exact (each item List.mem_cons_self).begins
  | item :: _ :: _ =>
      obtain ⟨c, rest, start, visible⟩ := (each item List.mem_cons_self).begins
      rw [separated, start]
      exact ⟨c, _, rfl, visible⟩

theorem length_le_length_separated (items : List α)
    (each : ∀ item ∈ items, Recovers element print fits item) :
    items.length ≤ (separated print items).length := by
  match items with
  | [] => exact Nat.le_refl 0
  | [item] =>
      obtain ⟨c, rest, start, -⟩ := (each item List.mem_cons_self).begins
      rw [separated, start]
      exact Nat.succ_le_succ (Nat.zero_le _)
  | item :: next :: rest =>
      have later := length_le_length_separated (next :: rest)
        (fun other member => each other (List.mem_cons_of_mem item member))
      obtain ⟨c, tail, start, -⟩ := (each item List.mem_cons_self).begins
      simp only [separated, start, List.length_append, List.length_cons] at later ⊢
      omega

theorem readElements_separated (closing : close = ']' ∨ close = '\x7d') {bound : Nat}
    {items : List α} (occupied : items ≠ []) (enough : items.length ≤ bound)
    (each : ∀ item ∈ items, Recovers element print fits item) (rest : List Char) :
    readElements close element bound (separated print items ++ close :: rest) =
      if items.all fits then some (items, rest) else none := by
  have visible : isBlank close = false := by rcases closing with rfl | rfl <;> rfl
  have ends : Ends (close :: rest) := ends_cons rest (.inr closing)
  have comma : ',' ≠ close := by rcases closing with rfl | rfl <;> decide
  induction items generalizing bound with
  | nil => exact absurd rfl occupied
  | cons item later inductionHypothesis =>
      obtain ⟨smaller, rfl⟩ : ∃ smaller, bound = smaller + 1 :=
        Nat.exists_eq_succ_of_ne_zero (Nat.ne_of_gt (Nat.lt_of_lt_of_le (Nat.succ_pos _) enough))
      have first := each item List.mem_cons_self
      cases later with
      | nil =>
          rw [separated, readElements, first.begins.skipBlanks, first.read _ ends, List.all_cons,
            List.all_nil, Bool.and_true]
          cases fits item with
          | false => rfl
          | true =>
              simp only [if_true, Option.bind_eq_bind, Option.bind_some, skipBlanks_cons visible]
      | cons next others =>
          have tail := inductionHypothesis (List.cons_ne_nil next others)
            (Nat.le_of_succ_le_succ enough)
            (fun other member => each other (List.mem_cons_of_mem item member))
          have text : separated print (item :: next :: others) ++ close :: rest =
              print item ++ ',' :: (separated print (next :: others) ++ close :: rest) := by
            rw [separated, List.append_assoc, List.cons_append]
          rw [text, readElements, first.begins.skipBlanks,
            first.read _ (ends_cons _ (.inl rfl)), List.all_cons]
          cases fits item with
          | false => rfl
          | true =>
              simp only [if_true, Option.bind_eq_bind, Option.bind_some,
                skipBlanks_cons (c := ',') rfl, if_neg comma, tail, Bool.true_and]
              split <;> rfl

theorem readEnclosed_separated (closing : close = ']' ∨ close = '\x7d') {items : List α}
    (each : ∀ item ∈ items, Recovers element print fits item) (rest : List Char) :
    readEnclosed close element (separated print items ++ close :: rest) =
      if items.all fits then some (items, rest) else none := by
  cases items with
  | nil =>
      have visible : isBlank close = false := by rcases closing with rfl | rfl <;> rfl
      rw [separated, List.nil_append, readEnclosed, skipBlanks_cons visible]
      simp only [if_true, List.all_nil]
  | cons item later =>
      have occupied := List.cons_ne_nil item later
      have begins := begins_separated occupied each
      have enough : (item :: later).length ≤
          (separated print (item :: later) ++ close :: rest).length := by
        rw [List.length_append]
        exact Nat.le_add_right_of_le (length_le_length_separated _ each)
      rw [readEnclosed, begins.skipBlanks]
      obtain ⟨c, tail, start, -, notBracket, notBrace⟩ := begins
      have apart : c ≠ close := by
        rcases closing with rfl | rfl
        · exact notBracket
        · exact notBrace
      rw [start, List.cons_append] at enough ⊢
      simp only [if_neg apart]
      rw [← List.cons_append, ← start] at enough ⊢
      exact readElements_separated closing occupied enough each rest

end Enclosed

/-! ## Values -/

theorem depthOfItems_le_iff {items : List Json} {levels : Nat} :
    depthOfItems items ≤ levels ↔ ∀ item ∈ items, depth item ≤ levels := by
  induction items with
  | nil => simp [depthOfItems]
  | cons item rest inductionHypothesis =>
      rw [depthOfItems, Nat.max_le, inductionHypothesis, List.forall_mem_cons]

theorem depthOfMembers_le_iff {members : Args} {levels : Nat} :
    depthOfMembers members ≤ levels ↔ ∀ member ∈ members, depth member.2 ≤ levels := by
  induction members with
  | nil => simp [depthOfMembers]
  | cons member rest inductionHypothesis =>
      rw [depthOfMembers, Nat.max_le, inductionHypothesis, List.forall_mem_cons]

theorem begins_of_isNumeric {c : Char} (numeric : isNumeric c = true) (rest : List Char) :
    Begins (c :: rest) := by
  refine ⟨c, rest, rfl, ?_, ?_, ?_⟩
  · cases blank : isBlank c with
    | false => rfl
    | true =>
        simp only [isBlank, Bool.or_eq_true, decide_eq_true_iff] at blank
        rcases blank with ((rfl | rfl) | rfl) | rfl <;> cases numeric
  · rintro rfl
    cases numeric
  · rintro rfl
    cases numeric

theorem Whole.begins {value : Json} (whole : Whole value) : Begins value.print := by
  cases whole with
  | null => exact ⟨'n', _, rfl, rfl, by decide, by decide⟩
  | bool value =>
      cases value with
      | false => exact ⟨'f', _, rfl, rfl, by decide, by decide⟩
      | true => exact ⟨'t', _, rfl, rfl, by decide, by decide⟩
  | @integer value least bound =>
      obtain ⟨c, rest, start⟩ := List.exists_cons_of_ne_nil (integerChars_ne_nil value)
      rw [print, start]
      exact begins_of_isNumeric (isNumeric_of_mem_integerChars (start ▸ List.mem_cons_self)) rest
  | negativeZero => exact ⟨'-', _, rfl, rfl, by decide, by decide⟩
  | string value => exact ⟨'"', _, rfl, rfl, by decide, by decide⟩
  | array each => exact ⟨'[', _, by rw [print, List.cons_append], rfl, by decide, by decide⟩
  | object each => exact ⟨'\x7b', _, by rw [print, List.cons_append], rfl, by decide, by decide⟩

/-- In front of a number every reader of values is the reader of numbers. -/
theorem readValue_of_isNumeric {c : Char} (numeric : isNumeric c = true) (levels : Nat)
    (rest : List Char) : readValue levels (c :: rest) = readNumber (c :: rest) := by
  have scalar : readScalar (c :: rest) = readNumber (c :: rest) := by
    unfold readScalar
    split
    · next same => cases same; cases numeric
    · next same => cases same; cases numeric
    · next same => cases same; cases numeric
    · next same => cases same; cases numeric
    · rfl
  cases levels with
  | zero => exact scalar
  | succ levels =>
      unfold readValue
      split
      · next same => cases same; cases numeric
      · next same => cases same; cases numeric
      · exact scalar

theorem readValue_integerChars {value : Int} (least : leastInteger ≤ value)
    (bound : value < unsignedBound) (levels : Nat) {rest : List Char} (ends : Ends rest) :
    readValue levels (integerChars value ++ rest) = some (.integer value, rest) := by
  have number := readNumber_integerChars least bound ends
  obtain ⟨c, later, start⟩ := List.exists_cons_of_ne_nil (integerChars_ne_nil value)
  rw [start, List.cons_append] at number ⊢
  rw [readValue_of_isNumeric (isNumeric_of_mem_integerChars (start ▸ List.mem_cons_self)), number]

theorem readValue_quoted (value : String) (levels : Nat) (rest : List Char) :
    readValue levels (quoted value.toList ++ rest) = some (.string value, rest) := by
  have scalar : readScalar (quoted value.toList ++ rest) = some (.string value, rest) := by
    have text := readString_quoted value rest
    rw [quoted, List.cons_append, List.cons_append] at text ⊢
    rw [readScalar, text]
    rfl
  cases levels with
  | zero => exact scalar
  | succ levels => exact scalar

theorem recovers_member {value : Reader Json} {fits : Json → Bool} {member : String × Json}
    (recovers : Recovers value print fits member.2) :
    Recovers (readMember value) printMember (fun member => fits member.2) member where
  begins := ⟨'"', _, by rw [printMember, quoted, List.cons_append, List.cons_append], rfl,
    by decide, by decide⟩
  read := by
    intro rest ends
    have text : printMember member ++ rest =
        quoted member.1.toList ++ ':' :: (print member.2 ++ rest) := by
      rw [printMember, List.append_assoc, List.cons_append]
    rw [text, readMember, readString_quoted]
    simp only [Option.bind_eq_bind, Option.bind_some, skipBlanks_cons (c := ':') rfl,
      recovers.begins.skipBlanks, recovers.read rest ends]
    split <;> rfl

/-- An array of items that read back one level further in. -/
theorem readValue_array {levels : Nat} {items : List Json}
    (each : ∀ item ∈ items,
      Recovers (readValue levels) print (fun item => decide (item.depth ≤ levels)) item)
    (rest : List Char) :
    readValue (levels + 1) (print (.array items) ++ rest) =
      if (Json.array items).depth ≤ levels + 1 then some (.array items, rest) else none := by
  have text : print (.array items) ++ rest =
      '[' :: (separated print items ++ ']' :: rest) := by
    rw [print, printItems_eq, List.cons_append, List.cons_append, List.append_assoc,
      List.singleton_append]
  rw [text, readValue, readEnclosed_separated (.inl rfl) each, depth]
  by_cases shallow : depthOfItems items ≤ levels
  · rw [if_pos (Nat.succ_le_succ shallow), if_pos]
    · rfl
    · exact List.all_eq_true.mpr fun item member =>
        decide_eq_true (depthOfItems_le_iff.mp shallow item member)
  · rw [if_neg (fun deep => shallow (Nat.le_of_succ_le_succ deep)), if_neg]
    · rfl
    · intro all
      apply shallow
      rw [depthOfItems_le_iff]
      intro item member
      exact of_decide_eq_true (List.all_eq_true.mp all item member)

/-- An object whose values read back one level further in. Its members come back in their order. -/
theorem readValue_object {levels : Nat} {members : List (String × Json)}
    (each : ∀ member ∈ members,
      Recovers (readValue levels) print (fun item => decide (item.depth ≤ levels)) member.2)
    (rest : List Char) :
    readValue (levels + 1) (print (.object members) ++ rest) =
      if (Json.object members).depth ≤ levels + 1 then
        some (.object (Args.ofList members), rest)
      else none := by
  have text : print (.object members) ++ rest =
      '\x7b' :: (separated printMember members ++ '\x7d' :: rest) := by
    rw [print, printMembers_eq, List.cons_append, List.cons_append, List.append_assoc,
      List.singleton_append]
  rw [text, readValue,
    readEnclosed_separated (.inr rfl) (fun member listed => recovers_member (each member listed)),
    depth]
  by_cases shallow : depthOfMembers members ≤ levels
  · rw [if_pos (Nat.succ_le_succ shallow), if_pos]
    · rfl
    · exact List.all_eq_true.mpr fun member listed =>
        decide_eq_true (depthOfMembers_le_iff.mp shallow member listed)
  · rw [if_neg (fun deep => shallow (Nat.le_of_succ_le_succ deep)), if_neg]
    · rfl
    · intro all
      apply shallow
      rw [depthOfMembers_le_iff]
      intro member listed
      exact of_decide_eq_true (List.all_eq_true.mp all member listed)

/-- Reading what was printed, with any number of levels: the value itself where they suffice for
its depth, and nothing where they do not. -/
theorem recovers_print {value : Json} (whole : Whole value) (sorted : Sorted value)
    (levels : Nat) :
    Recovers (readValue levels) print (fun value => decide (value.depth ≤ levels)) value := by
  refine ⟨whole.begins, ?_⟩
  intro rest ends
  simp only [decide_eq_true_eq]
  induction whole generalizing levels rest with
  | null => cases levels <;> rfl
  | bool value => cases levels <;> cases value <;> rfl
  | integer least bound => exact readValue_integerChars least bound levels ends
  | negativeZero =>
      rw [← readNumber_negativeZero ends]
      exact readValue_of_isNumeric rfl levels _
  | string value => exact readValue_quoted value levels rest
  | @array items each inductionHypothesis =>
      cases sorted with
      | array eachSorted =>
          cases levels with
          | zero => rw [print, depth]; rfl
          | succ levels =>
              apply readValue_array
              intro item member
              refine ⟨(each item member).begins, ?_⟩
              intro rest ends
              simp only [decide_eq_true_eq]
              exact inductionHypothesis item member (eachSorted item member) levels rest ends
  | @object members each inductionHypothesis =>
      cases sorted with
      | object ascending eachSorted =>
          cases levels with
          | zero => rw [print, depth]; rfl
          | succ levels =>
              rw [readValue_object _ rest, Args.ofList_of_ascending ascending]
              intro member listed
              refine ⟨(each member listed).begins, ?_⟩
              intro rest ends
              simp only [decide_eq_true_eq]
              exact inductionHypothesis member listed (eachSorted member listed) levels rest ends

end Json

end SessionServer
