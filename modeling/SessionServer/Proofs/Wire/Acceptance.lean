import SessionServer.Envelope
import SessionServer.Proofs.Json.Acceptance

/-!
Contract: what an envelope is read from its text, by the grammar of texts alone.

Owns:
- `Envelope.Stands`, by which a text is that of a document, blanks around it, no more than 127
  levels of nesting and no numeral too large for a double;
- `Envelope.ofDocument`, the envelope of an object by the last of its members that are called
  `value` and the last that are called `args`;
- `Envelope.parse_exact`, which tells the result of every text.
-/

namespace SessionServer

/-! ## The last member of a name -/

theorem Args.get?_ofList (members : List (String × Json)) (name : String) :
    (Args.ofList members).get? name = members.reverse.lookup name := by
  induction members using List.reverseRecOn with
  | nil => rfl
  | append_singleton members last inductionHypothesis =>
      obtain ⟨other, value⟩ := last
      have inserted : Args.ofList (members ++ [(other, value)]) =
          (Args.ofList members).insert other value := by
        rw [ofList, List.foldl_append]
        rfl
      rw [inserted, Args.get?_insert, inductionHypothesis, List.reverse_append]
      change _ = List.lookup name ((other, value) :: members.reverse)
      rw [List.lookup_cons]
      by_cases same : other = name
      · simp [same]
      · have apart : (name == other) = false := beq_eq_false_iff_ne.mpr (Ne.symm same)
        simp [same, apart]

namespace Json

theorem lookup_memberMeans {means : Document → Json → Prop} {members : List (String × Document)}
    {values : List (String × Json)} (each : List.Forall₂ (MemberMeans means) members values)
    (name : String) : Option.Rel means (members.lookup name) (values.lookup name) := by
  induction each with
  | nil => exact .none
  | @cons member value _ _ meant _ inductionHypothesis =>
      obtain ⟨same, meant⟩ := meant
      rw [List.lookup_cons, List.lookup_cons, same]
      split
      · exact .some meant
      · exact inductionHypothesis

/-! ## Integers -/

namespace Numeral

/-- The numeral writes down an integer of 64 bits, and not zero with a sign. -/
structure Exact (numeral : Numeral) : Prop where
  integral : numeral.Integral
  unsignedZero : ¬(numeral.negative = true ∧ numeral.signed = 0)

instance : DecidablePred Exact := fun numeral =>
  decidable_of_iff (numeral.Integral ∧ ¬(numeral.negative = true ∧ numeral.signed = 0))
    ⟨fun parts => ⟨parts.1, parts.2⟩, fun exact => ⟨exact.integral, exact.unsignedZero⟩⟩

theorem signed_eq_zero_iff (numeral : Numeral) :
    numeral.signed = 0 ↔ Nat.ofDigitChars 10 numeral.whole 0 = 0 := by
  unfold signed
  split <;> omega

theorem Exact.value?_eq {numeral : Numeral} (exact : numeral.Exact) :
    numeral.value? = some (.integer numeral.signed) := by
  have zero := exact.unsignedZero
  rw [signed_eq_zero_iff] at zero
  rw [exact.integral.value?_eq, if_neg]
  rwa [Bool.and_eq_true, beq_iff_eq]

/-- All other numerals write down doubles. -/
theorem exists_double {numeral : Numeral} {value : Json} (inexact : ¬numeral.Exact)
    (denotes : numeral.value? = some value) : ∃ number, value = .double number := by
  by_cases integral : numeral.Integral
  · have zero : numeral.negative = true ∧ Nat.ofDigitChars 10 numeral.whole 0 = 0 := by
      rw [← signed_eq_zero_iff]
      by_contra unsigned
      exact inexact ⟨integral, unsigned⟩
    rw [integral.value?_eq, if_pos (by rwa [Bool.and_eq_true, beq_iff_eq])] at denotes
    cases denotes
    exact ⟨_, rfl⟩
  · obtain ⟨negative, whole, fraction, exponent⟩ := numeral
    unfold value? at denotes
    extract_lets digits size signed exact shift at denotes
    split at denotes
    · next fits =>
        simp only [exact, Bool.and_eq_true, Option.isNone_iff_eq_none, decide_eq_true_eq] at fits
        obtain ⟨⟨⟨rfl, rfl⟩, -⟩, least, bound⟩ := fits
        have same : Numeral.signed ⟨negative, whole, none, none⟩ = signed := by
          simp [Numeral.signed, signed, size, digits]
        exact absurd ⟨rfl, rfl, same ▸ least, same ▸ bound⟩ integral
    · obtain ⟨number, -, rfl⟩ := Option.map_eq_some_iff.mp denotes
      exact ⟨number, rfl⟩

end Numeral

namespace Document

/-- The integer that a document writes down. -/
def integer? : Document → Option Int
  | .number numeral => if numeral.Exact then some numeral.signed else none
  | _ => none

/-- The code that a document writes down, if its integer fits 32 bits. -/
def code? (document : Document) : Option Code :=
  document.integer?.bind fun number =>
    if -0x80000000 ≤ number ∧ number < 0x80000000 then some (Int32.ofInt number) else none

/-- The arguments that an object writes down. -/
def arguments? : Document → Option Args
  | .object members => (valuesOfMembers members).map Args.ofList
  | _ => none

/-! ## What becomes of a document -/

theorem exists_forall₂ {α β : Type} {R : α → β → Prop} {items : List α}
    (each : ∀ item ∈ items, ∃ value, R item value) : ∃ values, List.Forall₂ R items values := by
  induction items with
  | nil => exact ⟨[], .nil⟩
  | cons item rest inductionHypothesis =>
      obtain ⟨⟨value, first⟩, others⟩ := List.forall_mem_cons.mp each
      obtain ⟨values, later⟩ := inductionHypothesis others
      exact ⟨value :: values, .cons first later⟩

/-- A document without an overflow has a value. -/
theorem Finite.exists_value? {document : Document} (finite : document.Finite) :
    ∃ value, document.value? = some value := by
  induction finite with
  | null => exact ⟨_, rfl⟩
  | bool value => exact ⟨_, rfl⟩
  | string value => exact ⟨_, rfl⟩
  | number bounded =>
      rw [← Numeral.value?_eq_none_iff] at bounded
      exact Option.ne_none_iff_exists'.mp bounded
  | array _ inductionHypothesis =>
      obtain ⟨values, each⟩ := exists_forall₂ inductionHypothesis
      exact ⟨.array values, Option.map_eq_some_iff.mpr
        ⟨values, valuesOf_eq_some_iff.mpr each, rfl⟩⟩
  | object _ inductionHypothesis =>
      obtain ⟨values, each⟩ := exists_forall₂
        (R := MemberMeans fun (item : Document) value => item.value? = some value)
        fun member listed => by
          obtain ⟨value, meant⟩ := inductionHypothesis member listed
          exact ⟨(member.1, value), rfl, meant⟩
      exact ⟨.object (Args.ofList values), Option.map_eq_some_iff.mpr
        ⟨values, valuesOfMembers_eq_some_iff.mpr each, rfl⟩⟩

theorem Means.code?_eq {levels : Nat} {document : Document} {value : Json}
    (meant : document.Means levels value) : value.code? = document.code? := by
  have denotes := meant.value_eq
  cases document with
  | null | bool _ | string _ =>
      cases denotes
      rfl
  | number numeral =>
      change numeral.value? = some value at denotes
      rw [code?, integer?]
      split
      · next exact =>
          rw [exact.value?_eq] at denotes
          cases denotes
          have range : ∀ number : Int, (-0x80000000 ≤ number ∧ number < 0x80000000) →
              leastInteger ≤ number ∧ number < signedBound := by
            intro number bounds
            unfold leastInteger signedBound
            omega
          by_cases word : leastInteger ≤ numeral.signed ∧ numeral.signed < signedBound
          · rw [Json.code?, Json.integer?, if_pos word]
          · rw [Json.code?, Json.integer?, if_neg word, Option.bind_some,
              if_neg (mt (range _) word)]
            rfl
      · next inexact =>
          obtain ⟨number, rfl⟩ := Numeral.exists_double inexact denotes
          rfl
  | array items | object members =>
      obtain ⟨_, -, rfl⟩ := Option.map_eq_some_iff.mp denotes
      rfl

theorem Means.members?_eq {levels : Nat} {document : Document} {value : Json}
    (meant : document.Means levels value) : value.members? = document.arguments? := by
  have denotes := meant.value_eq
  cases document with
  | null | bool _ | string _ =>
      cases denotes
      rfl
  | number numeral =>
      change numeral.value? = some value at denotes
      by_cases exact : numeral.Exact
      · rw [exact.value?_eq] at denotes
        cases denotes
        rfl
      · obtain ⟨number, rfl⟩ := Numeral.exists_double exact denotes
        rfl
  | array items =>
      obtain ⟨_, -, rfl⟩ := Option.map_eq_some_iff.mp denotes
      rfl
  | object members =>
      obtain ⟨values, found, rfl⟩ := Option.map_eq_some_iff.mp denotes
      rw [members?, arguments?, found]
      rfl

/-- Only an object means an object. -/
theorem Means.exists_object {levels : Nat} {document : Document} {members : Args}
    (meant : document.Means levels (.object members)) : ∃ items, document = .object items := by
  have denotes := meant.value_eq
  cases document with
  | null | bool _ | string _ => cases denotes
  | number numeral =>
      change numeral.value? = some (.object members) at denotes
      by_cases exact : numeral.Exact
      · rw [exact.value?_eq] at denotes
        cases denotes
      · obtain ⟨number, absurdity⟩ := Numeral.exists_double exact denotes
        cases absurdity
  | array items =>
      obtain ⟨_, -, absurdity⟩ := Option.map_eq_some_iff.mp denotes
      cases absurdity
  | object items => exact ⟨items, rfl⟩

end Document

end Json

namespace Envelope

open Json (Document Spells Padded)

/-- The text is that of the document, with blanks around it, and the document has at most 127 levels
of arrays and objects around one another and no numeral that overflows. -/
structure Stands (text : String) (document : Document) : Prop where
  spelled : Padded Spells text.toList document
  shallow : document.depth ≤ 127
  finite : document.Finite

/-- The envelope of an object: the code in the last member called `value`, and the arguments in the
last member called `args` where that is an object. -/
def ofDocument (members : List (String × Document)) : Except EnvelopeError Envelope :=
  match (members.reverse.lookup "value").bind Document.code? with
  | none => .error .missingCode
  | some value =>
      .ok ⟨value, ((members.reverse.lookup "args").bind Document.arguments?).getD .empty⟩

theorem bind_eq_of_rel {α β γ : Type} {means : α → β → Prop} {item : Option α} {value : Option β}
    (meant : Option.Rel means item value) {left : α → Option γ} {right : β → Option γ}
    (same : ∀ item value, means item value → right value = left item) :
    value.bind right = item.bind left := by
  cases meant with
  | none => rfl
  | some meant => exact same _ _ meant

/-- The code and the arguments of an object are told by the values of two members. -/
theorem ofMembers_congr {members others : Args}
    (same : ∀ name ∈ ["value", "args"], members.get? name = others.get? name) :
    ofMembers members = ofMembers others := by
  rw [ofMembers, ofMembers, same "value" (by simp), same "args" (by simp)]

section Members

variable {levels : Nat} {members : List (String × Document)} {values : List (String × Json)}
  (each : List.Forall₂ (Json.MemberMeans (Document.Means levels)) members values)
include each

/-- The members of an object yield what its document tells. -/
theorem ofMembers_ofList : ofMembers (Args.ofList values) = ofDocument members := by
  have reversed := List.forall₂_reverse_iff.mpr each
  have code := bind_eq_of_rel (Json.lookup_memberMeans reversed "value")
    fun _ _ meant => meant.code?_eq
  have args := bind_eq_of_rel (Json.lookup_memberMeans reversed "args")
    fun _ _ meant => meant.members?_eq
  rw [ofMembers, Args.get?_ofList, Args.get?_ofList, code, args]
  cases found : (members.reverse.lookup "value").bind Document.code? with
  | none => rw [ofDocument, found]
  | some value => rw [ofDocument, found]

theorem get?_ofList_values (name : String) :
    (Args.ofList values).get? name = (members.reverse.lookup name).bind Document.value? := by
  have meant := Json.lookup_memberMeans (List.forall₂_reverse_iff.mpr each) name
  have found : (values.reverse.lookup name).bind some =
      (members.reverse.lookup name).bind Document.value? :=
    bind_eq_of_rel meant fun _ _ meant => meant.value_eq.symm
  rw [Args.get?_ofList, ← found, Option.bind_fun_some]

end Members

theorem ofDocument_eq_error {members : List (String × Document)} {error : EnvelopeError}
    (failed : ofDocument members = .error error) : error = .missingCode := by
  unfold ofDocument at failed
  split at failed
  · cases failed
    rfl
  · cases failed

theorem parse?_eq_some_iff {text : String} {value : Json} :
    Json.parse? text = some value ↔
      ∃ document, Stands text document ∧ document.value? = some value := by
  rw [Json.parse?, Json.readText_eq_some_iff]
  constructor
  · rintro ⟨document, spelled, meant⟩
    exact ⟨document, ⟨spelled, meant.shallow, meant.finite⟩, meant.value_eq⟩
  · rintro ⟨document, stands, denotes⟩
    exact ⟨document, stands.spelled, stands.shallow, stands.finite, denotes⟩

theorem Stands.exists_parse? {text : String} {document : Document} (stands : Stands text document) :
    ∃ value, Json.parse? text = some value ∧ document.Means 127 value := by
  obtain ⟨value, denotes⟩ := stands.finite.exists_value?
  exact ⟨value, parse?_eq_some_iff.mpr ⟨document, stands, denotes⟩,
    stands.shallow, stands.finite, denotes⟩

theorem Stands.ne_empty {text : String} {document : Document} (stands : Stands text document) :
    text ≠ "" := by
  rintro rfl
  obtain ⟨value, read, -⟩ := stands.exists_parse?
  cases read

theorem Stands.parse_object {text : String} {members : List (String × Document)}
    (stands : Stands text (.object members)) : parse text = ofDocument members := by
  obtain ⟨value, read, meant⟩ := stands.exists_parse?
  obtain ⟨values, each, rfl⟩ := Document.means_object_iff.mp meant
  rw [parse, if_neg (by simpa using stands.ne_empty), read]
  exact ofMembers_ofList each

theorem Stands.parse_other {text : String} {document : Document} (stands : Stands text document)
    (other : ∀ members, document ≠ .object members) : parse text = .error .notObject := by
  obtain ⟨value, read, meant⟩ := stands.exists_parse?
  rw [parse, if_neg (by simpa using stands.ne_empty), read]
  cases value with
  | object members =>
      obtain ⟨items, same⟩ := meant.exists_object
      exact absurd same (other items)
  | _ => rfl

theorem parse_of_unspelled {text : String} (occupied : text ≠ "")
    (unspelled : ¬∃ document, Stands text document) : parse text = .error .invalid := by
  have unread : Json.parse? text = none := by
    rw [Option.eq_none_iff_forall_ne_some]
    intro value read
    obtain ⟨document, stands, -⟩ := parse?_eq_some_iff.mp read
    exact unspelled ⟨document, stands⟩
  rw [parse, if_neg (by simpa using occupied), unread]

/-- Every text is of one of four kinds, each with its own result. -/
theorem parse_cases (text : String) :
    text = "" ∧ parse text = .error .empty ∨
      (text ≠ "" ∧ ¬∃ document, Stands text document) ∧ parse text = .error .invalid ∨
      (∃ document, Stands text document ∧ ∀ members, document ≠ .object members) ∧
        parse text = .error .notObject ∨
      ∃ members, Stands text (.object members) ∧ parse text = ofDocument members := by
  by_cases empty : text = ""
  · exact .inl ⟨empty, (parse_eq_error_empty_iff text).mpr empty⟩
  by_cases stands : ∃ document, Stands text document
  · obtain ⟨document, stands⟩ := stands
    by_cases object : ∃ members, document = .object members
    · obtain ⟨members, rfl⟩ := object
      exact .inr (.inr (.inr ⟨members, stands, stands.parse_object⟩))
    · rw [not_exists] at object
      exact .inr (.inr (.inl ⟨⟨document, stands, object⟩, stands.parse_other object⟩))
  · exact .inr (.inl ⟨⟨empty, stands⟩, parse_of_unspelled empty stands⟩)

theorem parse_eq_error_invalid_iff (text : String) :
    parse text = .error .invalid ↔ text ≠ "" ∧ ¬∃ document, Stands text document := by
  constructor
  · intro failed
    rcases parse_cases text with ⟨-, result⟩ | ⟨unspelled, -⟩ | ⟨-, result⟩ | ⟨members, -, result⟩
    · cases result.symm.trans failed
    · exact unspelled
    · cases result.symm.trans failed
    · cases ofDocument_eq_error (result.symm.trans failed)
  · exact fun ⟨occupied, unspelled⟩ => parse_of_unspelled occupied unspelled

theorem parse_eq_error_notObject_iff (text : String) :
    parse text = .error .notObject ↔
      ∃ document, Stands text document ∧ ∀ members, document ≠ .object members := by
  constructor
  · intro failed
    rcases parse_cases text with ⟨-, result⟩ | ⟨-, result⟩ | ⟨spelled, -⟩ | ⟨members, -, result⟩
    · cases result.symm.trans failed
    · cases result.symm.trans failed
    · exact spelled
    · cases ofDocument_eq_error (result.symm.trans failed)
  · exact fun ⟨document, stands, other⟩ => stands.parse_other other

/-- Objects agree if the last of their members called `value` have the same value, and likewise
those called `args`. -/
theorem parse_congr {text other : String} {members others : List (String × Document)}
    (stands : Stands text (.object members)) (otherStands : Stands other (.object others))
    (same : ∀ name ∈ ["value", "args"], (members.reverse.lookup name).bind Document.value? =
      (others.reverse.lookup name).bind Document.value?) : parse other = parse text := by
  obtain ⟨_, -, meant⟩ := stands.exists_parse?
  obtain ⟨_, -, otherMeant⟩ := otherStands.exists_parse?
  obtain ⟨values, each, -⟩ := Document.means_object_iff.mp meant
  obtain ⟨otherValues, otherEach, -⟩ := Document.means_object_iff.mp otherMeant
  rw [stands.parse_object, otherStands.parse_object, ← ofMembers_ofList each,
    ← ofMembers_ofList otherEach]
  apply ofMembers_congr
  intro name listed
  rw [get?_ofList_values each, get?_ofList_values otherEach, same name listed]

/-- What becomes of a text is told by the grammar. It is empty, or no text of a document that fits,
or that of a document that is no object; and for an object only the last `value` and the last `args`
matter. Blanks, the order of the members, escapes, other members and earlier ones of those names do
not. -/
theorem parse_exact (text : String) :
    (parse text = .error .empty ↔ text = "") ∧
    (parse text = .error .invalid ↔ text ≠ "" ∧ ¬∃ document, Stands text document) ∧
    (parse text = .error .notObject ↔
      ∃ document, Stands text document ∧ ∀ members, document ≠ .object members) ∧
    (∀ members, Stands text (.object members) → parse text = ofDocument members) ∧
    ∀ members other others, Stands text (.object members) → Stands other (.object others) →
      (∀ name ∈ ["value", "args"], (members.reverse.lookup name).bind Document.value? =
        (others.reverse.lookup name).bind Document.value?) → parse other = parse text := by
  refine ⟨parse_eq_error_empty_iff text, parse_eq_error_invalid_iff text,
    parse_eq_error_notObject_iff text, fun members stands => stands.parse_object, ?_⟩
  intro members other others stands otherStands same
  exact parse_congr stands otherStands same

/-- Characters that need no escape spell themselves. -/
theorem spellsChars_plain {characters : List Char}
    (plain : characters.all (fun c => 0x20 ≤ c.toNat ∧ c ≠ '"' ∧ c ≠ '\\') = true) :
    Json.SpellsChars characters characters := by
  induction characters with
  | nil => exact .nil
  | cons c rest inductionHypothesis =>
      rw [List.all_cons, Bool.and_eq_true, decide_eq_true_iff] at plain
      obtain ⟨⟨visible, notQuote, notBackslash⟩, others⟩ := plain
      exact .cons (.plain visible notQuote notBackslash) (inductionHypothesis others)

/-- The later of two members called `value` counts, though its name begins with an escape. -/
theorem parse_exact_escaped :
    parse "\x7b\"value\":1,\"\\u0076alue\" : 7\x7d\n" = .ok ⟨7, .empty⟩ := by
  have numeral (digit : Char) (decimal : digit.isDigit = true) (other : digit ≠ '0') :
      Spells [digit] (.number ⟨false, [digit], none, none⟩) := by
    have occupied : Json.Digits [digit] :=
      ⟨List.cons_ne_nil _ _, List.forall_mem_singleton.mpr decimal⟩
    have canonical : Json.Canonical [digit] := .inr fun same => other (Option.some.inj same)
    exact .number (.intro .none occupied canonical .none .none)
  have plain : Json.SpellsString "\"value\"".toList "value" := by
    have letters : Json.SpellsChars "value".toList "value".toList := spellsChars_plain (by decide)
    exact .intro letters
  have escaped : Json.SpellsString "\"\\u0076alue\"".toList "value" := by
    have unit : Json.SpellsUnit "0076".toList 0x76 :=
      @Json.SpellsUnit.intro '0' '0' '7' '6' 0 0 7 6 (by decide) (by decide) (by decide) (by decide)
    have letters : Json.SpellsChars "alue".toList "alue".toList := spellsChars_plain (by decide)
    exact .intro (.cons (.codePoint (.unit unit (by decide))) letters)
  have none : Json.Blanks [] := List.forall_mem_nil _
  have space : Json.Blanks [' '] := by simp [Json.Blanks]
  have line : Json.Blanks ['\n'] := by simp [Json.Blanks]
  have first := Json.SpellsMember.intro plain none none (numeral '1' rfl (by decide))
  have second := Json.SpellsMember.intro escaped space space (numeral '7' rfl (by decide))
  have separated := Json.Separated.next (.intro none first none)
    (.last (.intro none second none))
  have spelled := Padded.intro none (Spells.object (.some separated)) line
  have stands : Stands "\x7b\"value\":1,\"\\u0076alue\" : 7\x7d\n" (.object
      [("value", .number ⟨false, ['1'], .none, .none⟩),
        ("value", .number ⟨false, ['7'], .none, .none⟩)]) := by
    refine ⟨spelled, by decide, .object ?_⟩
    have bounded (numeral : Json.Numeral) (exact : numeral.Exact) : ¬numeral.Overflows := by
      rw [← Json.Numeral.value?_eq_none_iff, exact.value?_eq]
      exact Option.some_ne_none _
    exact List.forall_mem_cons.mpr ⟨.number (bounded _ (by decide)),
      List.forall_mem_singleton.mpr (.number (bounded _ (by decide)))⟩
  exact ((parse_exact _).2.2.2.1 _ stands).trans rfl

end Envelope

end SessionServer
