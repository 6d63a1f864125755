import SessionServer.Proofs.Json.Printing
import SessionServer.Proofs.Number.Overflow

/-!
Contract: the texts of the format, told by a grammar that knows nothing of any reader.

Owns:
- the relations by which a piece of text spells a character, a string, a numeral, and the elements
  of a list with blanks around each of them;
- `Json.Document`, the tree of a text. It keeps numerals as they are written and all members of an
  object in their order, and forgets blanks and escapes;
- `Json.Spells`, by which a text spells a document, and the depth, the value and the numerals of a
  document.

In every relation the text stands in front of what it spells.
-/

namespace SessionServer.Json

/-! ## Blanks -/

/-- Spaces, tabs, line feeds and carriage returns. -/
def Blanks (text : List Char) : Prop := ∀ c ∈ text, c = ' ' ∨ c = '\t' ∨ c = '\n' ∨ c = '\r'

/-- A piece of text with blanks around it. -/
inductive Padded {α : Type} (spells : List Char → α → Prop) : List Char → α → Prop where
  | intro {before token after : List Char} {value : α} (ahead : Blanks before)
      (spelled : spells token value) (behind : Blanks after) :
      Padded spells (before ++ (token ++ after)) value

/-! ## Strings -/

/-- A hexadecimal digit in either case. -/
def HexDigit (c : Char) (value : Nat) : Prop :=
  value < 16 ∧ (c = Nat.digitChar value ∨ c = (Nat.digitChar value).toUpper)

/-- The four hexadecimal digits of a unit of sixteen bits. -/
inductive SpellsUnit : List Char → Nat → Prop where
  | intro {a b c d : Char} {first second third fourth : Nat} (ofFirst : HexDigit a first)
      (ofSecond : HexDigit b second) (ofThird : HexDigit c third) (ofFourth : HexDigit d fourth) :
      SpellsUnit [a, b, c, d] (((first * 16 + second) * 16 + third) * 16 + fourth)

/-- What stands behind the `\u` of an escape: a unit that is no surrogate, or a leading surrogate
with the escape of a trailing one. -/
inductive SpellsCodePoint : List Char → Char → Prop where
  | unit {digits : List Char} {unit : Nat} (spelled : SpellsUnit digits unit)
      (scalar : unit < 0xD800 ∨ 0xE000 ≤ unit) : SpellsCodePoint digits (Char.ofNat unit)
  | pair {digits others : List Char} {leading trailing : Nat} (spelled : SpellsUnit digits leading)
      (isLeading : 0xD800 ≤ leading ∧ leading < 0xDC00) (partner : SpellsUnit others trailing)
      (isTrailing : 0xDC00 ≤ trailing ∧ trailing < 0xE000) :
      SpellsCodePoint (digits ++ '\\' :: 'u' :: others)
        (Char.ofNat (0x10000 + (leading - 0xD800) * 0x400 + (trailing - 0xDC00)))

/-- The letters of the short escapes with the characters for which they stand. -/
def escapeLetters : List (Char × Char) :=
  [('"', '"'), ('\\', '\\'), ('/', '/'), ('b', '\x08'), ('f', '\x0c'), ('n', '\n'), ('r', '\r'),
    ('t', '\t')]

/-- A character of a string: any but quotes, backslashes and control characters as itself, and any
by an escape. -/
inductive SpellsChar : List Char → Char → Prop where
  | plain {c : Char} (visible : 0x20 ≤ c.toNat) (notQuote : c ≠ '"') (notBackslash : c ≠ '\\') :
      SpellsChar [c] c
  | letter {letter c : Char} (listed : (letter, c) ∈ escapeLetters) : SpellsChar ['\\', letter] c
  | codePoint {token : List Char} {c : Char} (spelled : SpellsCodePoint token c) :
      SpellsChar ('\\' :: 'u' :: token) c

inductive SpellsChars : List Char → List Char → Prop where
  | nil : SpellsChars [] []
  | cons {token rest : List Char} {c : Char} {characters : List Char} (first : SpellsChar token c)
      (others : SpellsChars rest characters) : SpellsChars (token ++ rest) (c :: characters)

inductive SpellsString : List Char → String → Prop where
  | intro {inner characters : List Char} (spelled : SpellsChars inner characters) :
      SpellsString ('"' :: (inner ++ ['"'])) (String.ofList characters)

/-! ## Numerals -/

/-- Decimal digits, at least one. -/
def Digits (text : List Char) : Prop := text ≠ [] ∧ ∀ c ∈ text, c.isDigit = true

/-- No digit stands behind a leading zero. -/
def Canonical (whole : List Char) : Prop := whole = ['0'] ∨ whole.head? ≠ some '0'

inductive SpellsMinus : List Char → Bool → Prop where
  | none : SpellsMinus [] false
  | minus : SpellsMinus ['-'] true

/-- A fraction is optional. -/
inductive SpellsFraction : List Char → Option (List Char) → Prop where
  | none : SpellsFraction [] none
  | some {digits : List Char} (occupied : Digits digits) :
      SpellsFraction ('.' :: digits) (some digits)

/-- The sign of an exponent is optional. -/
inductive SpellsSign : List Char → Bool → Prop where
  | none : SpellsSign [] false
  | plus : SpellsSign ['+'] false
  | minus : SpellsSign ['-'] true

/-- An exponent is optional. -/
inductive SpellsExponent : List Char → Option Int → Prop where
  | none : SpellsExponent [] none
  | some {letter : Char} {sign digits : List Char} {negative : Bool}
      (letters : letter = 'e' ∨ letter = 'E') (signed : SpellsSign sign negative)
      (occupied : Digits digits) :
      SpellsExponent (letter :: (sign ++ digits))
        (some (if negative then -(Nat.ofDigitChars 10 digits 0 : Int)
          else Nat.ofDigitChars 10 digits 0))

inductive SpellsNumeral : List Char → Numeral → Prop where
  | intro {sign whole point power : List Char} {negative : Bool} {fraction : Option (List Char)}
      {exponent : Option Int} (signed : SpellsMinus sign negative) (occupied : Digits whole)
      (canonical : Canonical whole) (parts : SpellsFraction point fraction)
      (scale : SpellsExponent power exponent) :
      SpellsNumeral (sign ++ (whole ++ (point ++ power))) ⟨negative, whole, fraction, exponent⟩

/-! ## Lists -/

section Lists

variable {α : Type} (spells : List Char → α → Prop)

/-- Elements with commas between them, at least one. -/
inductive Separated : List Char → List α → Prop where
  | last {text : List Char} {item : α} (spelled : Padded spells text item) : Separated text [item]
  | next {text rest : List Char} {item : α} {items : List α} (spelled : Padded spells text item)
      (others : Separated rest items) : Separated (text ++ ',' :: rest) (item :: items)

/-- What stands between the brackets of an array or an object. -/
inductive Listed : List Char → List α → Prop where
  | none {text : List Char} (blanks : Blanks text) : Listed text []
  | some {items : List α} {text : List Char} (separated : Separated spells text items) :
      Listed text items

/-- A name with its value. -/
inductive SpellsMember : List Char → String × α → Prop where
  | intro {quoted before after token : List Char} {name : String} {value : α}
      (named : SpellsString quoted name) (ahead : Blanks before) (behind : Blanks after)
      (spelled : spells token value) :
      SpellsMember (quoted ++ (before ++ ':' :: (after ++ token))) (name, value)

end Lists

/-! ## Documents -/

/-- The tree of a text. -/
inductive Document where
  | null
  | bool (value : Bool)
  | number (numeral : Numeral)
  | string (value : String)
  | array (items : List Document)
  | object (members : List (String × Document))

/-- The text of a document without blanks around it. -/
inductive Spells : List Char → Document → Prop where
  | null : Spells ['n', 'u', 'l', 'l'] .null
  | false : Spells ['f', 'a', 'l', 's', 'e'] (.bool false)
  | true : Spells ['t', 'r', 'u', 'e'] (.bool true)
  | number {text : List Char} {numeral : Numeral} (spelled : SpellsNumeral text numeral) :
      Spells text (.number numeral)
  | string {text : List Char} {value : String} (spelled : SpellsString text value) :
      Spells text (.string value)
  | array {inner : List Char} {items : List Document} (listed : Listed Spells inner items) :
      Spells ('[' :: (inner ++ [']'])) (.array items)
  | object {inner : List Char} {members : List (String × Document)}
      (listed : Listed (SpellsMember Spells) inner members) :
      Spells ('\x7b' :: (inner ++ ['\x7d'])) (.object members)

namespace Document

mutual

/-- How many arrays and objects lie around one another at most. -/
def depth : Document → Nat
  | .array items => depthOfItems items + 1
  | .object members => depthOfMembers members + 1
  | _ => 0

def depthOfItems : List Document → Nat
  | [] => 0
  | item :: rest => max (depth item) (depthOfItems rest)

def depthOfMembers : List (String × Document) → Nat
  | [] => 0
  | (_, value) :: rest => max (depth value) (depthOfMembers rest)

end

mutual

/-- The value of a document, if no numeral overflows. Of members with one name the last counts. -/
def value? : Document → Option Json
  | .null => some .null
  | .bool value => some (.bool value)
  | .number numeral => numeral.value?
  | .string value => some (.string value)
  | .array items => (valuesOf items).map .array
  | .object members => (valuesOfMembers members).map fun members => .object (Args.ofList members)

def valuesOf : List Document → Option (List Json)
  | [] => some []
  | item :: rest => do
      let first ← value? item
      let others ← valuesOf rest
      some (first :: others)

def valuesOfMembers : List (String × Document) → Option (List (String × Json))
  | [] => some []
  | (name, item) :: rest => do
      let first ← value? item
      let others ← valuesOfMembers rest
      some ((name, first) :: others)

end

/-- No numeral overflows. -/
inductive Finite : Document → Prop where
  | null : Finite .null
  | bool (value : Bool) : Finite (.bool value)
  | number {numeral : Numeral} (bounded : ¬numeral.Overflows) : Finite (.number numeral)
  | string (value : String) : Finite (.string value)
  | array {items : List Document} (each : ∀ item ∈ items, Finite item) : Finite (.array items)
  | object {members : List (String × Document)} (each : ∀ member ∈ members, Finite member.2) :
      Finite (.object members)

/-! ### Depth and value of the parts -/

theorem depth_array_le_iff {items : List Document} {levels : Nat} :
    (array items).depth ≤ levels + 1 ↔ ∀ item ∈ items, item.depth ≤ levels := by
  rw [depth, Nat.add_le_add_iff_right]
  induction items with
  | nil => simp [depthOfItems]
  | cons item rest inductionHypothesis =>
      rw [depthOfItems, Nat.max_le, inductionHypothesis, List.forall_mem_cons]

theorem depth_object_le_iff {members : List (String × Document)} {levels : Nat} :
    (object members).depth ≤ levels + 1 ↔ ∀ member ∈ members, member.2.depth ≤ levels := by
  rw [depth, Nat.add_le_add_iff_right]
  induction members with
  | nil => simp [depthOfMembers]
  | cons member rest inductionHypothesis =>
      rw [depthOfMembers, Nat.max_le, inductionHypothesis, List.forall_mem_cons]

end Document

end SessionServer.Json
