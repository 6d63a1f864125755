import SessionServer.Json.Value
import SessionServer.Number.Hexadecimal

/-!
Contract: reading a value from its text, with a bound on nesting.

Owns:
- `Json.Reader`, a step that takes a prefix of the text and leaves the rest;
- readers for blanks, strings, numbers, arrays, objects and whole texts;
- the rules of the format: blanks are space, tab, line feed and carriage return; control
  characters below U+0020 do not stand in strings; a surrogate escape is followed by its partner;
  of members with one name the last one counts; a number without fraction and exponent that fits
  64 bits stays an integer, all others become binary64 values, and one beyond the finite values is
  refused.

Nesting is bounded by a count of levels that decreases on the way in, so a value at level zero has
no room for an array or an object. Inside one level, loops are bounded by the length of the text.
-/

namespace SessionServer

namespace Json

/-- Takes a value off the front of the text. -/
abbrev Reader (α : Type) := List Char → Option (α × List Char)

/-! ## Blanks and words -/

def isBlank (c : Char) : Bool := c = ' ' || c = '\t' || c = '\n' || c = '\r'

def skipBlanks (text : List Char) : List Char := text.dropWhile isBlank

def word? : List Char → List Char → Option (List Char)
  | [], text => some text
  | _ :: _, [] => none
  | expected :: word, c :: rest => if c = expected then word? word rest else none

/-! ## Strings -/

def readUnit : Reader Nat
  | a :: b :: c :: d :: rest => do
      let first ← Hexadecimal.value? a
      let second ← Hexadecimal.value? b
      let third ← Hexadecimal.value? c
      let fourth ← Hexadecimal.value? d
      some (((first * 16 + second) * 16 + third) * 16 + fourth, rest)
  | _ => none

/-- The character of an escape, the text standing behind its `\u`.

A leading surrogate needs its trailing partner as a second escape; a trailing one stands alone
nowhere. -/
def readCodePoint : Reader Char := fun text => do
  let (unit, rest) ← readUnit text
  if unit < 0xD800 ∨ 0xE000 ≤ unit then some (Char.ofNat unit, rest)
  else if 0xDC00 ≤ unit then none
  else
    match rest with
    | '\\' :: 'u' :: tail => do
        let (partner, rest) ← readUnit tail
        if 0xDC00 ≤ partner ∧ partner < 0xE000 then
          some (Char.ofNat (0x10000 + (unit - 0xD800) * 0x400 + (partner - 0xDC00)), rest)
        else none
    | _ => none

/-- The character that an escape letter stands for. -/
def escapeLetter? (c : Char) : Option Char :=
  if c = '"' then some '"'
  else if c = '\\' then some '\\'
  else if c = '/' then some '/'
  else if c = 'b' then some '\x08'
  else if c = 'f' then some '\x0c'
  else if c = 'n' then some '\n'
  else if c = 'r' then some '\r'
  else if c = 't' then some '\t'
  else none

/-- One character of a string, written as itself or escaped; the closing quote is none. -/
def readChar : Reader Char
  | [] => none
  | '\\' :: 'u' :: rest => readCodePoint rest
  | '\\' :: c :: rest => do
      let character ← escapeLetter? c
      some (character, rest)
  | c :: rest => if c = '"' ∨ c = '\\' ∨ c.toNat < 0x20 then none else some (c, rest)

/-- The characters up to the closing quote; the first argument bounds their number. -/
def readChars : Nat → Reader (List Char)
  | _, '"' :: rest => some ([], rest)
  | 0, _ => none
  | bound + 1, text => do
      let (c, rest) ← readChar text
      let (characters, rest) ← readChars bound rest
      some (c :: characters, rest)

def readString : Reader String
  | '"' :: rest => do
      let (characters, rest) ← readChars rest.length rest
      some (String.ofList characters, rest)
  | _ => none

/-! ## Numbers -/

/-- The longest run of decimal digits, which must not be empty. -/
def readDigits : Reader (List Char) := fun text =>
  match text.takeWhile Char.isDigit with
  | [] => none
  | digits => some (digits, text.dropWhile Char.isDigit)

/-- Digits without a needless zero in front. -/
def readWhole : Reader (List Char) := fun text => do
  let (digits, rest) ← readDigits text
  match digits with
  | '0' :: _ :: _ => none
  | _ => some (digits, rest)

/-- The digits behind a point, or nothing where there is no point. -/
def readFraction : Reader (Option (List Char))
  | '.' :: rest => do
      let (digits, rest) ← readDigits rest
      some (some digits, rest)
  | text => some (none, text)

/-- The sign in front of an exponent's digits. -/
def readSign : List Char → Bool × List Char
  | '-' :: rest => (true, rest)
  | '+' :: rest => (false, rest)
  | text => (false, text)

def readExponent : Reader (Option Int)
  | c :: rest =>
      if c = 'e' ∨ c = 'E' then do
        let (negative, rest) := readSign rest
        let (digits, rest) ← readDigits rest
        let size : Int := Nat.ofDigitChars 10 digits 0
        some (some (if negative then -size else size), rest)
      else some (none, c :: rest)
  | [] => some (none, [])

/-- The parts of a number as written. -/
structure Numeral where
  negative : Bool
  whole : List Char
  fraction : Option (List Char)
  exponent : Option Int

/-- The number that a numeral denotes; `none` when it is beyond the finite values. -/
def Numeral.value? (numeral : Numeral) : Option Json :=
  let digits := numeral.whole ++ numeral.fraction.getD []
  let size := Nat.ofDigitChars 10 digits 0
  let signed : Int := if numeral.negative then -(size : Int) else size
  let exact : Bool :=
    numeral.fraction.isNone && numeral.exponent.isNone &&
      !(numeral.negative && size == 0) &&
      decide (leastInteger ≤ signed ∧ signed < unsignedBound)
  if exact then some (.integer signed)
  else
    let exponent := numeral.exponent.getD 0 - ((numeral.fraction.getD []).length : Int)
    (Binary64.ofDecimal numeral.negative size exponent).map .double

def readNumeral : Reader Numeral := fun text => do
  let (negative, rest) :=
    match text with
    | '-' :: rest => (true, rest)
    | _ => (false, text)
  let (whole, rest) ← readWhole rest
  let (fraction, rest) ← readFraction rest
  let (exponent, rest) ← readExponent rest
  some (⟨negative, whole, fraction, exponent⟩, rest)

def readNumber : Reader Json := fun text => do
  let (numeral, rest) ← readNumeral text
  let number ← numeral.value?
  some (number, rest)

/-! ## Arrays, objects and values -/

/-- Elements separated by commas up to the closing character; the bound is on their number. -/
def readElements {α : Type} (close : Char) (element : Reader α) : Nat → Reader (List α)
  | 0, _ => none
  | bound + 1, text => do
      let (head, rest) ← element (skipBlanks text)
      match skipBlanks rest with
      | c :: rest =>
          if c = close then some ([head], rest)
          else if c = ',' then do
            let (tail, rest) ← readElements close element bound rest
            some (head :: tail, rest)
          else none
      | [] => none

/-- The elements of an array or object, its opening character already taken. -/
def readEnclosed {α : Type} (close : Char) (element : Reader α) : Reader (List α) := fun text =>
  match skipBlanks text with
  | c :: rest => if c = close then some ([], rest) else readElements close element text.length text
  | [] => none

def readMember (value : Reader Json) : Reader (String × Json) := fun text => do
  let (name, rest) ← readString text
  match skipBlanks rest with
  | ':' :: rest => do
      let (content, rest) ← value (skipBlanks rest)
      some ((name, content), rest)
  | _ => none

def readScalar : Reader Json := fun text =>
  match text with
  | 'n' :: rest => (word? ['u', 'l', 'l'] rest).map fun rest => (.null, rest)
  | 't' :: rest => (word? ['r', 'u', 'e'] rest).map fun rest => (.bool true, rest)
  | 'f' :: rest => (word? ['a', 'l', 's', 'e'] rest).map fun rest => (.bool false, rest)
  | '"' :: _ => (readString text).map fun (value, rest) => (.string value, rest)
  | _ => readNumber text

/-- A value with at most the given number of levels of arrays and objects. -/
def readValue : Nat → Reader Json
  | 0, text => readScalar text
  | levels + 1, text =>
      match text with
      | '[' :: rest =>
          (readEnclosed ']' (readValue levels) rest).map fun (items, rest) => (.array items, rest)
      | '\x7b' :: rest =>
          (readEnclosed '\x7d' (readMember (readValue levels)) rest).map fun (members, rest) =>
            (.object (Args.ofList members), rest)
      | _ => readScalar text

/-- How many levels of arrays and objects a text may have. -/
def levelLimit : Nat := 127

/-- The value of a whole text with blanks around it. -/
def readText (levels : Nat) (text : List Char) : Option Json :=
  match readValue levels (skipBlanks text) with
  | some (value, rest) => if (skipBlanks rest).isEmpty then some value else none
  | none => none

def parse? (text : String) : Option Json := readText levelLimit text.toList

end Json

end SessionServer
