/-!
Contract: UTF-8, with the exact place and length of the first fault.

Owns:
- `Utf8.encode`, the bytes of a list of characters;
- `Utf8.decode`, which gives back the characters or says where well-formed text ends and how long
  the ill-formed part is, or that the text breaks off inside a character.

A lead byte decides how many bytes follow and which second bytes are allowed, which rules out
overlong forms, surrogates and values beyond U+10FFFF. A faulty sequence counts the bytes before
the first one that does not fit.
-/

namespace SessionServer.Utf8

/-! ## Writing -/

def encodeChar (c : Char) : List UInt8 := String.utf8EncodeChar c

def encode (text : List Char) : List UInt8 := text.flatMap encodeChar

/-! ## Reading -/

/-- The first fault of a text that is not well-formed. -/
inductive Fault where
  /-- A sequence of the given length that starts no character. -/
  | invalid (length : Nat) (index : Nat)
  /-- The text ends inside a character. -/
  | incomplete (index : Nat)
deriving DecidableEq, Repr

namespace Fault

def message : Fault → String
  | .invalid length index =>
      "invalid utf-8 sequence of " ++ toString length ++ " bytes from index " ++ toString index
  | .incomplete index => "incomplete utf-8 byte sequence from index " ++ toString index

end Fault

def isContinuation (byte : UInt8) : Bool := 0x80 ≤ byte && byte ≤ 0xBF

/-- How a character goes on after its lead byte: the range of the second byte, and the number of
continuation bytes behind that. -/
structure Shape where
  least : UInt8
  greatest : UInt8
  more : Nat

/-- The shape announced by a lead byte of a character of two to four bytes. -/
def shape? (lead : UInt8) : Option Shape :=
  if 0xC2 ≤ lead ∧ lead ≤ 0xDF then some ⟨0x80, 0xBF, 0⟩
  else if lead = 0xE0 then some ⟨0xA0, 0xBF, 1⟩
  else if lead = 0xED then some ⟨0x80, 0x9F, 1⟩
  else if 0xE1 ≤ lead ∧ lead ≤ 0xEF then some ⟨0x80, 0xBF, 1⟩
  else if lead = 0xF0 then some ⟨0x90, 0xBF, 2⟩
  else if 0xF1 ≤ lead ∧ lead ≤ 0xF3 then some ⟨0x80, 0xBF, 2⟩
  else if lead = 0xF4 then some ⟨0x80, 0x8F, 2⟩
  else none

/-- The bits that a lead byte contributes. -/
def leadBits (lead : UInt8) : Nat :=
  if lead < 0xE0 then lead.toNat - 0xC0
  else if lead < 0xF0 then lead.toNat - 0xE0
  else lead.toNat - 0xF0

/-- The bits that a byte inside a character contributes. -/
def continuationBits (byte : UInt8) : Nat := byte.toNat - 0x80

/-- Why a character could not be read: after how many bytes the fault shows, or that bytes are
missing. -/
inductive Stop where
  | invalid (length : Nat)
  | incomplete

/-- Takes continuation bytes; `seen` counts the bytes of the character so far. -/
def readMore : Nat → Nat → Nat → List UInt8 → Except Stop (Nat × List UInt8)
  | 0, _, value, bytes => .ok (value, bytes)
  | _ + 1, _, _, [] => .error .incomplete
  | more + 1, seen, value, byte :: rest =>
      if isContinuation byte then
        readMore more (seen + 1) (value * 0x40 + continuationBits byte) rest
      else .error (.invalid seen)

def readChar : List UInt8 → Except Stop (Char × List UInt8)
  | [] => .error .incomplete
  | lead :: rest =>
      if lead < 0x80 then .ok (Char.ofNat lead.toNat, rest)
      else
        match shape? lead, rest with
        | none, _ => .error (.invalid 1)
        | some _, [] => .error .incomplete
        | some shape, second :: rest =>
            if shape.least ≤ second ∧ second ≤ shape.greatest then do
              let value := leadBits lead * 0x40 + continuationBits second
              let (value, rest) ← readMore shape.more 2 value rest
              .ok (Char.ofNat value, rest)
            else .error (.invalid 1)

/-- Takes characters to the end; the bound is on their number, `index` counts the bytes before. -/
def readChars : Nat → Nat → List UInt8 → Except Fault (List Char)
  | _, _, [] => .ok []
  | 0, index, _ => .error (.incomplete index)
  | bound + 1, index, bytes =>
      match readChar bytes with
      | .error (.invalid length) => .error (.invalid length index)
      | .error .incomplete => .error (.incomplete index)
      | .ok (c, rest) => do
          let tail ← readChars bound (index + (bytes.length - rest.length)) rest
          .ok (c :: tail)

def decode (bytes : List UInt8) : Except Fault (List Char) := readChars bytes.length 0 bytes

end SessionServer.Utf8
