import SessionServer.Json.Value
import SessionServer.Number.Hexadecimal
import SessionServer.Number.Shortest

/-!
Contract: the one text of a value.

No blanks are written. In strings the quote, the backslash and the characters below U+0020 are
escaped, the five with a letter of their own by that letter, and everything else stands as it is.
Members are written in the order in which the object holds them.
-/

namespace SessionServer

namespace Json

/-- One character inside a string. -/
def escape (c : Char) : List Char :=
  if c = '"' then ['\\', '"']
  else if c = '\\' then ['\\', '\\']
  else if c = '\x08' then ['\\', 'b']
  else if c = '\x0c' then ['\\', 'f']
  else if c = '\n' then ['\\', 'n']
  else if c = '\r' then ['\\', 'r']
  else if c = '\t' then ['\\', 't']
  else if c.toNat < 0x20 then
    ['\\', 'u', '0', '0', Hexadecimal.digit (c.toNat / 16), Hexadecimal.digit (c.toNat % 16)]
  else [c]

def quoted (value : List Char) : List Char := '"' :: value.flatMap escape ++ ['"']

/-- The decimal digits of an integer behind its sign. -/
def integerChars (value : Int) : List Char :=
  if value < 0 then '-' :: Nat.toDigits 10 value.natAbs else Nat.toDigits 10 value.natAbs

mutual

/-- The text of a value. -/
def print : Json → List Char
  | .null => ['n', 'u', 'l', 'l']
  | .bool true => ['t', 'r', 'u', 'e']
  | .bool false => ['f', 'a', 'l', 's', 'e']
  | .integer value => integerChars value
  | .double value => value.toChars
  | .string value => quoted value.toList
  | .array items => '[' :: printItems items ++ [']']
  | .object members => '\x7b' :: printMembers members ++ ['\x7d']

def printItems : List Json → List Char
  | [] => []
  | [item] => print item
  | item :: next :: rest => print item ++ ',' :: printItems (next :: rest)

def printMembers : List (String × Json) → List Char
  | [] => []
  | [(name, value)] => quoted name.toList ++ ':' :: print value
  | (name, value) :: next :: rest =>
      quoted name.toList ++ ':' :: print value ++ ',' :: printMembers (next :: rest)

end

def toText (value : Json) : String := String.ofList value.print

end Json

def Args.toText (args : Args) : String := (Json.object args).toText

end SessionServer
