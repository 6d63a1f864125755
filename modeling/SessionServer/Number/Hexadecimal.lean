/-!
Contract: hexadecimal digits, and bytes as pairs of them.

Digits are written in lower case and read in either case.
-/

namespace SessionServer.Hexadecimal

/-- The lower-case digit of a value below sixteen. -/
def digit (value : Nat) : Char := Nat.digitChar value

def value? (c : Char) : Option Nat :=
  if '0' ≤ c ∧ c ≤ '9' then some (c.toNat - '0'.toNat)
  else if 'a' ≤ c ∧ c ≤ 'f' then some (c.toNat - 'a'.toNat + 10)
  else if 'A' ≤ c ∧ c ≤ 'F' then some (c.toNat - 'A'.toNat + 10)
  else none

/-- Two digits for every byte. -/
def ofBytes (bytes : List UInt8) : String :=
  String.ofList <| bytes.flatMap fun byte => [digit (byte.toNat / 16), digit (byte.toNat % 16)]

def toBytes? : List Char → Option (List UInt8)
  | [] => some []
  | [_] => none
  | high :: low :: rest => do
      let high ← value? high
      let low ← value? low
      let bytes ← toBytes? rest
      some (UInt8.ofNat (high * 16 + low) :: bytes)

end SessionServer.Hexadecimal
