/-!
Contract: whole numbers as people type them.

Decimal digits, at least one, behind an optional sign; zeros in front are allowed, blanks are not.
-/

namespace SessionServer.Decimal

/-- The number of a non-empty run of decimal digits. -/
def digits? (text : List Char) : Option Nat :=
  if text.isEmpty || !text.all Char.isDigit then none else some (Nat.ofDigitChars 10 text 0)

/-- The number of digits behind an optional plus sign. -/
def natural? : List Char → Option Nat
  | '+' :: digits => digits? digits
  | text => digits? text

/-- The number of digits behind an optional sign. -/
def integer? : List Char → Option Int
  | '-' :: digits => (digits? digits).map fun size => -(size : Int)
  | text => (natural? text).map Int.ofNat

end SessionServer.Decimal
