import SessionServer.Number.Binary64

/-!
Contract: the fewest decimal digits that read back as a given binary64 value, and their layout.

Owns:
- `Binary64.Interval`, the reals that round to a value, and the decimals among them;
- `Binary64.shortest`, the first decimal grid of one to seventeen digits that has a point in that
  interval, and on it the point nearest to the value (a tie goes to the even digit);
- `Binary64.toChars`, plain notation for scientific exponents from -5 to 15 and scientific
  notation with a signed exponent otherwise.
-/

namespace SessionServer

namespace Binary64

/-! ## The interval of a value -/

/-- The value and the ends of its rounding interval over one common denominator. -/
structure Interval where
  low : Nat
  middle : Nat
  high : Nat
  denominator : Nat
  /-- Both ends belong to the interval: halves round to an even significand. -/
  closed : Bool

/-- The reals that round to a value, its sign left aside.

Below a power of two the spacing halves, so that interval reaches half as far down. -/
def interval (value : Binary64) : Interval :=
  let below := if value.significand = 0x10000000000000 ∧ minExponent < value.exponent then 1 else 2
  let (scale, denominator) := scaled 1 1 (2 - value.exponent)
  { low := (4 * value.significand - below) * scale
    middle := 4 * value.significand * scale
    high := (4 * value.significand + 2) * scale
    denominator := denominator
    closed := value.significand % 2 = 0 }

/-- Cross products that compare `digits * 10 ^ exponent` with a numerator of the interval. -/
def Interval.compareWith (interval : Interval) (digits : Nat) (exponent : Int)
    (numerator : Nat) : Ordering :=
  if exponent < 0 then
    compare (digits * interval.denominator) (numerator * Nat.pow 10 (-exponent).toNat)
  else compare (digits * Nat.pow 10 exponent.toNat * interval.denominator) numerator

/-- Whether `digits * 10 ^ exponent` rounds to the value of the interval. -/
def Interval.contains (interval : Interval) (digits : Nat) (exponent : Int) : Bool :=
  match interval.compareWith digits exponent interval.low,
      interval.compareWith digits exponent interval.high with
  | .gt, .lt => true
  | .eq, _ => interval.closed
  | .gt, .eq => interval.closed
  | _, _ => false

/-! ## The shortest decimal -/

/-- The largest `e` with `10 ^ e ≤ numerator / denominator`. -/
def decimalOrder (numerator denominator : Nat) : Int :=
  if denominator ≤ numerator then
    ((Nat.toDigits 10 (numerator / denominator)).length : Int) - 1
  else
    let length := (Nat.toDigits 10 (denominator / numerator)).length
    if denominator ≤ numerator * Nat.pow 10 (length - 1) then -((length : Int) - 1) else -(length : Int)

/-- The grid point at or below the value on the grid of multiples of `10 ^ exponent`. -/
def Interval.floorOn (interval : Interval) (exponent : Int) : Nat :=
  if exponent < 0 then interval.middle * Nat.pow 10 (-exponent).toNat / interval.denominator
  else interval.middle / (interval.denominator * Nat.pow 10 exponent.toNat)

/-- Of two neighbouring grid points the one nearer to the value; a tie goes to the even one. -/
def Interval.nearer (interval : Interval) (lower : Nat) (exponent : Int) : Nat :=
  match interval.compareWith (2 * lower + 1) exponent (2 * interval.middle) with
  | .gt => lower
  | .lt => lower + 1
  | .eq => lower + lower % 2

/-- The point of the grid of multiples of `10 ^ exponent` that is printed, if the grid has one. -/
def Interval.pointOn (interval : Interval) (exponent : Int) : Option Nat :=
  let lower := interval.floorOn exponent
  match interval.contains lower exponent, interval.contains (lower + 1) exponent with
  | true, true => some (interval.nearer lower exponent)
  | true, false => some lower
  | false, true => some (lower + 1)
  | false, false => none

/-- Tries ever finer grids, `remaining` of them, from the grid of `10 ^ exponent` on. -/
def Interval.search (interval : Interval) : Nat → Int → Nat × Int
  | 0, exponent => (interval.floorOn exponent, exponent)
  | remaining + 1, exponent =>
      match interval.pointOn exponent with
      | some point => (point, exponent)
      | none => interval.search remaining (exponent - 1)

/-- The fewest digits that read back, and the power of ten of the last one. -/
def shortest (value : Binary64) : Nat × Int :=
  let interval := value.interval
  interval.search 17 (decimalOrder interval.middle interval.denominator)

/-! ## Layout -/

/-- Which scientific exponents are written in plain notation. -/
structure PlainRange where
  least : Int
  greatest : Int

/-- Plain notation serves scientific exponents from -5 to 15. -/
def plainRange : PlainRange := ⟨-5, 15⟩

/-- Drops the zeros at the end of a digit list, all but a leading one. -/
def trimZeros (digits : List Char) : List Char :=
  match (digits.reverse.dropWhile (· = '0')).reverse with
  | [] => ['0']
  | kept => kept

/-- Digits around a decimal point that stands after `whole` digits; one digit follows it at least. -/
def plainChars (digits : List Char) (whole : Nat) : List Char :=
  let padded := digits ++ List.replicate (whole - digits.length) '0'
  let fraction := padded.drop whole
  padded.take whole ++ '.' :: (if fraction.isEmpty then ['0'] else fraction)

/-- One digit, the rest behind a point if there is a rest, and the exponent with its sign. -/
def scientificChars (digits : List Char) (exponent : Int) : List Char :=
  let mantissa :=
    match digits with
    | [] => []
    | [single] => [single]
    | first :: rest => first :: '.' :: rest
  let sign := if exponent < 0 then '-' else '+'
  mantissa ++ 'e' :: sign :: Nat.toDigits 10 exponent.natAbs

/-- The digits of `point * 10 ^ exponent` in plain or scientific notation. -/
def decimalChars (point : Nat) (exponent : Int) : List Char :=
  let written := Nat.toDigits 10 point
  let digits := trimZeros written
  let order : Int := exponent + (written.length : Int) - 1
  if order < plainRange.least ∨ plainRange.greatest < order then scientificChars digits order
  else if order < 0 then '0' :: '.' :: List.replicate (-order - 1).toNat '0' ++ digits
  else plainChars digits (order + 1).toNat

/-- The text of a value: the sign, then the shortest digits that read back. -/
def toChars (value : Binary64) : List Char :=
  let body :=
    if value.significand = 0 then ['0', '.', '0']
    else
      let (point, exponent) := value.shortest
      decimalChars point exponent
  if value.negative then '-' :: body else body

end Binary64

end SessionServer
