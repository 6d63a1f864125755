import SessionServer.Data.OrderedMap
import SessionServer.Number.Binary64

/-!
Contract: the values that frames carry.

Owns:
- `Json`, with integers kept exactly and every other number as a binary64 value;
- `Args`, the members of an object with their names strictly ascending, and the operations on it;
- the typed views `integer?`, `text?` and `members?`, and the nesting depth of a value.

Names are compared by code point, which orders them as their UTF-8 bytes do.

Does not own: text. Reading and printing are in `Json.Reader` and `Json.Printer`.
-/

namespace SessionServer

/-- A value of the wire format. -/
inductive Json where
  | null
  | bool (value : Bool)
  | integer (value : Int)
  | double (value : Binary64)
  | string (value : String)
  | array (items : List Json)
  | object (members : List (String × Json))
deriving Repr, Inhabited

/-- The members of an object, names ascending. -/
abbrev Args := List (String × Json)

namespace Args

def empty : Args := []

def get? (args : Args) (name : String) : Option Json := Entries.get? name args

/-- Sets a member, replacing an earlier one of that name. -/
def insert (args : Args) (name : String) (value : Json) : Args := Entries.insert name value args

/-- The object with the given members; of two members with one name the later one stays. -/
def ofList (members : List (String × Json)) : Args :=
  members.foldl (fun args member => args.insert member.1 member.2) empty

theorem get?_insert (args : Args) (name other : String) (value : Json) :
    (args.insert name value).get? other = if name = other then some value else args.get? other :=
  Entries.get?_insert name other value args

end Args

namespace Json

/-- Integers from here on are too small for 64 bits. -/
def leastInteger : Int := -0x8000000000000000

/-- Integers from here on are too large for a signed word of 64 bits. -/
def signedBound : Int := 0x8000000000000000

/-- Integers from here on are too large for 64 bits. -/
def unsignedBound : Int := 0x10000000000000000

/-- The integer of a number that fits a signed word of 64 bits. -/
def integer? : Json → Option Int
  | .integer value => if leastInteger ≤ value ∧ value < signedBound then some value else none
  | _ => none

def text? : Json → Option String
  | .string value => some value
  | _ => none

def members? : Json → Option Args
  | .object members => some members
  | _ => none

mutual

def same : Json → Json → Bool
  | .null, .null => true
  | .bool left, .bool right => left == right
  | .integer left, .integer right => left == right
  | .double left, .double right => left == right
  | .string left, .string right => left == right
  | .array left, .array right => sameItems left right
  | .object left, .object right => sameMembers left right
  | _, _ => false

def sameItems : List Json → List Json → Bool
  | [], [] => true
  | left :: leftRest, right :: rightRest => same left right && sameItems leftRest rightRest
  | _, _ => false

def sameMembers : List (String × Json) → List (String × Json) → Bool
  | [], [] => true
  | (leftName, left) :: leftRest, (rightName, right) :: rightRest =>
      leftName == rightName && same left right && sameMembers leftRest rightRest
  | _, _ => false

end

instance : BEq Json := ⟨same⟩

mutual

/-- How many arrays and objects lie around the innermost value, this one counted. -/
def depth : Json → Nat
  | .array items => depthOfItems items + 1
  | .object members => depthOfMembers members + 1
  | _ => 0

def depthOfItems : List Json → Nat
  | [] => 0
  | item :: rest => max (depth item) (depthOfItems rest)

def depthOfMembers : List (String × Json) → Nat
  | [] => 0
  | (_, value) :: rest => max (depth value) (depthOfMembers rest)

end

end Json

end SessionServer
