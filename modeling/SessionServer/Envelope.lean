import SessionServer.Json.Printer
import SessionServer.Json.Reader
import SessionServer.Protocol

/-!
Contract: the message that travels in both directions, a code with its arguments.

Owns:
- `Envelope.parse`, which says for every text whether it is an envelope and otherwise why not;
- `Envelope.toText`, the one text of an envelope, code first and arguments in name order.
-/

namespace SessionServer

/-- A code together with the arguments for its handler. -/
structure Envelope where
  value : Code
  args : Args

/-- Why a text is not an envelope. -/
inductive EnvelopeError where
  | empty
  | invalid
  | notObject
  | missingCode
deriving DecidableEq, Repr

namespace EnvelopeError

def message : EnvelopeError → String
  | .empty => "empty frame"
  | .invalid => "frame is not valid json"
  | .notObject => "frame is not a json object"
  | .missingCode => "frame has no integer `value` field"

end EnvelopeError

/-- The code that an integer value denotes, if it fits 32 bits. -/
def Json.code? (value : Json) : Option Code :=
  value.integer?.bind fun number =>
    if -0x80000000 ≤ number ∧ number < 0x80000000 then some (Int32.ofInt number) else none

namespace Envelope

instance : BEq Envelope where
  beq left right := left.value == right.value && Json.object left.args == Json.object right.args

def bare (value : Code) : Envelope := ⟨value, .empty⟩

/-- The envelope of an object: its code, and its arguments where they are an object. -/
def ofMembers (members : Args) : Except EnvelopeError Envelope :=
  match (members.get? "value").bind Json.code? with
  | none => .error .missingCode
  | some value => .ok ⟨value, ((members.get? "args").bind Json.members?).getD .empty⟩

def parse (text : String) : Except EnvelopeError Envelope :=
  if text.isEmpty then .error .empty
  else
    match Json.parse? text with
    | none => .error .invalid
    | some (.object members) => ofMembers members
    | some _ => .error .notObject

theorem parse_eq_error_empty_iff (text : String) : parse text = .error .empty ↔ text = "" := by
  unfold parse
  constructor
  · intro failed
    split at failed
    · next blank => exact String.isEmpty_iff.mp blank
    · split at failed
      · cases failed
      · unfold ofMembers at failed
        split at failed <;> cases failed
      · cases failed
  · rintro rfl
    rfl

def toChars (envelope : Envelope) : List Char :=
  "\x7b\"value\":".toList ++ Json.integerChars envelope.value.toInt ++
    ",\"args\":".toList ++ (Json.object envelope.args).print ++ ['\x7d']

def toText (envelope : Envelope) : String := String.ofList envelope.toChars

end Envelope

end SessionServer
