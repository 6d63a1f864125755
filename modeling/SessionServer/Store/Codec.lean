import SessionServer.Store.Entity

/-!
Contract: the bytes of stored entities.

Owns:
- writers and readers for words of one, four and eight bytes (least significant byte first), for
  optional values behind a mark byte of zero or one, and for strings behind their length in bytes;
- `Codec`, a writer together with the reader of what it writes.

Readers take their bytes off the front and leave the rest, so an entity ends where its last field
ends and bytes behind it are ignored.
-/

namespace SessionServer

/-- The bytes of an entity and how they are read. -/
class Codec (ε : Type) where
  encode : ε → List UInt8
  read : List UInt8 → Except CodecError (ε × List UInt8)

namespace Codec

/-- Takes a value off the front of the bytes. -/
abbrev Reader (α : Type) := List UInt8 → Except CodecError (α × List UInt8)

/-- The entity at the front of the bytes. -/
def decode {ε : Type} [Codec ε] (bytes : List UInt8) : Except CodecError ε :=
  (read bytes).map Prod.fst

/-! ## Words -/

/-- The lowest `width` bytes of a number, least significant first. -/
def wordBytes : Nat → Nat → List UInt8
  | 0, _ => []
  | width + 1, value => UInt8.ofNat (value % 256) :: wordBytes width (value / 256)

/-- A number of `width` bytes. -/
def readWord : Nat → Reader Nat
  | 0, bytes => .ok (0, bytes)
  | _ + 1, [] => .error .endOfFile
  | width + 1, byte :: rest => do
      let (high, rest) ← readWord width rest
      .ok (byte.toNat + 256 * high, rest)

def encodeUInt64 (value : UInt64) : List UInt8 := wordBytes 8 value.toNat

def readUInt64 : Reader UInt64 := fun bytes => do
  let (value, rest) ← readWord 8 bytes
  .ok (UInt64.ofNat value, rest)

def encodeInt64 (value : Int64) : List UInt8 := wordBytes 8 value.toUInt64.toNat

def readInt64 : Reader Int64 := fun bytes => do
  let (value, rest) ← readWord 8 bytes
  .ok ((UInt64.ofNat value).toInt64, rest)

def encodeInt32 (value : Int32) : List UInt8 := wordBytes 4 value.toUInt32.toNat

def readInt32 : Reader Int32 := fun bytes => do
  let (value, rest) ← readWord 4 bytes
  .ok ((UInt32.ofNat value).toInt32, rest)

/-! ## Optional keys and strings -/

def encodeKey : Option Int64 → List UInt8
  | none => [0]
  | some key => 1 :: encodeInt64 key

def readKey : Reader (Option Int64)
  | [] => .error .endOfFile
  | mark :: rest =>
      if mark = 0 then .ok (none, rest)
      else if mark = 1 then do
        let (key, rest) ← readInt64 rest
        .ok (some key, rest)
      else .error (.badMark mark)

def encodeString (value : String) : List UInt8 :=
  let bytes := Utf8.encode value.toList
  wordBytes 8 bytes.length ++ bytes

def readString : Reader String := fun bytes => do
  let (length, rest) ← readWord 8 bytes
  if rest.length < length then .error .shortString
  else
    match Utf8.decode (rest.take length) with
    | .error fault => .error (.badText fault)
    | .ok text => .ok (String.ofList text, rest.drop length)

end Codec

end SessionServer
