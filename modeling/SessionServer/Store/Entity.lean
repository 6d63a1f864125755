import SessionServer.Store.Utf8

/-!
Contract: what stores keep, what stores can do, and how they fail.

Owns:
- `EntityKey` and `Entity`, a record that carries its own key once it has one;
- `StoreError` with its texts;
- `EntityStore`, the two operations that a cache needs.
-/

namespace SessionServer

abbrev EntityKey := Int64

namespace EntityKey

/-- The key after a key; the greatest key is its own successor. -/
def next (key : EntityKey) : EntityKey := if key = Int64.maxValue then key else key + 1

end EntityKey

/-- A record that carries its key once it has one. -/
class Entity (ε : Type) where
  key? : ε → Option EntityKey
  withKey : ε → EntityKey → ε

/-- Why bytes are not an entity. -/
inductive CodecError where
  /-- The bytes end before or inside a number or a mark. -/
  | endOfFile
  /-- Fewer bytes are left than a string announces. -/
  | shortString
  /-- The mark of an optional value is neither zero nor one. -/
  | badMark (byte : UInt8)
  /-- The bytes of a string are no text. -/
  | badText (fault : Utf8.Fault)
deriving DecidableEq, Repr

namespace CodecError

def message : CodecError → String
  | .endOfFile => "io error: unexpected end of file"
  | .shortString => "io error: "
  | .badMark byte => "tag for enum is not valid, found " ++ toString byte.toNat
  | .badText fault => "string is not valid utf8: " ++ fault.message

end CodecError

/-- What the file system answers when it refuses. -/
inductive FileError where
  | noSuchEntry
  | alreadyExists
  | notDirectory
  | isDirectory
deriving DecidableEq, Repr

namespace FileError

def message : FileError → String
  | .noSuchEntry => "No such file or directory (os error 2)"
  | .alreadyExists => "File exists (os error 17)"
  | .notDirectory => "Not a directory (os error 20)"
  | .isDirectory => "Is a directory (os error 21)"

end FileError

inductive StoreError where
  | file (cause : FileError)
  | codec (cause : CodecError)
  | unavailable (reason : String)
deriving DecidableEq, Repr

namespace StoreError

def message : StoreError → String
  | .file cause => "storage i/o error: " ++ cause.message
  | .codec cause => "entity encoding error: " ++ cause.message
  | .unavailable reason => "storage unavailable: " ++ reason

end StoreError

class EntityStore (σ ε : Type) where
  load : σ → EntityKey → Except StoreError (Option ε)
  /-- Keeps an entity; one without a key is given the next free one. -/
  save : σ → ε → Except StoreError ε × σ

end SessionServer
