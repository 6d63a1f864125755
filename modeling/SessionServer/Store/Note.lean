import SessionServer.Store.Codec

/-!
Contract: the smallest entity, a text under a key.
-/

namespace SessionServer

/-- A text under a key. -/
structure Note where
  id : Option EntityKey
  text : String
deriving DecidableEq, Repr

namespace Note

instance : Entity Note where
  key? := Note.id
  withKey note key := { note with id := some key }

instance : Codec Note where
  encode note := Codec.encodeKey note.id ++ Codec.encodeString note.text
  read bytes := do
    let (id, rest) ← Codec.readKey bytes
    let (text, rest) ← Codec.readString rest
    .ok (⟨id, text⟩, rest)

end Note

end SessionServer
