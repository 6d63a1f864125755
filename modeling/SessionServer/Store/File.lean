import SessionServer.Json.Printer
import SessionServer.Number.Decimal
import SessionServer.Store.Codec
import SessionServer.Store.Disk

/-!
Contract: a store with one file per entity.

Owns:
- the names of entity files: the key in decimal digits before the ending `.bin`;
- `FileStore`, which on opening resumes behind the highest key that a file name shows, loads and
  saves single files, and gives out keys before it touches the disk. One store may hold entities of
  several kinds, which share the keys.

When the directory is opened, any name that ends in `.bin` and reads as a key counts, also with a
plus sign or leading zeros, and so do sub-directories.
-/

namespace SessionServer

/-! ## File names -/

namespace EntityKey

def fileEnding : String := "bin"

def fileName (key : EntityKey) : String :=
  String.ofList (Json.integerChars key.toInt) ++ "." ++ fileEnding

/-- The key that a decimal numeral with an optional sign denotes, if it fits 64 bits. -/
def parse? (text : List Char) : Option EntityKey :=
  (Decimal.integer? text).bind fun value =>
    if -0x8000000000000000 ≤ value ∧ value < 0x8000000000000000 then some (Int64.ofInt value) else none

/-- The part of a name before its last point and the part behind it. A name that is `..`, that has
no point, or whose only point comes first has no ending. -/
def splitEnding (name : List Char) : List Char × Option (List Char) :=
  let reversed := name.reverse
  let ending := (reversed.takeWhile (· ≠ '.')).reverse
  match reversed.dropWhile (· ≠ '.') with
  | [] => (name, none)
  | _ :: stem =>
      if stem.isEmpty || name = ['.', '.'] then (name, none) else (stem.reverse, some ending)

/-- The key that a file name shows. -/
def ofFileName? (name : String) : Option EntityKey :=
  match splitEnding name.toList with
  | (stem, some ending) => if ending = fileEnding.toList then parse? stem else none
  | (_, none) => none

end EntityKey

/-! ## The store -/

/-- A directory of entity files and the next key to give out. -/
structure FileStore where
  disk : Disk
  nextKey : EntityKey
deriving DecidableEq

namespace FileStore

/-- The highest key that the names show, at least zero. -/
def highestKey (names : List String) : EntityKey :=
  (names.filterMap EntityKey.ofFileName?).foldl max 0

/-- Opens the store of a path, making the directory where it is missing. -/
def «open» (disk : Disk) : Except StoreError FileStore :=
  match disk.makeDirectory with
  | .error cause => .error (.file cause)
  | .ok made =>
      .ok ⟨made, EntityKey.next (highestKey made.names)⟩

section

variable {ε : Type}

/-- The entity of a key; a file that is not there is no entity. -/
def load [Codec ε] (store : FileStore) (key : EntityKey) : Except StoreError (Option ε) :=
  match store.disk.readFile key.fileName with
  | .error .noSuchEntry => .ok none
  | .error cause => .error (.file cause)
  | .ok content =>
      match Codec.decode content with
      | .error cause => .error (.codec cause)
      | .ok entity => .ok (some entity)

/-- Writes an entity to the file of its key, or of the next key. The key is given out even when
writing fails. -/
def save [Entity ε] [Codec ε] (store : FileStore) (entity : ε) :
    Except StoreError ε × FileStore :=
  let key := (Entity.key? entity).getD store.nextKey
  let keyed := if (Entity.key? entity).isSome then entity else Entity.withKey entity key
  let advanced := { store with nextKey := max store.nextKey (EntityKey.next key) }
  match store.disk.replaceFile key.fileName (Codec.encode keyed) with
  | (.error cause, disk) => (.error (.file cause), { advanced with disk })
  | (.ok (), disk) => (.ok keyed, { advanced with disk })

instance [Entity ε] [Codec ε] : EntityStore FileStore ε := ⟨load, save⟩

end

end FileStore

end SessionServer
