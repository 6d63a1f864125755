import SessionServer.Data.OrderedMap
import SessionServer.Store.Entity

/-!
Contract: the one place of the file system that a file store lives in.

Owns:
- `Disk`, what stands at the store's path, with the single steps of the file system: making the
  directory, and making, reading, writing and renaming files in it;
- `replaceFile`, which writes a file under a passing name before it takes its own, and clears up
  after a step that is refused.

Names are single path components; sub-directories count only as names that are taken.
-/

namespace SessionServer

/-- What a name in the directory stands for. -/
inductive DiskEntry where
  | file (content : List UInt8)
  | directory
deriving DecidableEq, Repr

/-- What stands at the path of a file store. -/
inductive Disk where
  /-- Nothing, but the directory can be made. -/
  | missing
  | directory (entries : OrderedMap String DiskEntry)
  | plainFile
  /-- Nothing, and a plain file stands in the way of making the directory. -/
  | belowFile
deriving DecidableEq

namespace Disk

def emptyDirectory : Disk := .directory .empty

/-- The entries of the directory, if there is one. -/
def entries? : Disk → Option (OrderedMap String DiskEntry)
  | .directory entries => some entries
  | _ => none

def names (disk : Disk) : List String := (disk.entries?.map OrderedMap.keys).getD []

/-- Puts an entry into the directory, if there is one. -/
def place (disk : Disk) (name : String) (entry : DiskEntry) : Disk :=
  match disk with
  | .directory entries => .directory (entries.insert name entry)
  | _ => disk

/-- Takes an entry out of the directory, if there is one. -/
def remove (disk : Disk) (name : String) : Disk :=
  match disk with
  | .directory entries => .directory (entries.erase name)
  | _ => disk

/-- Makes the directory with everything above it, unless it is there already. -/
def makeDirectory : Disk → Except FileError Disk
  | .missing => .ok emptyDirectory
  | .directory entries => .ok (.directory entries)
  | .plainFile => .error .alreadyExists
  | .belowFile => .error .notDirectory

def readFile (disk : Disk) (name : String) : Except FileError (List UInt8) :=
  match disk with
  | .missing => .error .noSuchEntry
  | .plainFile => .error .notDirectory
  | .belowFile => .error .notDirectory
  | .directory entries =>
      match entries.get? name with
      | none => .error .noSuchEntry
      | some .directory => .error .isDirectory
      | some (.file content) => .ok content

/-- The entries, where there is a directory to look into. -/
def listing : Disk → Except FileError (OrderedMap String DiskEntry)
  | .missing => .error .noSuchEntry
  | .plainFile => .error .notDirectory
  | .belowFile => .error .notDirectory
  | .directory entries => .ok entries

/-- Makes an empty file under a name that is not taken. -/
def createFile (disk : Disk) (name : String) : Except FileError Disk := do
  let entries ← disk.listing
  match entries.get? name with
  | some _ => .error .alreadyExists
  | none => .ok (.directory (entries.insert name (.file [])))

/-- Writes the content of a file that is there. -/
def writeFile (disk : Disk) (name : String) (content : List UInt8) : Except FileError Disk := do
  let entries ← disk.listing
  match entries.get? name with
  | none => .error .noSuchEntry
  | some .directory => .error .isDirectory
  | some (.file _) => .ok (.directory (entries.insert name (.file content)))

/-- Gives a file another name, where it replaces a file but not a directory. -/
def renameFile (disk : Disk) (name target : String) : Except FileError Disk := do
  let entries ← disk.listing
  match entries.get? name with
  | none => .error .noSuchEntry
  | some .directory => .error .isDirectory
  | some (.file content) =>
      match entries.get? target with
      | some .directory => .error .isDirectory
      | _ => .ok (.directory ((entries.erase name).insert target (.file content)))

/-- The names that files can have on their way to their own. -/
def passingName (number : Nat) : String := ".tmp" ++ String.ofList (Nat.toDigits 10 number)

/-- A passing name that is not taken; one more than there are taken ones is enough to find it. -/
def freeName (taken : List String) : String :=
  (((List.range (taken.length + 1)).map passingName).find? fun name => !taken.contains name).getD
    (passingName 0)

/-- Writes a file under a passing name and renames it. When a step is refused, the file under the
passing name is removed again. -/
def replaceFile (disk : Disk) (name : String) (content : List UInt8) :
    Except FileError Unit × Disk :=
  let passing := freeName disk.names
  match disk.createFile passing with
  | .error cause => (.error cause, disk)
  | .ok created =>
      match created.writeFile passing content with
      | .error cause => (.error cause, created.remove passing)
      | .ok written =>
          match written.renameFile passing name with
          | .error cause => (.error cause, written.remove passing)
          | .ok renamed => (.ok (), renamed)

end Disk

end SessionServer
