import SessionServer.Provider.Echo
import SessionServer.Provider.Login
import SessionServer.Provider.Players
import SessionServer.Settings
import SessionServer.Store.File
import SessionServer.Store.Memory

/-!
Contract: what a server consists of out of the box.

Owns:
- `bundledProviders`, the echo, login and player providers in this order, and their table;
- `PlayerStore`, the players' records in memory or in files;
- `ServerError`, everything that can keep a server from coming up;
- `Assembly.ofSettings`, the table and the memory that settings ask for.
-/

namespace SessionServer

/-! ## Providers -/

section

variable {σ : Type} [EntityStore σ Player]

/-- The providers that come with the server; both periods are in seconds. -/
def bundledProviders (heartbeat flushPeriod : Nat) : List (Provider (Features σ)) :=
  [Echo.provider, Login.provider heartbeat, Players.provider flushPeriod]

def bundledTable (heartbeat flushPeriod : Nat) : Except DispatchError (Table (Features σ)) :=
  Table.ofProviders (bundledProviders heartbeat flushPeriod)

end

/-! ## The players' store -/

/-- The players' records in memory or in files. -/
inductive PlayerStore where
  | memory (store : FaultyStore Player)
  | files (store : FileStore)

namespace PlayerStore

def fresh : PlayerStore := .memory {}

def ofDisk (disk : Disk) : Except StoreError PlayerStore := (FileStore.open disk).map .files

def load : PlayerStore → EntityKey → Except StoreError (Option Player)
  | .memory store, key => store.load key
  | .files store, key => store.load key

def save : PlayerStore → Player → Except StoreError Player × PlayerStore
  | .memory store, player =>
      let (result, store) := store.save player
      (result, .memory store)
  | .files store, player =>
      let (result, store) := store.save player
      (result, .files store)

instance : EntityStore PlayerStore Player := ⟨load, save⟩

/-- What stands at the path of the data directory; records in memory have none. -/
def disk : PlayerStore → Disk
  | .memory _ => .missing
  | .files store => store.disk

/-- The store after something else has changed its data directory. -/
def withDisk (disk : Disk) : PlayerStore → PlayerStore
  | .memory store => .memory store
  | .files store => .files { store with disk }

/-- The store behind a switch for failures; files have no such switch. -/
def withOutage (outage : Outage) : PlayerStore → PlayerStore
  | .memory store => .memory { store with outage }
  | .files store => .files store

/-- The store as it is found when the server is started anew: records in memory are gone, and a
data directory is opened again. -/
def reopened : PlayerStore → Except StoreError PlayerStore
  | .memory _ => .ok fresh
  | .files store => ofDisk store.disk

/-- The record that is kept for a key, whatever the switch for failures says. -/
def stored (store : PlayerStore) (key : EntityKey) : Except StoreError (Option Player) :=
  match store with
  | .memory store => .ok (store.store.load key)
  | .files store => do
      let opened ← FileStore.open store.disk
      opened.load key

end PlayerStore

/-! ## Assembly -/

/-- What can keep a server from coming up. -/
inductive ServerError where
  | network (reason : String)
  | dispatch (cause : DispatchError)
  | store (cause : StoreError)
deriving DecidableEq, Repr

namespace ServerError

def message : ServerError → String
  | .network reason => "network error: " ++ reason
  | .dispatch cause => cause.message
  | .store cause => cause.message

end ServerError

/-- A table with the memory of its providers. -/
structure Assembly where
  table : Table (Features PlayerStore)
  memory : Features PlayerStore

namespace Assembly

/-- The store for the given data directory; without one, records stay in memory. -/
def storeOf (dataDir : Option Disk) : Except ServerError PlayerStore :=
  match dataDir with
  | none => .ok .fresh
  | some disk =>
      match PlayerStore.ofDisk disk with
      | .error cause => .error (.store cause)
      | .ok store => .ok store

/-- The table and the memory that settings ask for. The data directory is the one that the
settings name, as it is found on disk; the entropy is for a secret that is not configured. -/
def ofSettings (settings : Settings) (dataDir : Option Disk) (entropy : List UInt8) :
    Except ServerError Assembly :=
  match storeOf dataDir with
  | .error error => .error error
  | .ok store =>
      match bundledTable settings.heartbeat settings.flushInterval with
      | .error cause => .error (.dispatch cause)
      | .ok table => .ok ⟨table, .fresh settings.secret entropy store⟩

end Assembly

end SessionServer
