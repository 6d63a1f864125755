import SessionServer.Json.Value
import SessionServer.Protocol
import SessionServer.Store.Codec

/-!
Contract: the record of a player.

Owns: `Player`, the record of a first login, the grant of gold, the members under which a record
is sent to its client, and its bytes in storage.

Gold is a signed word of 64 bits. Where the sum of a grant lies beyond its range there is no record
with that sum, and whoever has asked for it breaks off.
-/

namespace SessionServer

/-- The record of a player. Times are milliseconds of Unix time. -/
structure Player where
  uid : Option Identity
  nickname : String
  gold : Int64
  scene : Int32
  createTime : UInt64
  updateTime : UInt64
deriving DecidableEq, Repr

namespace Player

def startingGold : Int64 := 1000

def grant : Int64 := 100

def startingScene : Int32 := 1

/-- The record of an account that has never logged in before. -/
def fresh (uid : Identity) (now : UInt64) : Player where
  uid := some uid
  nickname := "player" ++ toString uid.toInt
  gold := startingGold
  scene := startingScene
  createTime := now
  updateTime := now

/-- The record after a grant, if its word has room for the sum. -/
def granted? (player : Player) (now : UInt64) : Option Player :=
  let gold := player.gold + grant
  if gold.toInt = player.gold.toInt + grant.toInt then
    some { player with gold, updateTime := now }
  else none

/-- The record as a client sees it. -/
def toJson (player : Player) : Json :=
  .object <| Args.ofList
    [("uid", (player.uid.map fun uid => Json.integer uid.toInt).getD .null),
      ("nickname", .string player.nickname),
      ("gold", .integer player.gold.toInt),
      ("scene", .integer player.scene.toInt),
      ("create_time", .integer player.createTime.toNat),
      ("update_time", .integer player.updateTime.toNat)]

instance : Entity Player where
  key? := Player.uid
  withKey player key := { player with uid := some key }

instance : Codec Player where
  encode player :=
    Codec.encodeKey player.uid ++ (Codec.encodeString player.nickname ++
      (Codec.encodeInt64 player.gold ++ (Codec.encodeInt32 player.scene ++
        (Codec.encodeUInt64 player.createTime ++ Codec.encodeUInt64 player.updateTime))))
  read bytes := do
    let (uid, rest) ← Codec.readKey bytes
    let (nickname, rest) ← Codec.readString rest
    let (gold, rest) ← Codec.readInt64 rest
    let (scene, rest) ← Codec.readInt32 rest
    let (createTime, rest) ← Codec.readUInt64 rest
    let (updateTime, rest) ← Codec.readUInt64 rest
    .ok (⟨uid, nickname, gold, scene, createTime, updateTime⟩, rest)

end Player

end SessionServer
