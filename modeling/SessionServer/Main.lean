import SessionServer.Network.Hub
import SessionServer.Provider.Bundle
import Std.Time.DateTime.Timestamp

/-!
Contract: the command, which serves the console as its only client.

Every line of standard input is a text of the client, and every text that the server sends is
written as a line of standard output. Time passes by the clock of the machine and is made up for at
the next line. The command ends with the input, or when the server closes the connection.

Records stay in memory; a data directory is refused.
-/

namespace SessionServer.Console

/-- The hub behind the console. -/
structure Served where
  table : Table (Features PlayerStore)
  hub : Hub (Features PlayerStore)
  /-- The clock of the machine at the start, in milliseconds. -/
  startedAt : Nat

/-- Writes what the client has received beyond the first items; answers whether it goes on. -/
def report (hub : Hub (Features PlayerStore)) (known : Nat) : IO Bool := do
  let received := (hub.clients.head?.map Client.received).getD []
  let output ← IO.getStdout
  for item in received.drop known do
    match item with
    | .text content => output.putStrLn content
    | .pong content => output.putStrLn content
    | .ended => output.putStrLn "connection closed"
  output.flush
  return !received.contains .ended

/-- The number of items that the client has received. -/
def receivedCount (hub : Hub (Features PlayerStore)) : Nat :=
  ((hub.clients.head?.map Client.received).getD []).length

/-- Makes up for the seconds that have passed by the clock of the machine. -/
def catchUp (session : Served) (milliseconds : Nat) : Hub (Features PlayerStore) :=
  session.hub.advance session.table ((milliseconds - session.startedAt) / 1000 - session.hub.now)

/-- Reads lines until there are none or the connection has ended. -/
partial def serve (session : Served) : IO Unit := do
  let line ← (← IO.getStdin).getLine
  let known := receivedCount session.hub
  let hub := catchUp session (← IO.monoMsNow)
  if line.isEmpty then
    let _ ← report (hub.shutDown session.table).2 known
  else
    let text := String.ofList (line.toList.filter fun c => c ≠ '\n' && c ≠ '\r')
    let (_, hub) := hub.send session.table 0 (.text text)
    if ← report hub known then serve { session with hub }

/-- Brings the server up and connects the console to it. -/
def start (settings : Settings) : IO UInt32 := do
  let entropy ← IO.getRandomBytes 16
  let epoch := (← Std.Time.Timestamp.now).toMillisecondsSinceUnixEpoch.val.toNat
  match Assembly.ofSettings settings none entropy.toList with
  | .error error =>
      IO.eprintln error.message
      return 1
  | .ok ⟨table, memory⟩ =>
      let fresh := Server.fresh settings.maxConnections memory (UInt64.ofNat epoch)
      match fresh.start table with
      | (some (.ok ()), server) =>
          if settings.secret.isNone then
            IO.eprintln ("login secret: " ++ server.memory.login.secret.getD "")
          let (_, hub) := (Hub.ofServer settings server).connect table
          if ← report hub 0 then serve ⟨table, hub, ← IO.monoMsNow⟩
          return 0
      | (some (.error error), _) =>
          IO.eprintln error.message
          return 1
      | (none, _) => return 1

/-- Explains the options. -/
def help : IO UInt32 := do
  for setting in Setting.all do
    IO.println setting.usage
  IO.println "  -h, --help"
  IO.println "  -V, --version"
  return 0

end SessionServer.Console

open SessionServer in
def main (arguments : List String) : IO UInt32 :=
  match Settings.parse arguments with
  | .ok settings =>
      match settings.dataDir with
      | none => Console.start settings
      | some _ => do
          IO.eprintln "a data directory cannot be used from the console"
          return 1
  | .error .helpRequested => Console.help
  | .error .versionRequested => do
      IO.println "0.1.0"
      return 0
  | .error error => do
      IO.eprintln error.message
      return 2
