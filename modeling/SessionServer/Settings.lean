import SessionServer.Number.Decimal

/-!
Contract: what can be set when the server is started, and the command line that sets it.

Owns:
- `Settings` with its defaults, its address and its intervals;
- `Setting`, the names under which each of them is set, and `Settings.assign`, which reads a value;
- `Settings.parse`, which reads a whole command line or says what is wrong with it.

An option takes its value from the same argument (`--port=1`, `-p1`, `-p=1`) or from the next one,
unless that one looks like an option. A value is looked at only when the next option begins or the
line ends, so an unknown argument is reported before a faulty value that stands in front of it.
Help and version are answered on sight.
-/

namespace SessionServer

/-- What can be set when the server is started. -/
structure Settings where
  host : String := "127.0.0.1"
  port : Nat := 8080
  workers : Nat := 4
  /-- How many connections may be open at once. -/
  maxConnections : Nat := 1024
  /-- The period of delivery in milliseconds. -/
  drainIntervalMs : Nat := 17
  /-- The period of the heartbeat in seconds. -/
  heartbeatSecs : Nat := 15
  /-- The period of the flush of the players' records in seconds. -/
  flushIntervalSecs : Nat := 3
  /-- Longer inbound texts are dropped. -/
  maxFrameBytes : Nat := 8192
  /-- Connections that are silent for so long are closed; zero means never. -/
  idleTimeoutSecs : Nat := 600
  /-- The directory of the players' records; without one they stay in memory. -/
  dataDir : Option String := none
  /-- The login secret; without one it is made up. -/
  secret : Option String := none
deriving DecidableEq, Repr

namespace Settings

def address (settings : Settings) : String := settings.host ++ ":" ++ toString settings.port

/-- The period of delivery in milliseconds, at least one. -/
def drainInterval (settings : Settings) : Nat := max settings.drainIntervalMs 1

/-- The period of the heartbeat in seconds, at least one. -/
def heartbeat (settings : Settings) : Nat := max settings.heartbeatSecs 1

/-- The period of the flush in seconds, at least one. -/
def flushInterval (settings : Settings) : Nat := max settings.flushIntervalSecs 1

/-- The time of silence after which a connection is closed, if there is one. -/
def idleTimeout? (settings : Settings) : Option Nat :=
  if settings.idleTimeoutSecs = 0 then none else some settings.idleTimeoutSecs

end Settings

/-- Why a command line does not give settings. -/
inductive CommandLineError where
  /-- An argument that is no known option and no value of one. -/
  | unknownArgument
  /-- An option without its value, or with an empty one where that makes no sense. -/
  | missingValue
  /-- A value behind an option that takes none. -/
  | needlessValue
  /-- A value that is not a number in the allowed range. -/
  | malformedValue
  | repeatedOption
  | helpRequested
  | versionRequested
deriving DecidableEq, Repr

namespace CommandLineError

def message : CommandLineError → String
  | .unknownArgument => "an argument is neither a known option nor the value of one"
  | .missingValue => "an option lacks its value"
  | .needlessValue => "an option that takes no value has one"
  | .malformedValue => "a value is not a number in the allowed range"
  | .repeatedOption => "an option is given twice"
  | .helpRequested => "help was asked for"
  | .versionRequested => "the version was asked for"

end CommandLineError

/-- The options that take a value. -/
inductive Setting where
  | host
  | port
  | workers
  | maxConnections
  | drainIntervalMs
  | heartbeatSecs
  | flushIntervalSecs
  | maxFrameBytes
  | idleTimeoutSecs
  | dataDir
  | secret
deriving DecidableEq, Repr

namespace Setting

def all : List Setting :=
  [host, port, workers, maxConnections, drainIntervalMs, heartbeatSecs, flushIntervalSecs,
    maxFrameBytes, idleTimeoutSecs, dataDir, secret]

def longName : Setting → String
  | host => "host"
  | port => "port"
  | workers => "workers"
  | maxConnections => "max-connections"
  | drainIntervalMs => "drain-interval-ms"
  | heartbeatSecs => "heartbeat-secs"
  | flushIntervalSecs => "flush-interval-secs"
  | maxFrameBytes => "max-frame-bytes"
  | idleTimeoutSecs => "idle-timeout-secs"
  | dataDir => "data-dir"
  | secret => "secret"

def shortName? : Setting → Option Char
  | host => some 'H'
  | port => some 'p'
  | workers => some 'w'
  | maxConnections => some 'm'
  | dataDir => some 'd'
  | secret => some 's'
  | _ => none

def usage (setting : Setting) : String :=
  let short :=
    match setting.shortName? with
    | none => "      "
    | some letter => "  -" ++ String.singleton letter ++ ", "
  short ++ "--" ++ setting.longName ++ " <value>"

end Setting

namespace Settings

/-! ## Values -/

/-- Numbers from here on are too large for 64 bits. -/
def wordBound : Nat := 0x10000000000000000

def portBound : Nat := 0x10000

def wordOf (value : List Char) : Except CommandLineError Nat :=
  match Decimal.natural? value with
  | none => .error .malformedValue
  | some number => if number < wordBound then .ok number else .error .malformedValue

/-- A port number; zero may carry a minus sign. -/
def portOf (value : List Char) : Except CommandLineError Nat :=
  match Decimal.integer? value with
  | none => .error .malformedValue
  | some number =>
      if 0 ≤ number ∧ number < portBound then .ok number.toNat else .error .malformedValue

def assign (settings : Settings) (setting : Setting) (value : List Char) :
    Except CommandLineError Settings :=
  match setting with
  | .host => .ok { settings with host := String.ofList value }
  | .port => (portOf value).map fun port => { settings with port }
  | .workers => (wordOf value).map fun workers => { settings with workers }
  | .maxConnections => (wordOf value).map fun maxConnections => { settings with maxConnections }
  | .drainIntervalMs => (wordOf value).map fun drainIntervalMs => { settings with drainIntervalMs }
  | .heartbeatSecs => (wordOf value).map fun heartbeatSecs => { settings with heartbeatSecs }
  | .flushIntervalSecs =>
      (wordOf value).map fun flushIntervalSecs => { settings with flushIntervalSecs }
  | .maxFrameBytes => (wordOf value).map fun maxFrameBytes => { settings with maxFrameBytes }
  | .idleTimeoutSecs => (wordOf value).map fun idleTimeoutSecs => { settings with idleTimeoutSecs }
  | .dataDir =>
      if value.isEmpty then .error .missingValue
      else .ok { settings with dataDir := some (String.ofList value) }
  | .secret => .ok { settings with secret := some (String.ofList value) }

end Settings

/-! ## The command line -/

/-- What an option name stands for. -/
inductive OptionName where
  | setting (setting : Setting)
  | help
  | version
deriving DecidableEq, Repr

namespace OptionName

/-- The option with a name behind two dashes. -/
def ofLong? (name : List Char) : Option OptionName :=
  if name = "help".toList then some .help
  else if name = "version".toList then some .version
  else (Setting.all.find? fun setting => setting.longName.toList = name).map .setting

/-- The option with a letter behind one dash. -/
def ofShort? (letter : Char) : Option OptionName :=
  if letter = 'h' then some .help
  else if letter = 'V' then some .version
  else (Setting.all.find? fun setting => setting.shortName? = some letter).map .setting

end OptionName

/-- An option whose value may still follow. -/
structure PendingOption where
  setting : Setting
  value : Option (List Char)

/-- A command line read up to some argument. -/
structure CommandLine where
  settings : Settings := {}
  /-- The options that have their value. -/
  given : List Setting := []
  /-- The last option, while nothing but its value has followed. -/
  pending : Option PendingOption := none
  /-- Whether the two dashes that end the options have been seen. -/
  isClosed : Bool := false

namespace CommandLine

/-- Gives an option its value, unless it has one already. -/
def give (line : CommandLine) (setting : Setting) (value : Option (List Char)) :
    Except CommandLineError CommandLine :=
  match value with
  | none => .error .missingValue
  | some value =>
      if setting ∈ line.given then .error .repeatedOption
      else do
        let settings ← line.settings.assign setting value
        .ok { line with settings, given := setting :: line.given }

/-- Gives the last option its value. -/
def settle (line : CommandLine) : Except CommandLineError CommandLine :=
  match line.pending with
  | none => .ok line
  | some option => { line with pending := none }.give option.setting option.value

/-- Takes an option with the value attached to it, if there is one. -/
def takeOption (line : CommandLine) (name : OptionName) (attached : Option (List Char)) :
    Except CommandLineError CommandLine :=
  match name with
  | .help => do
      let _ ← line.settle
      .error .helpRequested
  | .version => do
      let _ ← line.settle
      .error .versionRequested
  | .setting setting => do
      let line ← line.settle
      match attached with
      | some value => line.give setting (some value)
      | none => .ok { line with pending := some ⟨setting, none⟩ }

/-- Takes what stands behind two dashes. -/
def takeLong (line : CommandLine) (text : List Char) : Except CommandLineError CommandLine :=
  let attached :=
    match text.dropWhile (· ≠ '=') with
    | [] => none
    | _ :: value => some value
  match OptionName.ofLong? (text.takeWhile (· ≠ '=')) with
  | none => .error .unknownArgument
  | some (.setting setting) => line.takeOption (.setting setting) attached
  | some flag => if attached.isSome then .error .needlessValue else line.takeOption flag none

/-- The value behind an option letter; an equals sign in front of it does not count. -/
def shortValue? : List Char → Option (List Char)
  | [] => none
  | '=' :: value => some value
  | value => some value

/-- Takes what stands behind one dash. Every letter that takes no value ends the reading, so the
first letter decides. -/
def takeShort (line : CommandLine) (letter : Char) (rest : List Char) :
    Except CommandLineError CommandLine :=
  match OptionName.ofShort? letter with
  | none => .error .unknownArgument
  | some name => line.takeOption name (shortValue? rest)

/-- Takes an argument that does not look like an option. -/
def takeValue (line : CommandLine) (value : List Char) : Except CommandLineError CommandLine :=
  match line.pending with
  | some ⟨setting, none⟩ => .ok { line with pending := some ⟨setting, some value⟩ }
  | _ => .error .unknownArgument

def take (line : CommandLine) (argument : List Char) : Except CommandLineError CommandLine :=
  if line.isClosed then .error .unknownArgument
  else
    match argument with
    | ['-', '-'] => .ok { line with isClosed := true }
    | '-' :: '-' :: text => line.takeLong text
    | '-' :: letter :: rest => line.takeShort letter rest
    | value => line.takeValue value

def takeAll (line : CommandLine) : List (List Char) → Except CommandLineError CommandLine
  | [] => .ok line
  | argument :: rest => do
      let line ← line.take argument
      line.takeAll rest

end CommandLine

namespace Settings

def parse (arguments : List String) : Except CommandLineError Settings := do
  let line ← CommandLine.takeAll {} (arguments.map String.toList)
  let line ← line.settle
  .ok line.settings

end Settings

end SessionServer
