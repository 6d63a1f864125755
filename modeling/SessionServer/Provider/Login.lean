import SessionServer.Dispatch.Table
import SessionServer.Provider.Features

/-!
Contract: the login of a session, and the sign of life that a session gets from then on.

A login needs an integer `uid` and a string `secret`, and is possible only in the state of a
session at its start. Missing parameters and a wrong secret are answered and followed by a request
to close. Otherwise the connection that holds the account, if it is another one, is told so and
asked to close; then the account is bound to the new connection, the session is authorized, the
success is reported, the heartbeat starts, and the player provider is called with the account.

The secret is the configured one, which must not be empty, or else the digits of random bytes.
-/

namespace SessionServer.Login

variable {σ : Type}

/-! ## The handler -/

/-- Answers a failed login, then closes. -/
def refuse (connection : ConnectionId) (reason : Code) : Procedure (Features σ) :=
  .push connection reason .empty <| .quit connection .done

/-- Tells the present holder of the account, if it is another connection, that it has lost it. -/
def evict (uid : Identity) (connection : ConnectionId) (next : Procedure (Features σ)) :
    Procedure (Features σ) :=
  .holder uid fun holder =>
    match holder with
    | none => next
    | some previous =>
        if previous = connection then next
        else .push previous Code.otherLogin .empty <| .quit previous next

/-- One heartbeat. -/
def beat (connection : ConnectionId) : Procedure (Features σ) :=
  .clock fun now =>
    .push connection Code.heartbeat (Args.ofList [("heartbeat", .integer now.toNat)]) .done

/-- The report of a successful login. -/
def successArgs (uid : Identity) (now : UInt64) : Args :=
  Args.ofList [("uid", .integer uid.toInt), ("timestamp", .integer now.toNat)]

/-- The arguments of the call to the player provider. -/
def checkArgs (uid : Identity) : Args := Args.ofList [("uid", .integer uid.toInt)]

/-- What follows once the parameters and the secret are right. -/
def welcome (heartbeat : Nat) (uid : Identity) (connection : ConnectionId) :
    Procedure (Features σ) :=
  evict uid connection <|
    .bindIdentity connection uid fun bound =>
      if bound then
        .setState connection State.authorized fun _ =>
          .clock fun now =>
            .push connection Code.loginSuccess (successArgs uid now) <|
              .schedule (.session connection heartbeat) (beat connection) fun _ =>
                .invoke Code.playerCheck State.program connection (checkArgs uid) fun _ => .done
      else .done

/-- Checks the parameters and the secret of a login. -/
def login (heartbeat : Nat) : Handler (Features σ) := fun request =>
  match request.identity? "uid", request.text? "secret" with
  | some uid, some secret =>
      .recall fun features =>
        if features.login.secret = some secret then welcome heartbeat uid request.connection
        else refuse request.connection Code.secretError
  | _, _ => refuse request.connection Code.parameterError

/-! ## The secret -/

/-- Refuses an empty secret and makes one up where none is configured. -/
def init : Procedure (Features σ) :=
  .recall fun features =>
    match features.login.secret with
    | some secret =>
        if secret.isEmpty then .finish (.refused "login secret must not be empty") else .done
    | none => .remember (features.withSecret (Hexadecimal.ofBytes features.login.entropy)) .done

/-- The provider; the period of the heartbeat is in seconds. -/
def provider (heartbeat : Nat) : Provider (Features σ) where
  name := "auth"
  routes := [⟨Code.login, .ofList [State.none], login heartbeat⟩]
  init := init

end SessionServer.Login
