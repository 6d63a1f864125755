/-!
Contract: the numbers that a client and the server agree on.

Owns: the codes of the bundled handlers, the logic states that handlers give to sessions, and the
convention that even codes are requests while odd codes are answers and notices.
-/

namespace SessionServer

/-- The number that selects a handler. -/
abbrev Code := Int32

/-- The logic state of a session, which gates the handlers it reaches. -/
abbrev State := Int32

/-- The account bound to a session by a login. -/
abbrev Identity := Int64

namespace Code

/-- Asks for the request's arguments to be sent back. -/
def echo : Code := 10

/-- A request lacked parameters or carried malformed ones. -/
def parameterError : Code := 11

/-- Asks for a login with an account number and the secret. -/
def login : Code := 100

/-- The login secret did not match. -/
def secretError : Code := 101

/-- The periodic sign of life of the server. -/
def heartbeat : Code := 103

/-- The account logged in from another connection. -/
def otherLogin : Code := 105

/-- The login was accepted. -/
def loginSuccess : Code := 107

/-- Tells the client to switch the scene. -/
def changeScene : Code := 121

/-- Between handlers only: load or create the player of an account that has just been bound. -/
def playerCheck : Code := 300

/-- Asks for gold for the player of the session. -/
def playerAddGold : Code := 302

/-- The balance of the player. -/
def playerGold : Code := 303

/-- Asks for the record of the player. -/
def playerInfo : Code := 304

/-- The record of the player. -/
def playerInfoResult : Code := 305

/-- Whether clients are expected to send a code: the even ones are requests. -/
def isRequest (code : Code) : Bool := code % 2 = 0

end Code

namespace State

/-- A session that has not logged in; the only state that the server gives by itself. -/
def none : State := 0

/-- A session that has logged in. -/
def authorized : State := 1

/-- The mark of calls between handlers; no session holds it. -/
def program : State := 2

/-- A session inside a game scene. -/
def gaming : State := 3

end State

end SessionServer
