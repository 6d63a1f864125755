/-!
Contract: which requests open a client connection.

A client asks with an HTTP request of at least version 1.1, by the method GET, to switch to the
WebSocket protocol of version 13, and brings a key. Header names and the two tokens are compared
without regard to case, and of two headers with one name the first counts. Nothing may follow the
empty line behind the headers before the server has answered.

Does not own: the answer to the request, or the frames behind it.
-/

namespace SessionServer.Handshake

structure Header where
  name : List Char
  value : List Char
deriving DecidableEq, Repr

structure Request where
  method : List Char
  version : List Char
  headers : List Header
deriving DecidableEq, Repr

/-! ## Reading a request -/

def isNameChar (c : Char) : Bool := c.isAlphanum || "!#$%&'*+-.^_|~\x60".toList.contains c

def isValueChar (c : Char) : Bool := c = '\t' || (0x20 ≤ c.toNat && c.toNat ≠ 0x7F)

def trim (text : List Char) : List Char :=
  let isBlank := fun c => c = ' ' || c = '\t'
  ((text.dropWhile isBlank).reverse.dropWhile isBlank).reverse

/-- The characters up to the end of the line and those behind it. -/
def takeLine : List Char → Option (List Char × List Char)
  | [] => none
  | '\n' :: rest => some ([], rest)
  | '\r' :: '\n' :: rest => some ([], rest)
  | c :: rest => (takeLine rest).map fun (line, rest) => (c :: line, rest)

theorem takeLine_shorter {text line rest : List Char} (taken : takeLine text = some (line, rest)) :
    rest.length < text.length := by
  fun_induction takeLine text generalizing line with
  | case1 => simp at taken
  | case2 tail =>
      simp only [Option.some.injEq, Prod.mk.injEq] at taken
      obtain ⟨_, rfl⟩ := taken
      simp only [List.length_cons]
      omega
  | case3 tail =>
      simp only [Option.some.injEq, Prod.mk.injEq] at taken
      obtain ⟨_, rfl⟩ := taken
      simp only [List.length_cons]
      omega
  | case4 c tail _ _ inductionHypothesis =>
      obtain ⟨⟨line', rest'⟩, found, equal⟩ := Option.map_eq_some_iff.1 taken
      simp only [Prod.mk.injEq] at equal
      obtain ⟨_, rfl⟩ := equal
      have := inductionHypothesis found
      simp only [List.length_cons]
      omega

def header? (line : List Char) : Option Header :=
  let name := line.takeWhile (· ≠ ':')
  match line.dropWhile (· ≠ ':') with
  | [] => none
  | _ :: value =>
      if name.isEmpty || !name.all isNameChar || !value.all isValueChar then none
      else some ⟨name, trim value⟩

/-- The headers up to the empty line, behind which the text must end. -/
def headers? (text : List Char) : Option (List Header) :=
  match _taken : takeLine text with
  | none => none
  | some ([], rest) => if rest.isEmpty then some [] else none
  | some (line, rest) => do
      let header ← header? line
      let others ← headers? rest
      some (header :: others)
termination_by text.length
decreasing_by exact takeLine_shorter _taken

def request? (text : List Char) : Option Request := do
  let (line, rest) ← takeLine text
  match (String.ofList line).splitOn " " with
  | [method, target, version] =>
      if method.isEmpty || target.isEmpty then none
      else
        let headers ← headers? rest
        some ⟨method.toList, version.toList, headers⟩
  | _ => none

/-! ## Judging a request -/

/-- Whether two texts are the same when case is left aside. -/
def sameIgnoringCase (left right : List Char) : Bool :=
  left.map Char.toLower = right.map Char.toLower

def Request.header? (request : Request) (name : String) : Option (List Char) :=
  (request.headers.find? fun header => sameIgnoringCase header.name name.toList).map Header.value

/-- Whether a value names a token among others, separated by blanks or commas. -/
def namesToken (value : List Char) (token : String) : Bool :=
  (((String.ofList value).splitOn " ").flatMap fun part => part.splitOn ",").any fun part =>
    sameIgnoringCase part.toList token.toList

/-- Whether a request opens a client connection. -/
def Request.opens (request : Request) : Bool :=
  request.method = "GET".toList && request.version = "HTTP/1.1".toList &&
    (request.header? "Connection").any (namesToken · "Upgrade") &&
    (request.header? "Upgrade").any (sameIgnoringCase · "websocket".toList) &&
    request.header? "Sec-WebSocket-Version" = some "13".toList &&
    (request.header? "Sec-WebSocket-Key").isSome

/-- Whether a text that a client sends first opens a connection. -/
def accepts (text : String) : Bool := (request? text.toList).any Request.opens

end SessionServer.Handshake
