import WebServer.Http.Head
import WebServer.Text.Percent

/-! # Requests

A complete request with its bytes, and what can be asked of it. -/

namespace WebServer.Http

/-- A request: its head, the bytes it was read from, and a note of the application. -/
structure Request where
  raw : Bytes
  head : Head
  userData : Option String := none
deriving DecidableEq, Repr

namespace Request

/-- The request at the start of a buffer; bytes behind it stay in `raw`. -/
def read (raw : Bytes) : Reading HeadError Request :=
  match Head.read maxSize raw with
  | .notYet => .notYet
  | .failed e => .failed e
  | .ready head => .ready { raw, head }

def size (r : Request) : Nat :=
  min r.head.totalLength r.raw.length

def bodyOffset (r : Request) : Nat :=
  min r.head.bodyOffset r.size

def bodyLength (r : Request) : Nat :=
  r.size - r.bodyOffset

def body (r : Request) : Bytes :=
  (r.raw.drop r.bodyOffset).take r.bodyLength

/-- The bytes of the request without what follows it. -/
def bytes (r : Request) : Bytes :=
  r.raw.take r.size

def header? (r : Request) (name : String) : Option String :=
  r.head.header? name

/-- The position of the next header of the given name at or after `start`. -/
def headerIndex? (r : Request) (name : String) (start : Nat) : Option Nat :=
  Head.indexOf? r.head.headers name start

/-- The target without its query and fragment. -/
def pathChars (r : Request) : List Char :=
  r.head.url.toList.takeWhile fun c => c != '?' && c != '#'

def path (r : Request) : String :=
  String.ofList r.pathChars

/-- The parts of a path before and after the dot of its file extension. -/
def splitExtension? (path : List Char) : Option (List Char × List Char) :=
  match path.reverse.span (· != '.') with
  | (_, []) => none
  | (extension, _ :: root) =>
    if extension.contains '/' then none else some (root.reverse, extension.reverse)

/-- The path up to its file extension. -/
def root (r : Request) : String :=
  match splitExtension? r.pathChars with
  | some (root, _) => String.ofList root
  | none => r.path

/-- The file extension of the path; without one it is that of a page. -/
def filetype (r : Request) : String :=
  match splitExtension? r.pathChars with
  | some (_, extension) => String.ofList extension
  | none => "html"

/-- The names and values of the query, still encoded; a name without an equals sign has an empty value. -/
def queryPairs (r : Request) : Option (List (String × String)) :=
  (Text.cut? (· == '?') r.head.url.toList).map fun (_, query) =>
    (Text.splitWhere (· == '&') (query.takeWhile (· != '#'))).map fun pair =>
      let (name, value) := (Text.cut? (· == '=') pair).getD (pair, [])
      (String.ofList name, String.ofList value)

/-- The decoded value of the first query parameter of the given name. -/
def query? (r : Request) (key : String) : Option String := do
  let pairs ← r.queryPairs
  let (_, value) ← pairs.find? fun (name, _) => Text.uriDecode name == key
  some (Text.uriDecode value)

/-- The name and value of a cookie; a blank item is none. -/
def cookieOf? (item : List Char) : Option (String × String) :=
  let item := Text.trim item
  if item.isEmpty then none
  else
    let (name, value) := (Text.cut? (· == '=') item).getD (item, [])
    some (String.ofList (Text.trim name), String.ofList (Text.trim value))

/-- The cookies of all cookie headers. -/
def cookies (r : Request) : List (String × String) :=
  ((r.head.headers.filter fun h => Text.sameName h.name "Cookie").flatMap fun h =>
    Text.splitWhere (· == ';') h.value.toList).filterMap cookieOf?

/-- The value of the first cookie of the given name. -/
def cookie? (r : Request) (name : String) : Option String :=
  (r.cookies.find? fun (n, _) => n == name).map Prod.snd

def form (r : Request) : Form :=
  Form.ofBody ((r.header? "Content-Type").getD "") r.body r.bodyOffset

/-- The first submitted value of the given name. -/
def postValue? (r : Request) (name : String) : Option Bytes :=
  (r.form.get? name).map fun f => f.value.resolve r.raw

/-- The first submitted value of the given name, if it is text. -/
def postText? (r : Request) (name : String) : Option String :=
  (r.postValue? name).bind Text.ofUtf8?

/-- Every submitted value of the given name. -/
def postValues (r : Request) (name : String) : List Bytes :=
  (r.form.getAll name).map fun f => f.value.resolve r.raw

/-- Whether the request asks for the WebSocket protocol. -/
def isUpgrade (r : Request) : Bool :=
  (r.header? "Upgrade").any fun v => Text.sameName v "websocket"

end Request
end WebServer.Http
