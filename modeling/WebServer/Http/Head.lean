import WebServer.Reading
import WebServer.Text.Split
import WebServer.Text.Quoted
import WebServer.Text.Size
import WebServer.Text.Utf8
import WebServer.Form.Multipart

/-! # Request heads

Deciding whether a buffer starts with a complete request, and where its body ends. The body has the length
that `Content-Length` gives; without that header a multipart body ends at its closing delimiter, and any
other request has no body. -/

namespace WebServer.Http

/-- Why a buffer cannot become a request. -/
inductive HeadError where
  /-- The request line is not a method, a target and an HTTP version. -/
  | malformedRequestLine (line : String)
  | notUtf8
  /-- The length of the body is not a size that fits behind the head. -/
  | invalidContentLength (value : String)
  | tooLarge (length limit : Nat)
deriving DecidableEq, Repr

def HeadError.code : HeadError → String
  | .malformedRequestLine _ => "MalformedRequestLine"
  | .notUtf8 => "NonUtf8Head"
  | .invalidContentLength _ => "InvalidContentLength"
  | .tooLarge .. => "TooLarge"

def HeadError.message : HeadError → String
  | .malformedRequestLine line => "Malformed request line: " ++ Text.quote line
  | .notUtf8 => "Request head is not valid UTF-8"
  | .invalidContentLength value => "Invalid Content-Length: " ++ Text.quote value
  | .tooLarge length limit =>
    "Request of " ++ toString length ++ " bytes exceeds the " ++ toString limit ++ " byte limit"

/-- A header with blanks trimmed from its name and its value. -/
structure Header where
  name : String
  value : String
deriving DecidableEq, Repr

/-- The first line of a request. -/
structure RequestLine where
  method : String
  url : String
  version : String
deriving DecidableEq, Repr

/-- The head of a request, and the place of the body in the buffer it was read from. -/
structure Head where
  method : String
  url : String
  version : String
  headers : List Header
  bodyOffset : Nat
  bodyLength : Nat
deriving DecidableEq, Repr

namespace Head

/-- The bytes of the buffer that the request takes up. -/
def totalLength (h : Head) : Nat :=
  min (h.bodyOffset + h.bodyLength) maxSize

/-- The position of the first header of the given name at or after `start`. -/
def indexOf? (headers : List Header) (name : String) (start : Nat) : Option Nat :=
  ((headers.drop start).findIdx? fun h => Text.sameName h.name name).map (· + start)

/-- The value of the first header of the given name. -/
def valueOf? (headers : List Header) (name : String) : Option String :=
  (headers.find? fun h => Text.sameName h.name name).map Header.value

def header? (h : Head) (name : String) : Option String :=
  valueOf? h.headers name

end Head

/-- The bytes of the empty lines at the start of a buffer, counted on top of `n`. -/
def leadingLines : Bytes → (n : Nat) → Nat
  | 13 :: 10 :: rest, n => leadingLines rest (n + 2)
  | _, n => n

/-- The parts of a request line. -/
def RequestLine.read? (line : List Char) : Option RequestLine :=
  match Text.words line with
  | [method, url, version] =>
    if "HTTP/".toList.isPrefixOf version then
      some ⟨String.ofList method, String.ofList url, String.ofList version⟩
    else none
  | _ => none

/-- The header of a line; a line without a colon holds none. -/
def Header.read? (line : List Char) : Option Header :=
  (Text.cut? (· == ':') line).map fun (name, value) =>
    ⟨String.ofList (Text.trim name), String.ofList (Text.trim value)⟩

/-- The length of a multipart body, with its closing delimiter and the end of that line. -/
def multipartLength? (body : Bytes) (boundary : String) : Option Nat :=
  let closing := Form.delimiter boundary ++ [45, 45]
  (Bytes.find? closing body).map fun at_ =>
    let stop := at_ + closing.length
    if Bytes.crlf.isPrefixOf (body.drop stop) then stop + 2 else stop

/-- The lines of a head, and the length of the buffer up to the end of the empty line behind them. -/
structure HeadBlock where
  line : RequestLine
  headers : List Header
  offset : Nat
deriving DecidableEq, Repr

namespace HeadBlock

/-- The lines of the head at the start of a buffer, once the empty line behind them is there. -/
def read (buffer : Bytes) : Reading HeadError HeadBlock :=
  let start := leadingLines buffer 0
  match Bytes.find? Bytes.blankLine (buffer.drop start) with
  | none => .notYet
  | some length =>
    match Text.decode? ((buffer.drop start).take length) with
    | none => .failed .notUtf8
    | some text =>
      let (first, others) := match Text.lines text with
        | [] => ([], [])
        | line :: more => (line, more)
      match RequestLine.read? first with
      | none => .failed (.malformedRequestLine (String.ofList first))
      | some line =>
        .ready ⟨line, others.filterMap Header.read?, start + length + Bytes.blankLine.length⟩

/-- The boundary at which the body ends, if that is how its end is found. -/
def boundary? (b : HeadBlock) : Option String :=
  match Head.valueOf? b.headers "Content-Length" with
  | some _ => none
  | none => (Head.valueOf? b.headers "Content-Type").bind Form.boundary?

/-- The length of the body in the buffer that the head was read from. -/
def measureBody (b : HeadBlock) (buffer : Bytes) : Reading HeadError Nat :=
  match b.boundary? with
  | some boundary =>
    match multipartLength? (buffer.drop b.offset) boundary with
    | some n => .ready n
    | none => .notYet
  | none =>
    match Head.valueOf? b.headers "Content-Length" with
    | some value =>
      match Text.readSize? value.toList with
      | some n =>
        if b.offset + n < sizeLimit then .ready n else .failed (.invalidContentLength value)
      | none => .failed (.invalidContentLength value)
    | none => .ready 0

/-- The head with these lines and a body of the given length. -/
def toHead (b : HeadBlock) (bodyLength : Nat) : Head where
  method := b.line.method
  url := b.line.url
  version := b.line.version
  headers := b.headers
  bodyOffset := b.offset
  bodyLength := bodyLength

end HeadBlock

/-- The head of the request at the start of a buffer, once the request is complete; a request that
declares more than `limit` bytes fails as soon as its size is known. -/
def Head.read (limit : Nat) (buffer : Bytes) : Reading HeadError Head :=
  match HeadBlock.read buffer with
  | .notYet => .notYet
  | .failed e => .failed e
  | .ready block =>
    match block.measureBody buffer with
    | .notYet => .notYet
    | .failed e => .failed e
    | .ready n =>
      let head := block.toHead n
      if limit < head.totalLength then .failed (.tooLarge head.totalLength limit)
      else if buffer.length < head.totalLength then .notYet
      else .ready head

end WebServer.Http
