import WebServer.Form
import WebServer.Form.Parameter
import WebServer.Form.Urlencoded
import WebServer.Text.Utf8

/-! # Multipart forms

The parts of a body stand between delimiters. A part whose structure is broken ends the form; the parts
before it are kept. -/

namespace WebServer.Form

/-- The line that opens a part. -/
def delimiter (boundary : String) : Bytes :=
  [45, 45] ++ Text.utf8 boundary

/-- What the headers of a part say. -/
structure PartHead where
  name : Option String := none
  filename : Option String := none
  contentType : Option String := none
deriving DecidableEq, Repr

/-- Take over a parameter of the disposition. -/
def PartHead.withParameter (h : PartHead) (parameter : String × String) : PartHead :=
  let (key, value) := parameter
  if Text.sameName key "name" then { h with name := some value }
  else if Text.sameName key "filename" then { h with filename := some value }
  else h

/-- Take over a header line. -/
def PartHead.withLine (h : PartHead) (line : List Char) : PartHead :=
  match Text.cut? (· == ':') line with
  | none => h
  | some (key, value) =>
    let key := String.ofList (Text.trim key)
    if Text.sameName key "Content-Disposition" then
      let params := ((Text.cut? (· == ';') value).map Prod.snd).getD []
      (parameters params).foldl withParameter h
    else if Text.sameName key "Content-Type" then
      { h with contentType := some (String.ofList (Text.trim value)) }
    else h

/-- The headers of a part. -/
def PartHead.read (headers : Bytes) : PartHead :=
  (Text.lines (Text.decodeLossy headers)).foldl withLine {}

/-- A part of a multipart body: its headers, the range of its value, and where its closing delimiter ends. -/
structure Part where
  head : PartHead
  start : Nat
  stop : Nat
  next : Nat
deriving DecidableEq, Repr

/-- The first position of a pattern at or after a position. -/
def findFrom? (pattern text : Bytes) (start : Nat) : Option Nat :=
  (Bytes.find? pattern (text.drop start)).map (· + start)

/-- The part whose opening delimiter ends at `position`. -/
def partAt? (body : Bytes) (boundary : String) (position : Nat) : Option Part :=
  if !Bytes.crlf.isPrefixOf (body.drop position) then none
  else do
    let headStart := position + 2
    let headStop ← findFrom? Bytes.blankLine body headStart
    let start := headStop + 4
    let closing := Bytes.crlf ++ delimiter boundary
    let stop ← findFrom? closing body start
    some {
      head := PartHead.read ((body.drop headStart).take (headStop - headStart)),
      start, stop, next := stop + closing.length }

/-- The parts from `position` on, at most `fuel` of them. -/
def partLoop (body : Bytes) (boundary : String) : (fuel : Nat) → (position : Nat) → List Part
  | 0, _ => []
  | fuel + 1, position =>
    match partAt? body boundary position with
    | none => []
    | some part => part :: partLoop body boundary fuel part.next

/-- The parts of a body. -/
def parts (body : Bytes) (boundary : String) : List Part :=
  match Bytes.find? (delimiter boundary) body with
  | none => []
  | some at_ => partLoop body boundary body.length (at_ + (delimiter boundary).length)

/-- The field of a part that has a name; `base` is the position of the body in the request. -/
def Part.field? (base : Nat) (part : Part) : Option FormField := do
  let name ← part.head.name
  some {
    name, filename := part.head.filename, contentType := part.head.contentType,
    value := .slice (base + part.start) (base + part.stop) }

/-- The fields of a multipart body. -/
def ofMultipart (body : Bytes) (boundary : String) (base : Nat) : Form :=
  ⟨(parts body boundary).filterMap (Part.field? base)⟩

/-- The form of a body, read as its content type says; other types hold no form. -/
def ofBody (contentType : String) (body : Bytes) (base : Nat) : Form :=
  match boundary? contentType with
  | some boundary => ofMultipart body boundary base
  | none =>
    if Text.sameName (mediaType contentType) "application/x-www-form-urlencoded" then
      ofUrlencoded body
    else {}

end WebServer.Form
