import WebServer.Text.Split
import WebServer.Text.Utf8

/-! # Responses

Responses are byte strings: a head, an empty line and a body. -/

namespace WebServer.Http.Response

/-- The answer to a request that no handler takes. -/
def notFound : Bytes := Text.utf8 "HTTP/1.0 404 Not Found\r\n\r\n"

/-- The answer to a malformed request. -/
def badRequest : Bytes := Text.utf8 "HTTP/1.0 400 Bad Request\r\n\r\n"

/-- The answer to a request that is too large. -/
def payloadTooLarge : Bytes := Text.utf8 "HTTP/1.0 413 Payload Too Large\r\n\r\n"

/-- The head of a page. -/
def defaultHeader : String := "HTTP/1.1 200 OK\r\nContent-Type: text/html; charset=utf-8"

/-- Whether a line of a head gives the length of the body. -/
def isLengthLine (line : List Char) : Bool :=
  match Text.cut? (· == ':') line with
  | some (name, _) => Text.sameName (String.ofList (Text.trim name)) "Content-Length"
  | none => false

/-- The line that gives the length of the body. -/
def lengthLine (length : Nat) : List Char :=
  ("Content-Length: " ++ toString length).toList

/-- Give a message the true length of its body, as its last header; none without an empty line. -/
def withLength? (message : Bytes) : Option Bytes :=
  (Bytes.find? Bytes.blankLine message).map fun stop =>
    let body := message.drop (stop + Bytes.blankLine.length)
    let kept := (Text.lines (Text.decodeLossy (message.take stop))).filter (!isLengthLine ·)
    Text.encode (Text.joinLines (kept ++ [lengthLine body.length])) ++ message.drop stop

/-- A text in reverse without the line ends at its start. -/
def dropLineEnds : List Char → List Char
  | '\n' :: '\r' :: rest => dropLineEnds rest
  | cs => cs

/-- Put `header` in the place of everything before the empty line, or before a message without one. -/
def replaceHeader (message : Bytes) (header : String) : Bytes :=
  let header := Text.encode (dropLineEnds header.toList.reverse).reverse
  match Bytes.find? Bytes.blankLine message with
  | some stop => header ++ message.drop stop
  | none => header ++ Bytes.blankLine ++ message

/-- The head of a response whose body has the given length, with the empty line. -/
def headText (status contentType : String) (length : Nat) : String :=
  "HTTP/1.1 " ++ status ++ "\r\nContent-Type: " ++ contentType ++ "\r\nContent-Length: " ++
    toString length ++ "\r\n\r\n"

/-- A complete response. -/
def build (status contentType : String) (body : Bytes) : Bytes :=
  Text.utf8 (headText status contentType body.length) ++ body

/-- A page with the given text. -/
def page (body : String) : Bytes :=
  let message := Text.utf8 defaultHeader ++ Bytes.blankLine ++ Text.utf8 body
  (withLength? message).getD message

/-- The content type of a file extension. -/
def contentType (extension : String) : String :=
  match String.ofList (extension.toList.map Char.toLower) with
  | "html" | "htm" => "text/html; charset=utf-8"
  | "css" => "text/css"
  | "js" => "text/javascript"
  | "json" => "application/json"
  | "txt" => "text/plain; charset=utf-8"
  | "svg" => "image/svg+xml"
  | "png" => "image/png"
  | "jpg" | "jpeg" => "image/jpeg"
  | "gif" => "image/gif"
  | "ico" => "image/x-icon"
  | "wasm" => "application/wasm"
  | _ => "application/octet-stream"

end WebServer.Http.Response
