import WebServer.Digest.Base64
import WebServer.Digest.Sha1
import WebServer.Http.Request

/-! # The opening handshake -/

namespace WebServer.WebSocket

/-- Why an upgrade is refused. -/
inductive HandshakeError where
  | notWebSocket
  | missingConnectionUpgrade
  | missingOrigin
  | unsupportedVersion (version : String)
  | missingHost
  | missingKey
deriving DecidableEq, Repr

def HandshakeError.code : HandshakeError → String
  | .notWebSocket => "NotWebSocket"
  | .missingConnectionUpgrade => "MissingConnectionUpgrade"
  | .missingOrigin => "MissingOrigin"
  | .unsupportedVersion _ => "UnsupportedVersion"
  | .missingHost => "MissingHost"
  | .missingKey => "MissingKey"

def HandshakeError.message : HandshakeError → String
  | .notWebSocket => "Upgrade header is not \"websocket\""
  | .missingConnectionUpgrade => "Connection header does not request an upgrade"
  | .missingOrigin => "Origin header is missing"
  | .unsupportedVersion version => "Unsupported WebSocket version " ++ Text.quote version
  | .missingHost => "Host header is missing or empty"
  | .missingKey => "Sec-WebSocket-Key header is missing"

/-- The text that is hashed together with the key of the client. -/
def acceptSuffix : String := "258EAFA5-E914-47DA-95CA-C5AB0DC85B11"

def supportedVersion : String := "13"

/-- The accept value for the key of a client. -/
def acceptKey (key : String) : String :=
  Digest.Base64.encode (Digest.Sha1.digest (Text.utf8 (key ++ acceptSuffix)))

/-- Whether a text contains another. -/
def containsText (pattern : List Char) : List Char → Bool
  | [] => pattern.isEmpty
  | c :: cs => pattern.isPrefixOf (c :: cs) || containsText pattern cs

/-- The key of a request that asks for an upgrade as the protocol wants it. -/
def checkUpgrade (r : Http.Request) : Except HandshakeError String :=
  let connection := (r.header? "Connection").getD ""
  let version := (r.header? "Sec-WebSocket-Version").getD ""
  if !r.isUpgrade then .error .notWebSocket
  else if !containsText "upgrade".toList (connection.toList.map Char.toLower) then
    .error .missingConnectionUpgrade
  else if (r.header? "Origin").isNone then .error .missingOrigin
  else if version != supportedVersion then .error (.unsupportedVersion version)
  else if (r.header? "Host").all (·.isEmpty) then .error .missingHost
  else
    match r.header? "Sec-WebSocket-Key" with
    | some key => if key.isEmpty then .error .missingKey else .ok key
    | none => .error .missingKey

/-- The response that switches protocols. -/
def switchingProtocols (accept : String) : Bytes :=
  Text.utf8 ("HTTP/1.1 101 Switching Protocols\r\nUpgrade: websocket\r\nConnection: Upgrade\r\n" ++
    "Sec-WebSocket-Accept: " ++ accept ++ "\r\n\r\n")

/-- The response to a request that asks for an upgrade. -/
def upgradeResponse (r : Http.Request) : Except HandshakeError Bytes :=
  (checkUpgrade r).map fun key => switchingProtocols (acceptKey key)

end WebServer.WebSocket
