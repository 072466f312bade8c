import WebServer.Bytes

/-! # Opcodes and close codes -/

namespace WebServer.WebSocket

/-- What a frame carries. -/
inductive Opcode where
  | continuation
  | text
  | binary
  | close
  | ping
  | pong
  /-- An opcode that the protocol reserves. -/
  | reserved (value : UInt8)
deriving DecidableEq, Repr

namespace Opcode

/-- The opcode in the low four bits of a byte. -/
def ofByte (b : UInt8) : Opcode :=
  let v := b &&& 0x0F
  if v == 0 then .continuation
  else if v == 1 then .text
  else if v == 2 then .binary
  else if v == 8 then .close
  else if v == 9 then .ping
  else if v == 10 then .pong
  else .reserved v

def toByte : Opcode → UInt8
  | .continuation => 0
  | .text => 1
  | .binary => 2
  | .close => 8
  | .ping => 9
  | .pong => 10
  | .reserved v => v &&& 0x0F

/-- The opcodes that the protocol gives a meaning. -/
def defined : List Opcode := [.continuation, .text, .binary, .close, .ping, .pong]

def name? : Opcode → Option String
  | .continuation => some "continuation"
  | .text => some "text"
  | .binary => some "binary"
  | .close => some "close"
  | .ping => some "ping"
  | .pong => some "pong"
  | .reserved _ => none

def isControl (o : Opcode) : Bool :=
  o.toByte &&& 0x08 != 0

end Opcode

/-- The status codes of closing frames. -/
inductive CloseCode where
  | normal
  | goingAway
  | protocolError
  | invalidPayload
  | messageTooBig
  /-- The code that the peer gave. -/
  | other (code : UInt16)
deriving DecidableEq, Repr

def CloseCode.number : CloseCode → UInt16
  | .normal => 1000
  | .goingAway => 1001
  | .protocolError => 1002
  | .invalidPayload => 1007
  | .messageTooBig => 1009
  | .other code => code

end WebServer.WebSocket
