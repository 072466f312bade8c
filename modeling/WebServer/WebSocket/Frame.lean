import WebServer.Reading
import WebServer.Text.Size
import WebServer.Text.Utf8
import WebServer.WebSocket.Opcode

/-! # Frames

A frame is a header of two to fourteen bytes and a payload, which a key of four bytes may mask. -/

namespace WebServer.WebSocket

/-- The key that masks a payload. -/
structure MaskKey where
  k0 : UInt8
  k1 : UInt8
  k2 : UInt8
  k3 : UInt8
deriving DecidableEq, Repr

namespace MaskKey

/-- The byte of the key for a position of the payload. -/
def byteAt (key : MaskKey) (i : Nat) : UInt8 :=
  match i % 4 with
  | 0 => key.k0
  | 1 => key.k1
  | 2 => key.k2
  | _ => key.k3

def bytes (key : MaskKey) : Bytes :=
  [key.k0, key.k1, key.k2, key.k3]

def apply (key : MaskKey) (payload : Bytes) : Bytes :=
  payload.mapIdx fun i b => b ^^^ key.byteAt i

end MaskKey

/-- Why no frame can be read from a buffer: an error, or a fault of the reader. -/
inductive FrameError where
  /-- The payload is larger than the limit. -/
  | tooLarge (length limit : Nat)
  /-- The end of the payload is no size. This is no error that a caller is told of: the sum overflows and the
  program stops. -/
  | unaddressable (length : Nat)
deriving DecidableEq, Repr

/-- The text of an error; a fault has none. -/
def FrameError.message : FrameError → String
  | .tooLarge length limit =>
    "Frame payload of " ++ toString length ++ " bytes exceeds the " ++ toString limit ++
      " byte limit"
  | .unaddressable _ => ""

/-- The header of a frame, and the place of the payload in the buffer it was read from. -/
structure FrameHeader where
  fin : Bool
  rsv : UInt8
  opcode : Opcode
  masked : Bool
  /-- The length field as sent; 126 and 127 announce a longer one. -/
  lengthCode : UInt8
  maskKey : Option MaskKey
  payloadStart : Nat
  payloadLength : Nat
deriving DecidableEq, Repr

namespace FrameHeader

def frameLength (h : FrameHeader) : Nat :=
  h.payloadStart + h.payloadLength

/-- The payload in a buffer that starts with the frame. -/
def payload (h : FrameHeader) (buffer : Bytes) : Bytes :=
  (buffer.drop h.payloadStart).take h.payloadLength

end FrameHeader

/-- The length field of a frame: the shortest of its three forms that fits. -/
def lengthField (maskBit : UInt8) (length : Nat) : Bytes :=
  if length < 126 then [maskBit ||| UInt8.ofNat length]
  else if length < 0x10000 then (maskBit ||| 126) :: Bytes.ofNat 2 length
  else (maskBit ||| 127) :: Bytes.ofNat 8 length

/-- The last frame of a message, masked if there is a key. -/
def encode (opcode : Opcode) (payload : Bytes) (key : Option MaskKey) : Bytes :=
  match key with
  | none => (0x80 ||| opcode.toByte) :: lengthField 0 payload.length ++ payload
  | some key =>
    (0x80 ||| opcode.toByte) :: lengthField 0x80 payload.length ++ key.bytes ++ key.apply payload

/-- The declared length of the payload and the position behind the length field, once it is complete. -/
def declaredLength? (lengthCode : UInt8) (buffer : Bytes) : Option (Nat × Nat) :=
  if lengthCode == 126 then
    if buffer.length < 4 then none else some (Bytes.toNat ((buffer.drop 2).take 2), 4)
  else if lengthCode == 127 then
    if buffer.length < 10 then none else some (Bytes.toNat ((buffer.drop 2).take 8), 10)
  else some (lengthCode.toNat, 2)

/-- The key at a position of the buffer, once it is complete. -/
def keyAt? (buffer : Bytes) (position : Nat) : Option MaskKey :=
  match buffer.drop position with
  | a :: b :: c :: d :: _ => some ⟨a, b, c, d⟩
  | _ => none

/-- Unmask a range of a buffer. -/
def unmask (key : Option MaskKey) (start length : Nat) (buffer : Bytes) : Bytes :=
  match key with
  | none => buffer
  | some key =>
    let rest := buffer.drop start
    buffer.take start ++ key.apply (rest.take length) ++ rest.drop length

/-- Finish a header whose payload starts at its `payloadStart`, and unmask the payload once it is complete. Where the
payload ends is computed before anything else, which faults where the sum is no size. -/
def decodePayload (header : FrameHeader) (buffer : Bytes) :
    Reading FrameError (FrameHeader × Bytes) :=
  if sizeLimit ≤ header.frameLength then .failed (.unaddressable header.payloadLength)
  else if buffer.length < header.frameLength then .notYet
  else .ready (header, unmask header.maskKey header.payloadStart header.payloadLength buffer)

/-- The frame at the start of a buffer, once it is complete, with the buffer after its payload was
unmasked in place; a payload of more than `limit` bytes fails as soon as its length is known. -/
def decode (limit : Nat) (buffer : Bytes) : Reading FrameError (FrameHeader × Bytes) :=
  match buffer with
  | b0 :: b1 :: _ =>
    let lengthCode := b1 &&& 0x7F
    let masked := b1 &&& 0x80 != 0
    match declaredLength? lengthCode buffer with
    | none => .notYet
    | some (length, position) =>
      if limit < length then .failed (.tooLarge length limit)
      else
        let header : FrameHeader := {
          fin := b0 &&& 0x80 != 0, rsv := (b0 >>> 4) &&& 0x07, opcode := .ofByte b0, masked,
          lengthCode, maskKey := none, payloadStart := position, payloadLength := length }
        if masked then
          match keyAt? buffer position with
          | none => .notYet
          | some key =>
            decodePayload { header with maskKey := some key, payloadStart := position + 4 } buffer
        else decodePayload header buffer
  | _ => .notYet

/-- The payload of a closing frame: its code and a reason. -/
def closePayload (code : CloseCode) (reason : String) : Bytes :=
  Bytes.ofNat 2 code.number.toNat ++ Text.utf8 reason

/-- The code in the payload of a closing frame. -/
def closeCode? (payload : Bytes) : Option UInt16 :=
  match payload with
  | high :: low :: _ => some (UInt16.ofNat (Bytes.toNat [high, low]))
  | _ => none

end WebServer.WebSocket
