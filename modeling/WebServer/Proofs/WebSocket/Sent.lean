import WebServer.Proofs.WebSocket.Layout
import WebServer.Proofs.WebSocket.Stability

/-! # Frames as a peer sends them

A peer may send any frame as the last one of its message or not, masked or not, and in any form of the length field
that the length fits. All of them are read back, and a part of one is not read at all. -/

namespace WebServer.WebSocket

/-- A frame without reserved bits, and the form that its length field has. -/
structure SentFrame where
  fin : Bool
  opcode : Opcode
  payload : Bytes
  key : Option MaskKey
  form : LengthForm
deriving DecidableEq, Repr

namespace SentFrame

/-- What a reader finds in front of the payload. -/
def header (f : SentFrame) : FrameHeader where
  fin := f.fin
  rsv := 0
  opcode := .ofByte f.opcode.toByte
  masked := f.key.isSome
  lengthCode := f.form.code f.payload.length
  maskKey := f.key
  payloadStart := 2 + f.form.width + if f.key.isSome then 4 else 0
  payloadLength := f.payload.length

/-- The payload is within a limit, its length is one that a list of bytes can have in memory, and its length field is
large enough. -/
structure Within (limit : Nat) (f : SentFrame) : Prop where
  limit : f.payload.length ≤ limit
  size : f.payload.length < 2 ^ 63
  fits : f.form.Fits f.payload.length

/-- The byte of flags and opcode. -/
def first (f : SentFrame) : UInt8 :=
  finBit f.fin ||| f.opcode.toByte

/-- The bytes in front of the payload. -/
def front (f : SentFrame) : Bytes :=
  match f.key with
  | none => f.first :: (0 ||| f.form.code f.payload.length) :: Bytes.ofNat f.form.width f.payload.length
  | some key => f.first :: (0x80 ||| f.form.code f.payload.length) ::
      (Bytes.ofNat f.form.width f.payload.length ++ key.bytes)

/-- The payload as it is sent. -/
def body (f : SentFrame) : Bytes :=
  match f.key with
  | none => f.payload
  | some key => key.apply f.payload

def bytes (f : SentFrame) : Bytes :=
  f.front ++ f.body

variable {limit : Nat} {f : SentFrame}

theorem body_eq (f : SentFrame) : f.body = maskBy f.key f.payload := by
  rw [body]
  cases f.key with
  | none => rfl
  | some key => rfl

@[simp] theorem length_body (f : SentFrame) : f.body.length = f.payload.length := by
  rw [body_eq, length_maskBy]

@[simp] theorem length_front (f : SentFrame) : f.front.length = f.header.payloadStart := by
  obtain ⟨fin, opcode, payload, key, form⟩ := f
  cases key with
  | none =>
      simp only [front, header, List.length_cons, Bytes.length_ofNat, Option.isSome_none, Bool.false_eq_true, if_false]
      omega
  | some key =>
      simp only [front, header, List.length_cons, List.length_append, Bytes.length_ofNat]
      exact Nat.add_comm (_ + 4) 2

theorem length_bytes (f : SentFrame) : f.bytes.length = f.header.frameLength := by
  rw [bytes, List.length_append, length_front, length_body]
  rfl

theorem length_bytes_pos (f : SentFrame) : 0 < f.bytes.length := by
  rw [length_bytes, FrameHeader.frameLength, header]
  dsimp only
  omega

theorem payloadStart_le (f : SentFrame) : f.header.payloadStart ≤ 14 := by
  have hwidth : f.form.width ≤ 8 := by cases f.form <;> decide
  rw [header]
  dsimp only
  split <;> omega

theorem payload_front (f : SentFrame) (rest : Bytes) :
    f.header.payload (f.front ++ (f.payload ++ rest)) = f.payload := by
  rw [FrameHeader.payload, List.drop_left' f.length_front]
  exact List.take_left' rfl

theorem drop_front (f : SentFrame) (rest : Bytes) :
    (f.front ++ (f.payload ++ rest)).drop f.header.frameLength = rest := by
  rw [FrameHeader.frameLength, ← List.drop_drop, List.drop_left' f.length_front]
  exact List.drop_left' rfl

theorem unmask_body (f : SentFrame) (rest : Bytes) :
    unmask f.key f.header.payloadStart f.payload.length (f.front ++ (f.body ++ rest)) =
      f.front ++ (f.payload ++ rest) := by
  rw [unmask_append f.length_front f.length_body, body_eq, maskBy_maskBy]

theorem decodePayload_bytes (h : f.Within limit) (rest : Bytes) :
    decodePayload f.header (f.bytes ++ rest) = .ready (f.header, f.front ++ (f.payload ++ rest)) := by
  have hsize : f.header.frameLength < sizeLimit := by
    have hstart := f.payloadStart_le
    have hlength : f.header.frameLength = f.header.payloadStart + f.payload.length := rfl
    have hlimit : sizeLimit = 2 ^ 64 := rfl
    have hpayload := h.size
    omega
  rw [decodePayload, if_neg (Nat.not_le.mpr hsize),
    if_neg (by rw [List.length_append, length_bytes]; omega), bytes, List.append_assoc]
  exact congrArg (fun unmasked => Reading.ready (f.header, unmasked)) (f.unmask_body rest)

/-- A frame is read back whatever follows, its payload unmasked. -/
theorem decode_bytes (h : f.Within limit) (rest : Bytes) :
    decode limit (f.bytes ++ rest) = .ready (f.header, f.front ++ (f.payload ++ rest)) := by
  have hpayload := decodePayload_bytes h rest
  obtain ⟨hfin, hrsv, hopcode⟩ := first_byte f.fin f.opcode
  obtain ⟨hcode, hclear, hset⟩ := LengthForm.second_byte h.fits
  rw [header] at hpayload ⊢
  cases hkey : f.key with
  | none =>
      have hbytes : f.bytes ++ rest = f.first :: (0 ||| f.form.code f.payload.length) ::
          (Bytes.ofNat f.form.width f.payload.length ++ (f.body ++ rest)) := by
        rw [bytes, front, hkey]
        simp only [List.cons_append, List.append_assoc]
      have hlength := LengthForm.declaredLength?_eq h.fits f.first (0 ||| f.form.code f.payload.length) (f.body ++ rest)
      rw [← hcode 0 (.inl rfl)] at hlength
      rw [hbytes, hkey] at hpayload
      rw [hbytes, decode_of_unmasked hclear hlength h.limit, first, hfin, hrsv, hopcode, hcode 0 (.inl rfl)]
      exact hpayload
  | some key =>
      have hbytes : f.bytes ++ rest = f.first :: (0x80 ||| f.form.code f.payload.length) ::
          (Bytes.ofNat f.form.width f.payload.length ++ (key.bytes ++ (f.body ++ rest))) := by
        rw [bytes, front, hkey]
        simp only [List.cons_append, List.append_assoc]
      have hlength := LengthForm.declaredLength?_eq h.fits f.first (0x80 ||| f.form.code f.payload.length)
        (key.bytes ++ (f.body ++ rest))
      have hat := MaskKey.keyAt?_eq key
        (show (f.first :: (0x80 ||| f.form.code f.payload.length) ::
            Bytes.ofNat f.form.width f.payload.length).length = 2 + f.form.width by
          rw [List.length_cons, List.length_cons, Bytes.length_ofNat]
          omega)
        (f.body ++ rest)
      rw [← hcode 0x80 (.inr rfl)] at hlength
      rw [hbytes, hkey] at hpayload
      rw [hbytes, decode_of_masked hset hlength h.limit hat, first, hfin, hrsv, hopcode, hcode 0x80 (.inr rfl)]
      exact hpayload

/-- A part of a frame is not read. -/
theorem decode_part (h : f.Within limit) {n : Nat} (hn : n < f.bytes.length) :
    decode limit (f.bytes.take n) = .notYet := by
  have hwhole : decode limit (f.bytes.take n ++ f.bytes.drop n) = .ready (f.header, f.front ++ (f.payload ++ [])) := by
    rw [List.take_append_drop]
    have hbytes := decode_bytes h []
    rwa [List.append_nil] at hbytes
  cases hpart : decode limit (f.bytes.take n) with
  | notYet => rfl
  | failed error =>
      rw [decode_append_of_failed hpart] at hwhole
      cases hwhole
  | ready found =>
      obtain ⟨header, unmasked⟩ := found
      obtain ⟨-, hle, unmasked', hmore, -⟩ := decode_append_of_ready hpart (f.bytes.drop n)
      obtain ⟨rfl, -⟩ := Prod.mk.inj (Reading.ready.inj (hmore.symm.trans hwhole))
      rw [List.length_take, ← length_bytes] at hle
      omega

end SentFrame

end WebServer.WebSocket
