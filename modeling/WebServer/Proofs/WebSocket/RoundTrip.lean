import WebServer.Proofs.WebSocket.InPlace
import WebServer.Proofs.WebSocket.Sent

/-! # Frames written and read

Frames that were written one behind the other are read back one by one, and a part of a frame is not read at all. -/

namespace WebServer.WebSocket

/-- What a frame is written from. -/
structure Frame where
  opcode : Opcode
  payload : Bytes
  key : Option MaskKey
deriving DecidableEq, Repr

namespace Frame

/-- The form that the length field is written in. -/
def form (f : Frame) : LengthForm :=
  .shortest f.payload.length

def bytes (f : Frame) : Bytes :=
  encode f.opcode f.payload f.key

/-- What a reader finds in front of the payload. -/
def header (f : Frame) : FrameHeader where
  fin := true
  rsv := 0
  opcode := .ofByte f.opcode.toByte
  masked := f.key.isSome
  lengthCode := f.form.code f.payload.length
  maskKey := f.key
  payloadStart := 2 + f.form.width + if f.key.isSome then 4 else 0
  payloadLength := f.payload.length

/-- The payload is within a limit, and its length is one that a list of bytes can have in memory. -/
structure Within (limit : Nat) (f : Frame) : Prop where
  limit : f.payload.length ≤ limit
  size : f.payload.length < 2 ^ 63

variable {limit : Nat} {f : Frame}

/-- The frame with the form that it is written in. -/
def asSent (f : Frame) : SentFrame :=
  ⟨true, f.opcode, f.payload, f.key, f.form⟩

theorem header_asSent (f : Frame) : f.asSent.header = f.header := rfl

theorem bytes_asSent (f : Frame) : f.asSent.bytes = f.bytes := by
  obtain ⟨opcode, payload, key⟩ := f
  cases key with
  | none => simp only [bytes, encode, LengthForm.lengthField_eq, List.cons_append]; rfl
  | some key =>
      simp only [bytes, encode, LengthForm.lengthField_eq, asSent, form, SentFrame.bytes, SentFrame.front,
        SentFrame.body, List.cons_append, List.append_assoc]
      rfl

theorem Within.asSent (h : f.Within limit) : f.asSent.Within limit :=
  ⟨h.limit, h.size, LengthForm.fits_shortest (Nat.lt_trans h.size (by decide))⟩

theorem length_bytes (f : Frame) : f.bytes.length = f.header.frameLength := by
  rw [← bytes_asSent, SentFrame.length_bytes, header_asSent]

/-- A part of a frame is not read. -/
theorem decode_part (h : f.Within limit) {n : Nat} (hn : n < f.bytes.length) :
    decode limit (f.bytes.take n) = .notYet := by
  rw [← bytes_asSent] at hn ⊢
  exact SentFrame.decode_part h.asSent hn

/-- The length field is written in a form, and no form that the length fits is smaller. -/
structure WrittenIn (form : LengthForm) (f : Frame) : Prop where
  fits : form.Fits f.payload.length
  least : ∀ other : LengthForm, other.Fits f.payload.length → form.width ≤ other.width
  field : ∃ first behind, f.bytes = first :: ((if f.key.isSome then 0x80 else 0) ||| form.code f.payload.length) ::
    (Bytes.ofNat form.width f.payload.length ++ behind)

theorem Within.writtenIn (h : f.Within limit) : f.WrittenIn f.form where
  fits := h.asSent.fits
  least _ := LengthForm.width_shortest_le
  field := by
    rw [← bytes_asSent, SentFrame.bytes, SentFrame.front, Frame.asSent]
    cases f.key with
    | none => exact ⟨_, _, rfl⟩
    | some key => exact ⟨_, key.bytes ++ key.apply f.payload, by rw [← List.append_assoc]; rfl⟩

end Frame

/-! ## Frames one behind the other -/

/-- Read a number of frames and remove each of them. What is left comes last. -/
def takeFrames (limit : Nat) : Nat → Bytes → Option (List (FrameHeader × Bytes) × Bytes)
  | 0, buffer => some ([], buffer)
  | count + 1, buffer =>
    match decode limit buffer with
    | .ready (header, unmasked) =>
      (takeFrames limit count (unmasked.drop header.frameLength)).map fun (frames, rest) =>
        ((header, header.payload unmasked) :: frames, rest)
    | _ => none

theorem takeFrames_bytes {limit : Nat} {f : Frame} (h : f.Within limit) (count : Nat) (rest : Bytes) :
    takeFrames limit (count + 1) (f.bytes ++ rest) =
      (takeFrames limit count rest).map fun (frames, rest) => ((f.header, f.payload) :: frames, rest) := by
  rw [takeFrames, ← Frame.bytes_asSent, SentFrame.decode_bytes h.asSent]
  dsimp only
  rw [SentFrame.payload_front, SentFrame.drop_front]
  rfl

theorem takeFrames_flatMap {limit : Nat} {frames : List Frame} (h : ∀ f ∈ frames, f.Within limit) (rest : Bytes) :
    takeFrames limit frames.length (frames.flatMap Frame.bytes ++ rest) =
      some (frames.map fun f => (f.header, f.payload), rest) := by
  induction frames with
  | nil => rfl
  | cons f frames ih =>
      have htail := ih fun g hg => h g (List.mem_cons_of_mem f hg)
      rw [List.flatMap_cons, List.append_assoc, List.length_cons, takeFrames_bytes (h f List.mem_cons_self), htail]
      rfl

/-- Frames that are written one behind the other are read back as they are, and what follows them is left. Each has the
length that is read, its length field has the least form, and a part of it is neither read nor changed. -/
theorem takeFrames_written {limit : Nat} {frames : List Frame} (h : ∀ f ∈ frames, f.Within limit) (rest : Bytes) :
    takeFrames limit frames.length (frames.flatMap Frame.bytes ++ rest) =
        some (frames.map fun f => (f.header, f.payload), rest) ∧
      ∀ f ∈ frames, f.header.frameLength = f.bytes.length ∧ f.WrittenIn f.form ∧
        ∀ n < f.bytes.length, decode limit (f.bytes.take n) = .notYet ∧
          decodeInPlace limit (f.bytes.take n) = .ok (.notYet, f.bytes.take n) := by
  refine ⟨takeFrames_flatMap h rest, ?_⟩
  intro f hf
  refine ⟨f.length_bytes.symm, (h f hf).writtenIn, ?_⟩
  intro n hn
  have hpart := Frame.decode_part (h f hf) hn
  refine ⟨hpart, ?_⟩
  rw [decodeInPlace_eq, hpart]
  rfl

/-- A masked frame and an empty one, and a byte behind them. -/
theorem takeFrames_of_text_and_ping :
    (∀ f ∈ [(⟨.text, [72, 105], some ⟨1, 2, 3, 4⟩⟩ : Frame), ⟨.ping, [], none⟩], f.Within 2) ∧
      takeFrames 2 2 [0x81, 0x82, 1, 2, 3, 4, 73, 107, 0x89, 0, 7] =
        some ([({ fin := true, rsv := 0, opcode := .text, masked := true, lengthCode := 2,
                  maskKey := some ⟨1, 2, 3, 4⟩, payloadStart := 6, payloadLength := 2 }, [72, 105]),
               ({ fin := true, rsv := 0, opcode := .ping, masked := false, lengthCode := 0,
                  maskKey := none, payloadStart := 2, payloadLength := 0 }, [])], [7]) := by
  have hwithin : ∀ f ∈ [(⟨.text, [72, 105], some ⟨1, 2, 3, 4⟩⟩ : Frame), ⟨.ping, [], none⟩], f.Within 2 := by
    intro f hf
    rcases List.mem_cons.mp hf with rfl | hf
    · exact ⟨by decide, by decide⟩
    · obtain rfl := List.mem_singleton.mp hf
      exact ⟨by decide, by decide⟩
  exact ⟨hwithin, (takeFrames_written hwithin [7]).1⟩

end WebServer.WebSocket
