import WebServer.Config
import WebServer.Proofs.WebSocket.Layout

/-! # Frames in memory

A decoder at work on a buffer in memory, where sizes have 64 bits: every sum may overflow, every range may leave the
buffer, and the payload is unmasked where it stands. It answers like `decode`, and its only fault is a payload that
would end beyond the largest size. -/

namespace WebServer.WebSocket

/-- What stops a decoder. -/
inductive Fault where
  /-- A sum is larger than the largest size. -/
  | overflow
  /-- A range is not part of its buffer. -/
  | outOfRange
deriving DecidableEq, Repr

def addSizes (a b : Nat) : Except Fault Nat :=
  if a + b < sizeLimit then .ok (a + b) else .error .overflow

def byteAt (buffer : Bytes) (position : Nat) : Except Fault UInt8 :=
  match buffer[position]? with
  | some b => .ok b
  | none => .error .outOfRange

/-- Replace the bytes of a range. -/
def replaceIn (buffer : Bytes) (start stop : Nat) (f : Bytes → Bytes) : Except Fault Bytes :=
  if start ≤ stop ∧ stop ≤ buffer.length then
    .ok (buffer.take start ++ f ((buffer.drop start).take (stop - start)) ++ buffer.drop stop)
  else .error .outOfRange

/-- The bytes of a range. -/
def bytesIn (buffer : Bytes) (start stop : Nat) : Except Fault Bytes :=
  if start ≤ stop ∧ stop ≤ buffer.length then .ok ((buffer.drop start).take (stop - start))
  else .error .outOfRange

/-- The declared length of the payload and the position behind the length field, once it is complete. -/
def lengthInPlace (lengthCode : UInt8) (buffer : Bytes) : Except Fault (Option (Nat × Nat)) :=
  if lengthCode == 126 then
    if buffer.length < 4 then .ok none
    else do
      let high ← byteAt buffer 2
      let low ← byteAt buffer 3
      return some (Bytes.toNat [high, low], 4)
  else if lengthCode == 127 then
    if buffer.length < 10 then .ok none
    else do
      let bytes ← bytesIn buffer 2 10
      return some (Bytes.toNat bytes, 10)
  else .ok (some (lengthCode.toNat, 2))

/-- The key at a position of the buffer and the position behind it, once it is complete. -/
def keyInPlace (buffer : Bytes) (position : Nat) : Except Fault (Option (MaskKey × Nat)) := do
  let behind ← addSizes position 4
  if buffer.length < behind then return none
  let k0 ← byteAt buffer position
  let k1 ← byteAt buffer (← addSizes position 1)
  let k2 ← byteAt buffer (← addSizes position 2)
  let k3 ← byteAt buffer (← addSizes position 3)
  return some (⟨k0, k1, k2, k3⟩, behind)

/-- Finish a header, and unmask the payload where it stands once it is complete. -/
def payloadInPlace (header : FrameHeader) (buffer : Bytes) : Except Fault (Reading FrameError FrameHeader × Bytes) := do
  let stop ← addSizes header.payloadStart header.payloadLength
  if buffer.length < stop then return (.notYet, buffer)
  match header.maskKey with
  | none => return (.ready header, buffer)
  | some key =>
    let buffer ← replaceIn buffer header.payloadStart stop key.apply
    return (.ready header, buffer)

/-- What a decoder answers, and the buffer that it leaves. -/
def decodeInPlace (limit : Nat) (buffer : Bytes) : Except Fault (Reading FrameError FrameHeader × Bytes) := do
  if buffer.length < 2 then return (.notYet, buffer)
  let b0 ← byteAt buffer 0
  let b1 ← byteAt buffer 1
  let lengthCode := b1 &&& 0x7F
  let masked := b1 &&& 0x80 != 0
  match ← lengthInPlace lengthCode buffer with
  | none => return (.notYet, buffer)
  | some (length, position) =>
    if limit < length then return (.failed (.tooLarge length limit), buffer)
    let header : FrameHeader := {
      fin := b0 &&& 0x80 != 0, rsv := (b0 >>> 4) &&& 0x07, opcode := .ofByte b0, masked,
      lengthCode, maskKey := none, payloadStart := position, payloadLength := length }
    if masked then
      match ← keyInPlace buffer position with
      | none => return (.notYet, buffer)
      | some (key, start) => payloadInPlace { header with maskKey := some key, payloadStart := start } buffer
    else payloadInPlace header buffer

/-! ## The same answers -/

/-- An answer of `decode` as it is given in memory. -/
def inPlace (buffer : Bytes) : Reading FrameError (FrameHeader × Bytes) → Except Fault (Reading FrameError FrameHeader × Bytes)
  | .notYet => .ok (.notYet, buffer)
  | .ready (header, unmasked) => .ok (.ready header, unmasked)
  | .failed (.tooLarge length limit) => .ok (.failed (.tooLarge length limit), buffer)
  | .failed (.unaddressable _) => .error .overflow

theorem addSizes_of_lt {a b : Nat} (h : a + b < sizeLimit) : addSizes a b = .ok (a + b) :=
  if_pos h

theorem bytesIn_of_le {buffer : Bytes} {start stop : Nat} (h : start ≤ stop) (hstop : stop ≤ buffer.length) :
    bytesIn buffer start stop = .ok ((buffer.drop start).take (stop - start)) :=
  if_pos ⟨h, hstop⟩

theorem lengthInPlace_eq (lengthCode : UInt8) (buffer : Bytes) :
    lengthInPlace lengthCode buffer = .ok (declaredLength? lengthCode buffer) := by
  rw [lengthInPlace, declaredLength?]
  split
  · split
    · rfl
    · rcases buffer with _ | ⟨b0, _ | ⟨b1, _ | ⟨high, _ | ⟨low, rest⟩⟩⟩⟩
      case cons.cons.cons.cons => rfl
      all_goals simp at *
  · split
    · split
      · rfl
      · rw [bytesIn_of_le (by decide) (by omega)]
        rfl
    · rfl

theorem keyInPlace_eq {buffer : Bytes} {position : Nat} (h : position + 4 < sizeLimit) :
    keyInPlace buffer position = .ok ((keyAt? buffer position).map fun key => (key, position + 4)) := by
  have hadd (n : Nat) (hn : n ≤ 4) : addSizes position n = .ok (position + n) := addSizes_of_lt (by omega)
  have hbyte (n : Nat) : buffer[position + n]? = (buffer.drop position)[n]? := List.getElem?_drop.symm
  have hlength : (buffer.drop position).length = buffer.length - position := List.length_drop
  rw [keyInPlace, keyAt?, hadd 4 (by omega), hadd 1 (by omega), hadd 2 (by omega), hadd 3 (by omega)]
  simp only [bind, Except.bind, byteAt, hbyte, show buffer[position]? = (buffer.drop position)[0]? from hbyte 0]
  rcases hd : buffer.drop position with _ | ⟨k0, _ | ⟨k1, _ | ⟨k2, _ | ⟨k3, rest⟩⟩⟩⟩
  case cons.cons.cons.cons =>
      rw [hd] at hlength
      simp only [List.length_cons] at hlength
      rw [if_neg (by omega)]
      rfl
  all_goals
    rw [hd] at hlength
    simp only [List.length_cons, List.length_nil] at hlength
    rw [if_pos (by omega)]
    rfl

theorem payloadInPlace_eq (header : FrameHeader) (buffer : Bytes) :
    payloadInPlace header buffer = inPlace buffer (decodePayload header buffer) := by
  rw [payloadInPlace, decodePayload, addSizes]
  change _ = inPlace buffer (if sizeLimit ≤ header.payloadStart + header.payloadLength then _ else
    if buffer.length < header.payloadStart + header.payloadLength then _ else _)
  by_cases hsize : header.payloadStart + header.payloadLength < sizeLimit
  · rw [if_pos hsize, if_neg (Nat.not_le.mpr hsize)]
    simp only [bind, Except.bind]
    by_cases hlength : buffer.length < header.payloadStart + header.payloadLength
    · rw [if_pos hlength, if_pos hlength]
      rfl
    · rw [if_neg hlength, if_neg hlength]
      cases header.maskKey with
      | none => rfl
      | some key =>
          dsimp only
          rw [replaceIn, if_pos ⟨Nat.le_add_right _ _, Nat.le_of_not_lt hlength⟩, Nat.add_sub_cancel_left]
          simp only [inPlace, unmask, List.drop_drop]
          rfl
  · rw [if_neg hsize, if_pos (Nat.le_of_not_lt hsize)]
    rfl

theorem le_ten_of_declaredLength? {code : UInt8} {buffer : Bytes} {length position : Nat}
    (h : declaredLength? code buffer = some (length, position)) : position ≤ 10 := by
  rw [declaredLength?] at h
  split at h
  · split at h
    · simp at h
    · simp only [Option.some.injEq, Prod.mk.injEq] at h
      omega
  · split at h
    · split at h
      · simp at h
      · simp only [Option.some.injEq, Prod.mk.injEq] at h
        omega
    · simp only [Option.some.injEq, Prod.mk.injEq] at h
      omega

/-- A decoder in memory answers like one that computes with numbers of any size. -/
theorem decodeInPlace_eq (limit : Nat) (buffer : Bytes) :
    decodeInPlace limit buffer = inPlace buffer (decode limit buffer) := by
  match buffer with
  | [] | [_] => rfl
  | b0 :: b1 :: rest =>
      rw [decodeInPlace, decode, if_neg (by simp)]
      simp only [byteAt, List.getElem?_cons_zero, List.getElem?_cons_succ, bind, Except.bind, lengthInPlace_eq]
      cases hlength : declaredLength? (b1 &&& 0x7F) (b0 :: b1 :: rest) with
      | none => rfl
      | some found =>
          obtain ⟨length, position⟩ := found
          have hposition := le_ten_of_declaredLength? hlength
          dsimp only
          split
          · rfl
          · split
            · rw [keyInPlace_eq (Nat.lt_of_le_of_lt (Nat.add_le_add_right hposition 4) (by decide))]
              cases keyAt? (b0 :: b1 :: rest) position with
              | none => rfl
              | some key => exact payloadInPlace_eq _ _
            · exact payloadInPlace_eq _ _

/-! ## Faults -/

/-- Once the length of a payload is known and allowed, only its end is left to be looked at. -/
theorem decode_cases (limit : Nat) (buffer : Bytes) :
    decode limit buffer = .notYet ∨
      (∃ length, limit < length ∧ decode limit buffer = .failed (.tooLarge length limit)) ∨
      ∃ header, header.payloadStart ≤ 14 ∧ header.payloadLength ≤ limit ∧
        decode limit buffer = decodePayload header buffer := by
  match buffer with
  | [] | [_] => exact .inl rfl
  | b0 :: b1 :: rest =>
      rw [decode]
      cases hlength : declaredLength? (b1 &&& 0x7F) (b0 :: b1 :: rest) with
      | none => exact .inl rfl
      | some found =>
          obtain ⟨length, position⟩ := found
          have hposition := le_ten_of_declaredLength? hlength
          dsimp only
          split
          · exact .inr (.inl ⟨length, ‹_›, rfl⟩)
          · have hlimit : length ≤ limit := Nat.le_of_not_lt ‹_›
            split
            · split
              · exact .inl rfl
              · exact .inr (.inr ⟨_, Nat.add_le_add_right hposition 4, hlimit, rfl⟩)
            · exact .inr (.inr ⟨_, Nat.le_trans hposition (by decide), hlimit, rfl⟩)

/-- The decoder comes to an end, and a frame that it finds lies in the buffer. -/
def Safe (limit : Nat) (buffer : Bytes) : Prop :=
  ∃ answer after, decodeInPlace limit buffer = .ok (answer, after) ∧
    ∀ header, answer = .ready header →
      header.payloadStart + header.payloadLength < sizeLimit ∧
        header.payloadStart + header.payloadLength ≤ buffer.length

/-- No range leaves the buffer, and no sum overflows unless the limit is about the largest size. -/
theorem safe_or_overflow (limit : Nat) (buffer : Bytes) :
    Safe limit buffer ∨ decodeInPlace limit buffer = .error .overflow ∧ sizeLimit ≤ limit + 14 := by
  rw [Safe, decodeInPlace_eq]
  rcases decode_cases limit buffer with h | ⟨length, -, h⟩ | ⟨header, hstart, hlength, h⟩
  · rw [h]
    exact .inl ⟨_, _, rfl, nofun⟩
  · rw [h]
    exact .inl ⟨_, _, rfl, nofun⟩
  · rw [h, decodePayload]
    have hsum : header.frameLength = header.payloadStart + header.payloadLength := rfl
    split
    · exact .inr ⟨rfl, by omega⟩
    · split
      · exact .inl ⟨_, _, rfl, nofun⟩
      · refine .inl ⟨_, _, rfl, fun found hfound => ?_⟩
        obtain rfl := Reading.ready.inj hfound
        omega

/-- The end of a payload is no size just where its sum overflows in memory. -/
theorem decodeInPlace_eq_overflow_iff {limit : Nat} {buffer : Bytes} :
    decodeInPlace limit buffer = .error .overflow ↔ ∃ length, decode limit buffer = .failed (.unaddressable length) := by
  rw [decodeInPlace_eq]
  cases decode limit buffer with
  | notYet | ready => simp [inPlace]
  | failed error => cases error <;> simp [inPlace]

/-- A decoder that is safe on a buffer does not fault on it. -/
theorem Safe.decode_ne {limit : Nat} {buffer : Bytes} (h : Safe limit buffer) (length : Nat) :
    decode limit buffer ≠ .failed (.unaddressable length) := by
  intro hfault
  obtain ⟨answer, after, hanswer, -⟩ := h
  rw [decodeInPlace_eq_overflow_iff.mpr ⟨length, hfault⟩] at hanswer
  cases hanswer

/-- The header of a masked frame whose payload is announced in the long form. -/
def longHeader (length : Nat) : Bytes :=
  0x82 :: 0xFF :: (Bytes.ofNat 8 length ++ [0, 0, 0, 0])

/-- A payload that starts behind the longest header and is about as long as sizes go has no end. -/
theorem decodeInPlace_longHeader {limit length : Nat} (hlimit : length ≤ limit) (hsize : length < sizeLimit)
    (hend : sizeLimit ≤ length + 14) : decodeInPlace limit (longHeader length) = .error .overflow := by
  have hlength : declaredLength? (0xFF &&& 0x7F) (longHeader length) = some (length, 10) :=
    @LengthForm.declaredLength?_eq .long length hsize 0x82 0xFF [0, 0, 0, 0]
  have hkey : keyAt? (longHeader length) 10 = some ⟨0, 0, 0, 0⟩ :=
    @MaskKey.keyAt?_eq ⟨0, 0, 0, 0⟩ (0x82 :: 0xFF :: Bytes.ofNat 8 length) 10
      (by rw [List.length_cons, List.length_cons, Bytes.length_ofNat]) []
  rw [decodeInPlace_eq, longHeader, decode_of_masked (by decide) hlength hlimit hkey, decodePayload,
    FrameHeader.frameLength, if_pos (by dsimp only; omega)]
  rfl

/-- A decoder is safe on every buffer just if no payload within the limit can end beyond the largest size. What it
does to a buffer on which it is not safe is to overflow, never to leave the buffer. -/
theorem decodeInPlace_safe_iff (limit : Nat) :
    ((∀ buffer, Safe limit buffer) ↔ limit + 14 < sizeLimit) ∧
      ∀ buffer, Safe limit buffer ∨ decodeInPlace limit buffer = .error .overflow := by
  constructor
  · constructor
    · intro hsafe
      by_contra hlimit
      -- The largest payload that the limit allows ends beyond the largest size.
      have hmax : maxSize + 1 = sizeLimit := rfl
      have hover : decodeInPlace limit (longHeader (min limit maxSize)) = .error .overflow := by
        apply decodeInPlace_longHeader (Nat.min_le_left _ _)
        · exact Nat.lt_of_le_of_lt (Nat.min_le_right _ _) (by decide)
        · omega
      obtain ⟨answer, after, h, -⟩ := hsafe (longHeader (min limit maxSize))
      rw [hover] at h
      cases h
    · intro hlimit buffer
      rcases safe_or_overflow limit buffer with hsafe | ⟨-, hle⟩
      · exact hsafe
      · omega
  · intro buffer
    exact (safe_or_overflow limit buffer).imp_right And.left

/-- The largest limit that may be configured is too large: the header of a masked frame is enough to overflow. -/
theorem decodeInPlace_of_unlimited_config :
    ({ maxRequestBytes := maxSize } : Config).problems = [] ∧
      decodeInPlace maxSize [0x81, 0xFF, 0xFF, 0xFF, 0xFF, 0xFF, 0xFF, 0xFF, 0xFF, 0xFF, 1, 2, 3, 4] =
        .error .overflow := by
  decide

end WebServer.WebSocket
