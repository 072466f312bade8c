import WebServer.Proofs.WebSocket.InPlace

/-! # Frames as they stand in a buffer

A reader tells exactly what stands in a buffer, whatever it holds: the header that it finds has the bytes of the buffer
as its layout, and it waits or refuses just where the length that the buffer announces makes it. -/

namespace WebServer.WebSocket

/-! ## What a buffer announces -/

namespace LengthForm

/-- The form that the second byte tells. -/
def ofCode (code : UInt8) : LengthForm :=
  if code = 126 then medium else if code = 127 then long else short

/-- The length that stands in the second byte or in the bytes behind it. -/
def read : LengthForm → UInt8 → Bytes → Nat
  | short, code, _ => code.toNat
  | medium, _, field => Bytes.toNat field
  | long, _, field => Bytes.toNat field

variable {code : UInt8} {field : Bytes}

theorem fits_read (hcode : code.toNat < 128) (hfield : field.length = (ofCode code).width) :
    (ofCode code).Fits ((ofCode code).read code field) := by
  have hvalue := Bytes.toNat_lt field
  rw [hfield] at hvalue
  rw [ofCode] at hvalue ⊢
  by_cases h126 : code = 126
  · rw [if_pos h126] at hvalue ⊢
    exact hvalue
  · by_cases h127 : code = 127
    · rw [if_neg h126, if_pos h127] at hvalue ⊢
      exact hvalue
    · rw [if_neg h126, if_neg h127]
      rw [← UInt8.toNat_inj] at h126 h127
      change code.toNat ≠ 126 at h126
      change code.toNat ≠ 127 at h127
      change code.toNat < 126
      omega

/-- The field is written back from the length. -/
theorem ofNat_read (hfield : field.length = (ofCode code).width) :
    Bytes.ofNat (ofCode code).width ((ofCode code).read code field) = field := by
  have hback := Bytes.ofNat_toNat field
  rw [hfield] at hback
  cases hform : ofCode code with
  | short =>
      rw [hform] at hfield
      rw [List.eq_nil_of_length_eq_zero hfield]
      rfl
  | medium =>
      rw [hform] at hback
      exact hback
  | long =>
      rw [hform] at hback
      exact hback

end LengthForm

theorem code_lt (b1 : UInt8) : (b1 &&& 0x7F).toNat < 128 := by
  rw [UInt8.toNat_and]
  exact Nat.lt_of_le_of_lt Nat.and_le_right (by decide)

/-- The bytes of the key that the second byte tells. -/
def keyWidth (b1 : UInt8) : Nat :=
  if b1 &&& 0x80 = 0 then 0 else 4

/-- The length field of a buffer is complete. It tells the length of a payload, and `front` bytes stand before that. -/
def Announces (buffer : Bytes) (length front : Nat) : Prop :=
  ∃ b0 b1 field rest, buffer = b0 :: b1 :: (field ++ rest) ∧
    field.length = (LengthForm.ofCode (b1 &&& 0x7F)).width ∧
    length = (LengthForm.ofCode (b1 &&& 0x7F)).read (b1 &&& 0x7F) field ∧ front = 2 + field.length + keyWidth b1

section Announced

variable {limit length front : Nat} {b0 b1 : UInt8} {field rest tail : Bytes}

theorem Announces.two_le {buffer : Bytes} (h : Announces buffer length front) : 2 ≤ buffer.length := by
  obtain ⟨b0, b1, field, rest, rfl, -⟩ := h
  exact Nat.le_add_left 2 _

/-- A buffer announces one length at most. -/
theorem announces_append_iff (hfield : field.length = (LengthForm.ofCode (b1 &&& 0x7F)).width) :
    Announces (b0 :: b1 :: (field ++ rest)) length front ↔
      length = (LengthForm.ofCode (b1 &&& 0x7F)).read (b1 &&& 0x7F) field ∧ front = 2 + field.length + keyWidth b1 := by
  constructor
  · rintro ⟨c0, c1, field', rest', hbuffer, hfield', hlength, hfront⟩
    simp only [List.cons.injEq] at hbuffer
    obtain ⟨rfl, rfl, hbuffer⟩ := hbuffer
    obtain ⟨rfl, -⟩ := List.append_inj hbuffer (hfield.trans hfield'.symm)
    exact ⟨hlength, hfront⟩
  · rintro ⟨hlength, hfront⟩
    exact ⟨b0, b1, field, rest, rfl, hfield, hlength, hfront⟩

/-- A buffer announces nothing while its length field is not complete. -/
theorem not_announces_of_lt (h : tail.length < (LengthForm.ofCode (b1 &&& 0x7F)).width) :
    ¬ Announces (b0 :: b1 :: tail) length front := by
  rintro ⟨c0, c1, field, rest, hbuffer, hfield, -, -⟩
  simp only [List.cons.injEq] at hbuffer
  obtain ⟨rfl, rfl, rfl⟩ := hbuffer
  rw [List.length_append] at h
  omega

theorem declaredLength?_of_lt (h : tail.length < (LengthForm.ofCode (b1 &&& 0x7F)).width) :
    declaredLength? (b1 &&& 0x7F) (b0 :: b1 :: tail) = none := by
  rw [LengthForm.ofCode] at h
  rw [declaredLength?]
  by_cases h126 : b1 &&& 0x7F = 126
  · rw [if_pos h126] at h
    rw [if_pos (beq_iff_eq.mpr h126)]
    exact if_pos (Nat.add_lt_add_right h 2)
  · by_cases h127 : b1 &&& 0x7F = 127
    · rw [if_neg h126, if_pos h127] at h
      rw [if_neg (by simpa using h126), if_pos (beq_iff_eq.mpr h127)]
      exact if_pos (Nat.add_lt_add_right h 2)
    · rw [if_neg h126, if_neg h127] at h
      exact absurd h (Nat.not_lt_zero _)

theorem declaredLength?_append_field (hfield : field.length = (LengthForm.ofCode (b1 &&& 0x7F)).width) :
    declaredLength? (b1 &&& 0x7F) (b0 :: b1 :: (field ++ rest)) =
      some ((LengthForm.ofCode (b1 &&& 0x7F)).read (b1 &&& 0x7F) field, 2 + field.length) := by
  have hfits := LengthForm.fits_read (code_lt b1) hfield
  have hdeclared := LengthForm.declaredLength?_eq hfits b0 b1 rest
  rw [LengthForm.ofNat_read hfield, ← hfield] at hdeclared
  rw [← hdeclared]
  congr 1
  -- The second byte is the code of the form.
  rw [LengthForm.ofCode]
  split
  · assumption
  · split
    · assumption
    · exact (UInt8.ofNat_toNat).symm

end Announced

/-! ## The layout of a header -/

/-- The first byte holds the last-frame bit, the reserved bits and the opcode, and nothing else. -/
theorem first_byte_eq (b0 : UInt8) :
    finBit (b0 &&& 0x80 != 0) ||| ((b0 >>> 4) &&& 0x07) <<< 4 ||| (Opcode.ofByte b0).toByte = b0 ∧
      Opcode.ofByte (Opcode.ofByte b0).toByte = Opcode.ofByte b0 := by
  have key : ∀ n < 256, finBit (UInt8.ofNat n &&& 0x80 != 0) ||| ((UInt8.ofNat n >>> 4) &&& 0x07) <<< 4 |||
      (Opcode.ofByte (UInt8.ofNat n)).toByte = UInt8.ofNat n ∧
        Opcode.ofByte (Opcode.ofByte (UInt8.ofNat n)).toByte = Opcode.ofByte (UInt8.ofNat n) := by
    decide +kernel
  have h := key b0.toNat b0.toNat_lt
  rwa [UInt8.ofNat_toNat] at h

/-- The second byte holds the mask bit and the code of the length, and nothing else. -/
theorem second_byte_eq (b1 : UInt8) : (if b1 &&& 0x80 != 0 then 0x80 else 0) ||| (b1 &&& 0x7F) = b1 := by
  have key : ∀ n < 256, (if UInt8.ofNat n &&& 0x80 != 0 then 0x80 else 0) ||| (UInt8.ofNat n &&& 0x7F) = UInt8.ofNat n := by
    decide +kernel
  have h := key b1.toNat b1.toNat_lt
  rwa [UInt8.ofNat_toNat] at h

namespace FrameHeader

/-- The form of the length field. -/
def form (h : FrameHeader) : LengthForm :=
  .ofCode h.lengthCode

/-- The bytes of a frame with this header: flags and opcode, mask bit and code of the length, the length if it has bytes
of its own, the key, and the payload under the key. -/
def layout (h : FrameHeader) (payload : Bytes) : Bytes :=
  (finBit h.fin ||| h.rsv <<< 4 ||| h.opcode.toByte) :: ((if h.masked then 0x80 else 0) ||| h.lengthCode) ::
    (Bytes.ofNat h.form.width h.payloadLength ++ (keyBytes h.maskKey ++ maskBy h.maskKey payload))

/-- The fields of the header fit together. -/
structure WellFormed (h : FrameHeader) : Prop where
  rsv : h.rsv < 8
  /-- The opcode is the one of its four bits. -/
  opcode : h.opcode = .ofByte h.opcode.toByte
  lengthCode : h.lengthCode < 128
  fits : h.form.Fits h.payloadLength
  /-- In the short form the code is the length. -/
  short : h.form = .short → h.payloadLength = h.lengthCode.toNat
  masked : h.masked = h.maskKey.isSome
  start : h.payloadStart = 2 + h.form.width + (keyBytes h.maskKey).length

/-- The header is what stands at the start of `buffer`, and `after` is that buffer with the payload unmasked. -/
structure StandsIn (h : FrameHeader) (buffer after : Bytes) : Prop where
  complete : h.frameLength ≤ buffer.length
  layout : buffer.take h.frameLength = h.layout (h.payload after)
  before : after.take h.payloadStart = buffer.take h.payloadStart
  behind : after.drop h.frameLength = buffer.drop h.frameLength
  length : after.length = buffer.length

theorem standsIn_of_layout {h : FrameHeader} {lead body : Bytes} (hlead : lead.length = h.payloadStart)
    (hbody : body.length = h.payloadLength) (hlayout : h.layout (maskBy h.maskKey body) = lead ++ body) (rest : Bytes) :
    h.StandsIn (lead ++ (body ++ rest)) (lead ++ (maskBy h.maskKey body ++ rest)) := by
  have hmasked : (maskBy h.maskKey body).length = h.payloadLength := (length_maskBy _ _).trans hbody
  have hend {payload : Bytes} (hpayload : payload.length = h.payloadLength) :
      (lead ++ payload).length = h.frameLength := by
    rw [List.length_append, hlead, hpayload]
    rfl
  have hpayload : h.payload (lead ++ (maskBy h.maskKey body ++ rest)) = maskBy h.maskKey body := by
    rw [payload, List.drop_left' hlead, List.take_left' hmasked]
  refine ⟨?_, ?_, ?_, ?_, ?_⟩
  · rw [← List.append_assoc, List.length_append, hend hbody]
    exact Nat.le_add_right _ _
  · rw [hpayload, hlayout, ← List.append_assoc, List.take_left' (hend hbody)]
  · rw [List.take_left' hlead, List.take_left' hlead]
  · rw [← List.append_assoc, ← List.append_assoc, List.drop_left' (hend hmasked), List.drop_left' (hend hbody)]
  · simp only [List.length_append, length_maskBy]

end FrameHeader

/-! ## What a reader answers -/

section Answers

variable {limit : Nat} {b0 b1 : UInt8} {field : Bytes}

/-- The key that the second byte tells, once it is complete. -/
def keyBehind? (b1 : UInt8) (buffer : Bytes) (position : Nat) : Option MaskKey :=
  if b1 &&& 0x80 = 0 then none else keyAt? buffer position

/-- The header behind which a payload starts. -/
def headerOf (b0 b1 : UInt8) (key : Option MaskKey) (length front : Nat) : FrameHeader where
  fin := b0 &&& 0x80 != 0
  rsv := (b0 >>> 4) &&& 0x07
  opcode := .ofByte b0
  masked := b1 &&& 0x80 != 0
  lengthCode := b1 &&& 0x7F
  maskKey := key
  payloadStart := front
  payloadLength := length

theorem decodePayload_of_lt {header : FrameHeader} (h : header.frameLength < sizeLimit) (buffer : Bytes) :
    decodePayload header buffer =
      if buffer.length < header.frameLength then .notYet
      else .ready (header, unmask header.maskKey header.payloadStart header.payloadLength buffer) :=
  if_neg (Nat.not_le.mpr h)

/-- The length that a buffer announces decides the answer, and after that the length of the buffer. -/
theorem decode_of_announces (hsize : limit < 2 ^ 63) (hfield : field.length = (LengthForm.ofCode (b1 &&& 0x7F)).width)
    (rest : Bytes) :
    let buffer := b0 :: b1 :: (field ++ rest)
    let length := (LengthForm.ofCode (b1 &&& 0x7F)).read (b1 &&& 0x7F) field
    let front := 2 + field.length + keyWidth b1
    let key := keyBehind? b1 buffer (2 + field.length)
    decode limit buffer =
      if limit < length then .failed (.tooLarge length limit)
      else if buffer.length < front + length then .notYet
      else .ready (headerOf b0 b1 key length front, unmask key front length buffer) := by
  intro buffer length front key
  have hdeclared : declaredLength? (b1 &&& 0x7F) buffer = some (length, 2 + field.length) :=
    declaredLength?_append_field hfield
  by_cases hlarge : limit < length
  · rw [if_pos hlarge, decode, hdeclared]
    exact if_pos hlarge
  rw [if_neg hlarge]
  rw [Nat.not_lt] at hlarge
  -- No frame within the limit ends beyond the largest size.
  have hwidth : field.length ≤ 8 := by
    rw [hfield]
    cases LengthForm.ofCode (b1 &&& 0x7F) <;> decide
  have hend : 2 + field.length + 4 + length < sizeLimit := by
    have hlimit : sizeLimit = 2 ^ 64 := rfl
    omega
  by_cases hmask : b1 &&& 0x80 = 0
  · have hkey : key = none := if_pos hmask
    have hfront : front = 2 + field.length := congrArg (2 + field.length + ·) (if_pos hmask)
    have hbit : (b1 &&& 0x80 != 0) = false := by rw [hmask]; rfl
    rw [decode_of_unmasked hmask hdeclared hlarge, decodePayload_of_lt, hkey, hfront, headerOf, hbit]
    · rfl
    · simp only [FrameHeader.frameLength]
      omega
  · have hkey : key = keyAt? buffer (2 + field.length) := if_neg hmask
    have hfront : front = 2 + field.length + 4 := congrArg (2 + field.length + ·) (if_neg hmask)
    have hbit : (b1 &&& 0x80 != 0) = true := bne_iff_ne.mpr hmask
    rw [hkey, hfront]
    cases hat : keyAt? buffer (2 + field.length) with
    | none =>
        have hshort := length_lt_of_keyAt? hat
        rw [if_pos (Nat.lt_add_right _ hshort), decode, hdeclared, hbit]
        dsimp only
        rw [if_neg (Nat.not_lt.mpr hlarge), if_pos rfl, hat]
    | some found =>
        rw [decode_of_masked hmask hdeclared hlarge hat, decodePayload_of_lt, headerOf, hbit]
        · rfl
        · simp only [FrameHeader.frameLength]
          omega

/-- Behind the length field stand the key and the payload, as soon as they are complete. -/
theorem exists_payload {length : Nat} {rest : Bytes}
    (h : keyWidth b1 + length ≤ rest.length) :
    ∃ body more, let key := keyBehind? b1 (b0 :: b1 :: (field ++ rest)) (2 + field.length)
      rest = keyBytes key ++ (body ++ more) ∧ body.length = length ∧ (keyBytes key).length = keyWidth b1 ∧
        key.isSome = (b1 &&& 0x80 != 0) := by
  by_cases hmask : b1 &&& 0x80 = 0
  · rw [keyWidth, if_pos hmask] at h
    refine ⟨rest.take length, rest.drop length, ?_⟩
    rw [keyBehind?, if_pos hmask, keyWidth, if_pos hmask, hmask]
    exact ⟨(List.take_append_drop length rest).symm, by rw [List.length_take]; omega, rfl, rfl⟩
  · have hdrop : (b0 :: b1 :: (field ++ rest)).drop (2 + field.length) = rest := by
      rw [Nat.add_comm]
      exact List.drop_left' rfl
    rw [keyWidth, if_neg hmask] at h
    cases hat : keyAt? (b0 :: b1 :: (field ++ rest)) (2 + field.length) with
    | none =>
        have hshort := length_lt_of_keyAt? hat
        rw [List.length_cons, List.length_cons, List.length_append] at hshort
        omega
    | some key =>
        have hkey := drop_of_keyAt? hat
        rw [hdrop, ← List.drop_drop, hdrop] at hkey
        refine ⟨(rest.drop 4).take length, (rest.drop 4).drop length, ?_⟩
        rw [keyBehind?, if_neg hmask, hat, keyWidth, if_neg hmask, List.take_append_drop]
        refine ⟨hkey, ?_, rfl, (bne_iff_ne.mpr hmask).symm⟩
        rw [List.length_take, List.length_drop]
        omega

theorem wellFormed_headerOf (hfield : field.length = (LengthForm.ofCode (b1 &&& 0x7F)).width) (b0 : UInt8)
    {key : Option MaskKey} (hkey : (keyBytes key).length = keyWidth b1) (hsome : key.isSome = (b1 &&& 0x80 != 0)) :
    (headerOf b0 b1 key ((LengthForm.ofCode (b1 &&& 0x7F)).read (b1 &&& 0x7F) field)
      (2 + field.length + keyWidth b1)).WellFormed where
  rsv := by
    rw [UInt8.lt_iff_toNat_lt]
    change ((b0 >>> 4) &&& 0x07).toNat < 8
    rw [UInt8.toNat_and]
    exact Nat.lt_of_le_of_lt Nat.and_le_right (by decide)
  opcode := (first_byte_eq b0).2.symm
  lengthCode := UInt8.lt_iff_toNat_lt.mpr (code_lt b1)
  fits := LengthForm.fits_read (code_lt b1) hfield
  short hshort := by
    change (LengthForm.ofCode (b1 &&& 0x7F)).read (b1 &&& 0x7F) field = (b1 &&& 0x7F).toNat
    rw [show LengthForm.ofCode (b1 &&& 0x7F) = .short from hshort]
    rfl
  masked := hsome.symm
  start := by
    change 2 + field.length + keyWidth b1 = 2 + (LengthForm.ofCode (b1 &&& 0x7F)).width + (keyBytes key).length
    rw [hfield, hkey]

theorem layout_headerOf (hfield : field.length = (LengthForm.ofCode (b1 &&& 0x7F)).width) (b0 : UInt8)
    (key : Option MaskKey) (front : Nat) (payload : Bytes) :
    (headerOf b0 b1 key ((LengthForm.ofCode (b1 &&& 0x7F)).read (b1 &&& 0x7F) field) front).layout payload =
      b0 :: b1 :: (field ++ (keyBytes key ++ maskBy key payload)) := by
  have hfirst := (first_byte_eq b0).1
  have hsecond := second_byte_eq b1
  have hback := LengthForm.ofNat_read hfield
  rw [FrameHeader.layout, FrameHeader.form, headerOf]
  dsimp only
  rw [hfirst, hsecond, hback]

/-- The header that is found is the layout of the bytes that it was found in. -/
theorem standsIn_headerOf (hfield : field.length = (LengthForm.ofCode (b1 &&& 0x7F)).width) {rest : Bytes} :
    let buffer := b0 :: b1 :: (field ++ rest)
    let length := (LengthForm.ofCode (b1 &&& 0x7F)).read (b1 &&& 0x7F) field
    let front := 2 + field.length + keyWidth b1
    let key := keyBehind? b1 buffer (2 + field.length)
    front + length ≤ buffer.length →
      (headerOf b0 b1 key length front).WellFormed ∧
        (headerOf b0 b1 key length front).StandsIn buffer (unmask key front length buffer) := by
  intro buffer length front key hle
  have hroom : keyWidth b1 + length ≤ rest.length := by
    change 2 + field.length + keyWidth b1 + length ≤ (field ++ rest).length + 2 at hle
    rw [List.length_append] at hle
    omega
  obtain ⟨body, more, hrest, hbody, hkey, hsome⟩ := @exists_payload b0 b1 field length rest hroom
  change rest = keyBytes key ++ (body ++ more) at hrest
  refine ⟨wellFormed_headerOf hfield b0 hkey hsome, ?_⟩
  -- The bytes in front of the payload.
  obtain ⟨lead, hlead⟩ : ∃ lead, lead = b0 :: b1 :: (field ++ keyBytes key) := ⟨_, rfl⟩
  have hlength : lead.length = front := by
    rw [hlead, List.length_cons, List.length_cons, List.length_append, hkey]
    omega
  have hbuffer : buffer = lead ++ (body ++ more) := by
    change b0 :: b1 :: (field ++ rest) = _
    rw [hlead, hrest, List.cons_append, List.cons_append, List.append_assoc]
  rw [hbuffer, unmask_append hlength hbody]
  refine FrameHeader.standsIn_of_layout hlength hbody ?_ more
  change (headerOf b0 b1 key length front).layout (maskBy key body) = lead ++ body
  rw [layout_headerOf hfield, maskBy_maskBy, hlead, List.cons_append, List.cons_append, List.append_assoc]

end Answers

/-- What a reader answers to a buffer, and what it leaves of it. -/
structure Faithful (limit : Nat) (buffer : Bytes) : Prop where
  /-- The header that is found stands in the buffer. -/
  ready : ∀ header after, decode limit buffer = .ready (header, after) →
    header.payloadLength ≤ limit ∧ header.WellFormed ∧ header.StandsIn buffer after
  ready_iff : (∃ found, decode limit buffer = .ready found) ↔
    ∃ length front, Announces buffer length front ∧ length ≤ limit ∧ front + length ≤ buffer.length
  /-- A buffer is refused just if it announces more than the limit. -/
  failed_iff : ∀ error, decode limit buffer = .failed error ↔
    ∃ length front, Announces buffer length front ∧ limit < length ∧ error = .tooLarge length limit
  /-- A buffer has to wait just if it announces nothing yet, or more than it holds. -/
  notYet_iff : decode limit buffer = .notYet ↔
    (∀ length front, ¬ Announces buffer length front) ∨
      ∃ length front, Announces buffer length front ∧ length ≤ limit ∧ buffer.length < front + length
  /-- In memory the answer is the same, and only a complete frame changes the buffer. -/
  inPlace : decodeInPlace limit buffer = .ok (match decode limit buffer with
    | .notYet => (.notYet, buffer)
    | .ready (header, after) => (.ready header, after)
    | .failed error => (.failed error, buffer))

theorem faithful_of_silent {limit : Nat} {buffer : Bytes} (h : ∀ length front, ¬ Announces buffer length front)
    (hdecode : decode limit buffer = .notYet) : Faithful limit buffer := by
  have hplace := decodeInPlace_eq limit buffer
  rw [hdecode] at hplace
  constructor
  case inPlace => rw [hplace, hdecode]; rfl
  all_goals simp [hdecode, h]

theorem faithful_of_announced {limit length front : Nat} {buffer after : Bytes} {header : FrameHeader}
    (h : ∀ l f, Announces buffer l f ↔ l = length ∧ f = front)
    (hdecode : decode limit buffer =
      if limit < length then .failed (.tooLarge length limit)
      else if buffer.length < front + length then .notYet
      else .ready (header, after))
    (hlength : header.payloadLength = length)
    (hstands : front + length ≤ buffer.length → header.WellFormed ∧ header.StandsIn buffer after) :
    Faithful limit buffer := by
  have hplace := decodeInPlace_eq limit buffer
  by_cases hlarge : limit < length
  · rw [if_pos hlarge] at hdecode
    rw [hdecode] at hplace
    constructor
    case inPlace => rw [hplace, hdecode]; rfl
    case failed_iff => simp [hdecode, h, hlarge, eq_comm]
    all_goals simp [hdecode, h, Nat.not_le.mpr hlarge]
  rw [if_neg hlarge] at hdecode
  by_cases hshort : buffer.length < front + length
  · rw [if_pos hshort] at hdecode
    rw [hdecode] at hplace
    constructor
    case inPlace => rw [hplace, hdecode]; rfl
    case notYet_iff => simp [hdecode, h, hshort, Nat.le_of_not_lt hlarge]
    all_goals simp [hdecode, h, hlarge, hshort]
  · rw [if_neg hshort] at hdecode
    rw [hdecode] at hplace
    rw [Nat.not_lt] at hlarge hshort
    constructor
    case inPlace => rw [hplace, hdecode]; rfl
    case ready =>
      intro found after' hfound
      rw [hdecode] at hfound
      obtain ⟨rfl, rfl⟩ := Prod.mk.inj (Reading.ready.inj hfound)
      exact ⟨hlength ▸ hlarge, hstands hshort⟩
    all_goals simp [hdecode, h, hlarge, hshort]

/-- Whatever a buffer holds, a reader tells what stands in it. -/
theorem decode_faithful {limit : Nat} (hsize : limit < 2 ^ 63) (buffer : Bytes) : Faithful limit buffer := by
  match buffer with
  | [] => exact faithful_of_silent (fun _ _ h => absurd h.two_le (by simp)) rfl
  | [_] => exact faithful_of_silent (fun _ _ h => absurd h.two_le (by simp)) rfl
  | b0 :: b1 :: tail =>
      by_cases hshort : tail.length < (LengthForm.ofCode (b1 &&& 0x7F)).width
      · refine faithful_of_silent (fun _ _ => not_announces_of_lt hshort) ?_
        rw [decode, declaredLength?_of_lt hshort]
      · have hfield : (tail.take (LengthForm.ofCode (b1 &&& 0x7F)).width).length =
            (LengthForm.ofCode (b1 &&& 0x7F)).width := by
          rw [List.length_take]
          omega
        rw [← List.take_append_drop (LengthForm.ofCode (b1 &&& 0x7F)).width tail]
        exact faithful_of_announced (fun _ _ => announces_append_iff hfield) (decode_of_announces hsize hfield _) rfl
          (standsIn_headerOf hfield)

/-- A masked frame whose length of one byte is sent in the long form, with reserved bits and a byte behind it. -/
theorem decode_faithful_of_long_form :
    let buffer : Bytes := [0xF3, 0xFF, 0, 0, 0, 0, 0, 0, 0, 1, 1, 2, 3, 4, 73, 7]
    let header : FrameHeader := {
      fin := true, rsv := 7, opcode := .reserved 3, masked := true, lengthCode := 127, maskKey := some ⟨1, 2, 3, 4⟩,
      payloadStart := 14, payloadLength := 1 }
    let after : Bytes := [0xF3, 0xFF, 0, 0, 0, 0, 0, 0, 0, 1, 1, 2, 3, 4, 72, 7]
    1 < 2 ^ 63 ∧ decode 1 buffer = .ready (header, after) ∧ Faithful 1 buffer ∧ header.StandsIn buffer after := by
  intro buffer header after
  have hsize : 1 < 2 ^ 63 := by decide
  have hdecode : decode 1 buffer = .ready (header, after) := by decide
  have hfaithful := decode_faithful hsize buffer
  exact ⟨hsize, hdecode, hfaithful, (hfaithful.ready header after hdecode).2.2⟩

end WebServer.WebSocket
