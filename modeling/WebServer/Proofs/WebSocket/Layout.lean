import Mathlib.Algebra.Group.Nat.Defs
import Mathlib.Data.List.Basic
import WebServer.WebSocket.Frame

/-! # The layout of a frame

A frame is a byte of flags and opcode, a length field in one of three forms, the key if there is one, and the
payload, which the key masks. -/

namespace WebServer

/-! ## Numbers in bytes -/

namespace Bytes

theorem ofNat_succ (width n : Nat) :
    ofNat (width + 1) n = UInt8.ofNat (n / 256 ^ width) :: ofNat width n := rfl

@[simp]
theorem length_ofNat (width n : Nat) : (ofNat width n).length = width := by
  induction width with
  | zero => rfl
  | succ width ih => rw [ofNat_succ, List.length_cons, ih]

theorem toNat_cons (b : UInt8) (bs : Bytes) : toNat (b :: bs) = b.toNat * 256 ^ bs.length + toNat bs := by
  -- A number in front of the bytes is worth `256 ^ bs.length` times as much.
  have key (acc : Nat) : bs.foldl (fun n b => n * 256 + b.toNat) acc = acc * 256 ^ bs.length + toNat bs := by
    rw [toNat]
    induction bs generalizing acc with
    | nil => rw [List.foldl_nil, List.foldl_nil, List.length_nil, Nat.pow_zero, Nat.mul_one, Nat.add_zero]
    | cons b bs ih =>
        rw [List.foldl_cons, List.foldl_cons, ih, ih (0 * 256 + b.toNat), List.length_cons, Nat.pow_succ']
        simp only [Nat.zero_mul, Nat.zero_add, Nat.add_mul, Nat.mul_assoc, Nat.add_assoc]
  rw [toNat, List.foldl_cons, key, Nat.zero_mul, Nat.zero_add]

theorem toNat_lt (bs : Bytes) : toNat bs < 256 ^ bs.length := by
  induction bs with
  | nil => exact Nat.one_pos
  | cons b bs ih =>
      have hb : b.toNat + 1 ≤ 256 := b.toNat_lt
      calc toNat (b :: bs) = b.toNat * 256 ^ bs.length + toNat bs := toNat_cons b bs
        _ < (b.toNat + 1) * 256 ^ bs.length := by rw [Nat.succ_mul]; exact Nat.add_lt_add_left ih _
        _ ≤ 256 * 256 ^ bs.length := Nat.mul_le_mul_right _ hb
        _ = 256 ^ (b :: bs).length := Nat.pow_succ'.symm

/-- A number that fits is read back from its bytes. -/
theorem toNat_ofNat {width n : Nat} (h : n < 256 ^ width) : toNat (ofNat width n) = n := by
  have key : toNat (ofNat width n) = n % 256 ^ width := by
    clear h
    induction width with
    | zero => rw [Nat.pow_zero, Nat.mod_one]; rfl
    | succ width ih =>
        have hbyte : (UInt8.ofNat (n / 256 ^ width)).toNat = n / 256 ^ width % 256 := UInt8.toNat_ofNat'
        rw [ofNat_succ, toNat_cons, ih, hbyte, length_ofNat, Nat.mod_pow_succ, Nat.mul_comm, Nat.add_comm]
  rw [key, Nat.mod_eq_of_lt h]

/-- Bytes are written back from their number. -/
theorem ofNat_toNat (bs : Bytes) : ofNat bs.length (toNat bs) = bs := by
  -- Only the lowest bytes of a number are written.
  have hlow (width m n : Nat) : ofNat width (m * 256 ^ width + n) = ofNat width n := by
    induction width generalizing m with
    | zero => rfl
    | succ width ih =>
        have hm : m * 256 ^ (width + 1) = m * 256 * 256 ^ width := by rw [Nat.pow_succ', Nat.mul_assoc]
        have hbyte : UInt8.ofNat ((m * 256 * 256 ^ width + n) / 256 ^ width) = UInt8.ofNat (n / 256 ^ width) := by
          rw [Nat.add_comm, Nat.add_mul_div_right _ _ (Nat.pow_pos (by decide)), ← UInt8.toNat_inj, UInt8.toNat_ofNat',
            UInt8.toNat_ofNat', Nat.add_mul_mod_self_right]
        rw [ofNat_succ, ofNat_succ, hm, hbyte, ih]
  induction bs with
  | nil => rfl
  | cons b bs ih =>
      have hfirst : (b.toNat * 256 ^ bs.length + toNat bs) / 256 ^ bs.length = b.toNat := by
        rw [Nat.add_comm, Nat.add_mul_div_right _ _ (Nat.pow_pos (by decide)), Nat.div_eq_of_lt (toNat_lt bs),
          Nat.zero_add]
      rw [List.length_cons, ofNat_succ, toNat_cons, hfirst, hlow, ih, UInt8.ofNat_toNat]

end Bytes

namespace WebSocket

/-! ## Flags and opcode -/

theorem Opcode.toByte_lt (o : Opcode) : o.toByte.toNat < 16 := by
  cases o with
  | reserved v =>
      rw [toByte, UInt8.toNat_and]
      exact Nat.lt_of_le_of_lt Nat.and_le_right (by decide)
  | _ => decide

/-- The bit that marks the last frame of a message. -/
def finBit (fin : Bool) : UInt8 :=
  if fin then 0x80 else 0

/-- The first byte of a frame tells whether it is the last one of its message, and its opcode. No reserved bit is set. -/
theorem first_byte (fin : Bool) (o : Opcode) :
    ((finBit fin ||| o.toByte) &&& 0x80 != 0) = fin ∧ ((finBit fin ||| o.toByte) >>> 4) &&& 0x07 = 0 ∧
      Opcode.ofByte (finBit fin ||| o.toByte) = Opcode.ofByte o.toByte := by
  have key : ∀ n < 16, ((finBit fin ||| UInt8.ofNat n) &&& 0x80 != 0) = fin ∧
      ((finBit fin ||| UInt8.ofNat n) >>> 4) &&& 0x07 = 0 ∧
        Opcode.ofByte (finBit fin ||| UInt8.ofNat n) = Opcode.ofByte (UInt8.ofNat n) := by
    cases fin <;> decide
  have h := key o.toByte.toNat o.toByte_lt
  rwa [UInt8.ofNat_toNat] at h

/-! ## Length fields -/

/-- The forms of a length field. -/
inductive LengthForm where
  /-- The length stands in the second byte. -/
  | short
  /-- The length stands in two bytes of its own. -/
  | medium
  /-- The length stands in eight bytes of its own. -/
  | long
deriving DecidableEq, Repr

namespace LengthForm

/-- The bytes that the length has of its own. -/
def width : LengthForm → Nat
  | short => 0
  | medium => 2
  | long => 8

/-- What stands in the second byte. -/
def code : LengthForm → Nat → UInt8
  | short, length => UInt8.ofNat length
  | medium, _ => 126
  | long, _ => 127

/-- Whether a length fits. -/
def Fits : LengthForm → Nat → Prop
  | short, length => length < 126
  | medium, length => length < 0x10000
  | long, length => length < sizeLimit

instance (form : LengthForm) (length : Nat) : Decidable (form.Fits length) :=
  match form with
  | short => inferInstanceAs (Decidable (length < 126))
  | medium => inferInstanceAs (Decidable (length < 0x10000))
  | long => inferInstanceAs (Decidable (length < sizeLimit))

/-- The first form that a length fits. -/
def shortest (length : Nat) : LengthForm :=
  if length < 126 then short else if length < 0x10000 then medium else long

theorem fits_shortest {length : Nat} (h : length < sizeLimit) : (shortest length).Fits length := by
  rw [shortest]
  split
  · exact ‹_›
  · split
    · exact ‹_›
    · exact h

theorem width_shortest_le {form : LengthForm} {length : Nat} (h : form.Fits length) :
    (shortest length).width ≤ form.width := by
  cases form with
  | short => exact Nat.le_of_eq (congrArg width (if_pos (show length < 126 from h)))
  | medium =>
      rw [shortest]
      split
      · exact Nat.zero_le _
      · exact Nat.le_of_eq (congrArg width (if_pos (show length < 0x10000 from h)))
  | long =>
      rw [shortest]
      split
      · exact Nat.zero_le _
      · split <;> decide

/-- The second byte tells the form of the length field and whether there is a key. -/
theorem second_byte {form : LengthForm} {length : Nat} (h : form.Fits length) :
    (∀ bit : UInt8, bit = 0 ∨ bit = 0x80 → (bit ||| form.code length) &&& 0x7F = form.code length) ∧
      (0 ||| form.code length) &&& 0x80 = 0 ∧ (0x80 ||| form.code length) &&& 0x80 ≠ 0 := by
  have key : ∀ n < 128, (∀ bit ∈ [(0 : UInt8), 0x80], (bit ||| UInt8.ofNat n) &&& 0x7F = UInt8.ofNat n) ∧
      (0 ||| UInt8.ofNat n) &&& 0x80 = 0 ∧ (0x80 ||| UInt8.ofNat n) &&& 0x80 ≠ 0 := by
    decide +kernel
  have hcode : ∃ n < 128, form.code length = UInt8.ofNat n := by
    cases form with
    | short => exact ⟨length, Nat.lt_trans h (by decide), rfl⟩
    | medium => exact ⟨126, by decide, rfl⟩
    | long => exact ⟨127, by decide, rfl⟩
  obtain ⟨n, hn, hcode⟩ := hcode
  rw [hcode]
  obtain ⟨hlow, hhigh⟩ := key n hn
  exact ⟨fun bit hbit => hlow bit (by simpa using hbit), hhigh⟩

theorem lengthField_eq (bit : UInt8) (length : Nat) :
    lengthField bit length =
      (bit ||| (shortest length).code length) :: Bytes.ofNat (shortest length).width length := by
  rw [lengthField, shortest]
  split
  · rfl
  · split <;> rfl

/-- A length is read back from its field, whatever follows. -/
theorem declaredLength?_eq {form : LengthForm} {length : Nat} (h : form.Fits length) (b0 b1 : UInt8) (rest : Bytes) :
    declaredLength? (form.code length) (b0 :: b1 :: (Bytes.ofNat form.width length ++ rest)) =
      some (length, 2 + form.width) := by
  have hfield (width : Nat) : ((b0 :: b1 :: (Bytes.ofNat width length ++ rest)).drop 2).take width =
      Bytes.ofNat width length := List.take_left' (Bytes.length_ofNat width length)
  have hlength (width : Nat) : (b0 :: b1 :: (Bytes.ofNat width length ++ rest)).length = width + rest.length + 2 := by
    rw [List.length_cons, List.length_cons, List.length_append, Bytes.length_ofNat]
  rw [declaredLength?]
  cases form with
  | short =>
      have hne : ∀ n < 126, (UInt8.ofNat n == 126) = false ∧ (UInt8.ofNat n == 127) = false ∧ (UInt8.ofNat n).toNat = n := by
        decide
      obtain ⟨h126, h127, hcode⟩ := hne length h
      rw [code, h126, h127, hcode]
      rfl
  | medium =>
      rw [code, if_pos (by decide), hlength, if_neg (by simp only [width]; omega), width, hfield, Bytes.toNat_ofNat h]
  | long =>
      rw [code, if_neg (by decide), if_pos (by decide), hlength, if_neg (by simp only [width]; omega), width, hfield,
        Bytes.toNat_ofNat h]

end LengthForm

/-! ## Masks -/

namespace MaskKey

@[simp] theorem length_apply (key : MaskKey) (payload : Bytes) : (key.apply payload).length = payload.length := by
  rw [apply, List.length_mapIdx]

/-- A mask is taken off by putting it on again. -/
theorem apply_apply (key : MaskKey) (payload : Bytes) : key.apply (key.apply payload) = payload := by
  refine List.ext_getElem (by simp) fun i _ _ => ?_
  simp only [apply, List.getElem_mapIdx, UInt8.xor_assoc, UInt8.xor_self, UInt8.xor_zero]

theorem keyAt?_eq (key : MaskKey) {front : Bytes} {position : Nat} (h : front.length = position) (rest : Bytes) :
    keyAt? (front ++ (key.bytes ++ rest)) position = some key := by
  rw [keyAt?, List.drop_left' h]
  rfl

end MaskKey

theorem length_lt_of_keyAt? {buffer : Bytes} {position : Nat} (h : keyAt? buffer position = none) : buffer.length < position + 4 := by
  have hlength : (buffer.drop position).length = buffer.length - position := List.length_drop
  rw [keyAt?] at h
  split at h
  · cases h
  · rename_i hshort
    rcases hd : buffer.drop position with _ | ⟨a, _ | ⟨b, _ | ⟨c, _ | ⟨d, rest⟩⟩⟩⟩
    case cons.cons.cons.cons => exact absurd hd (hshort a b c d rest)
    all_goals
      rw [hd] at hlength
      simp only [List.length_cons, List.length_nil] at hlength
      omega

theorem drop_of_keyAt? {buffer : Bytes} {position : Nat} {key : MaskKey} (h : keyAt? buffer position = some key) :
    buffer.drop position = key.bytes ++ buffer.drop (position + 4) := by
  rw [keyAt?] at h
  split at h
  · rename_i hdrop
    obtain rfl := Option.some.inj h
    rw [← List.drop_drop, hdrop]
    rfl
  · cases h

/-- The key in front of a payload, if there is one. -/
def keyBytes : Option MaskKey → Bytes
  | none => []
  | some key => key.bytes

/-- A payload behind a key, if there is one. -/
def maskBy : Option MaskKey → Bytes → Bytes
  | none, payload => payload
  | some key, payload => key.apply payload

@[simp] theorem length_maskBy (key : Option MaskKey) (payload : Bytes) : (maskBy key payload).length = payload.length := by
  cases key with
  | none => rfl
  | some key => exact key.length_apply payload

theorem maskBy_maskBy (key : Option MaskKey) (payload : Bytes) : maskBy key (maskBy key payload) = payload := by
  cases key with
  | none => rfl
  | some key => exact key.apply_apply payload

theorem unmask_append {front payload : Bytes} {start length : Nat} (hfront : front.length = start)
    (hpayload : payload.length = length) (key : Option MaskKey) (rest : Bytes) :
    unmask key start length (front ++ (payload ++ rest)) = front ++ (maskBy key payload ++ rest) := by
  cases key with
  | none => rfl
  | some key =>
      rw [unmask, List.drop_left' hfront, List.take_left' hfront, List.take_left' hpayload, List.drop_left' hpayload,
        List.append_assoc]
      rfl

/-! ## Headers -/

section Headers

variable {limit length position : Nat} {b0 b1 : UInt8} {rest : Bytes}

theorem decode_of_unmasked (hmask : b1 &&& 0x80 = 0)
    (hlength : declaredLength? (b1 &&& 0x7F) (b0 :: b1 :: rest) = some (length, position)) (hlimit : length ≤ limit) :
    decode limit (b0 :: b1 :: rest) =
      decodePayload { fin := b0 &&& 0x80 != 0, rsv := (b0 >>> 4) &&& 0x07, opcode := .ofByte b0, masked := false,
                      lengthCode := b1 &&& 0x7F, maskKey := none, payloadStart := position,
                      payloadLength := length } (b0 :: b1 :: rest) := by
  have hbit : (b1 &&& 0x80 != 0) = false := by rw [hmask]; rfl
  rw [decode, hlength, hbit]
  exact if_neg (Nat.not_lt.mpr hlimit)

theorem decode_of_masked {key : MaskKey} (hmask : b1 &&& 0x80 ≠ 0)
    (hlength : declaredLength? (b1 &&& 0x7F) (b0 :: b1 :: rest) = some (length, position)) (hlimit : length ≤ limit)
    (hkey : keyAt? (b0 :: b1 :: rest) position = some key) :
    decode limit (b0 :: b1 :: rest) =
      decodePayload { fin := b0 &&& 0x80 != 0, rsv := (b0 >>> 4) &&& 0x07, opcode := .ofByte b0, masked := true,
                      lengthCode := b1 &&& 0x7F, maskKey := some key, payloadStart := position + 4,
                      payloadLength := length } (b0 :: b1 :: rest) := by
  have hbit : (b1 &&& 0x80 != 0) = true := bne_iff_ne.mpr hmask
  rw [decode, hlength, hbit]
  dsimp only
  rw [if_neg (Nat.not_lt.mpr hlimit), hkey]
  rfl

end Headers

end WebSocket

end WebServer
