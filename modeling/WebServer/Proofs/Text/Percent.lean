import WebServer.Proofs.Text.Utf8
import WebServer.Text.Percent

/-! # Bytes written in a form

A form lets every byte be written as an escape, a space as a plus sign, and a byte that is not reserved as itself. All
these ways of writing are read back as the same bytes. -/

namespace WebServer.Text

/-! ## Ways of writing -/

/-- The hexadecimal digit of a number below sixteen, in either case. -/
def hexDigit (upper : Bool) (n : Nat) : UInt8 :=
  .ofNat (if n < 10 then 48 + n else if upper then 55 + n else 87 + n)

/-- The ways to write a byte where the reserved ones do not stand for themselves. -/
inductive WritesByte (reserved : Bytes) : UInt8 → Bytes → Prop
  | itself {b : UInt8} (h : b ∉ reserved) : WritesByte reserved b [b]
  | plus : WritesByte reserved 32 [43]
  | escape (b : UInt8) (high low : Bool) :
      WritesByte reserved b [37, hexDigit high (b.toNat / 16), hexDigit low (b.toNat % 16)]

/-- The ways to write bytes, each of them on its own. -/
inductive Writes (reserved : Bytes) : Bytes → Bytes → Prop
  | nil : Writes reserved [] []
  | cons {b : UInt8} {bs form text : Bytes} (hb : WritesByte reserved b form) (h : Writes reserved bs text) :
      Writes reserved (b :: bs) (form ++ text)

/-! ## Digits -/

theorem hexValue?_hexDigit (upper : Bool) {n : Nat} (h : n < 16) : hexValue? (hexDigit upper n) = some (.ofNat n) := by
  have key : ∀ upper, ∀ n < 16, hexValue? (hexDigit upper n) = some (.ofNat n) := by decide
  exact key upper n h

theorem escapeValue?_hexDigit (b : UInt8) (high low : Bool) (rest : Bytes) :
    escapeValue? (hexDigit high (b.toNat / 16) :: hexDigit low (b.toNat % 16) :: rest) = some b := by
  have hb := b.toNat_lt
  rw [escapeValue?, hexValue?_hexDigit high (by omega), hexValue?_hexDigit low (by omega)]
  refine congrArg some (UInt8.toNat_inj.mp ?_)
  simp only [UInt8.toNat_add, UInt8.toNat_mul, UInt8.toNat_ofNat', UInt8.reduceToNat]
  omega

/-! ## Reading escapes -/

theorem percentLoop_found (bs : Bytes) (skip : Nat) (found : Bytes) :
    percentLoop bs skip found = found.reverse ++ percentDecode (bs.drop skip) := by
  -- The bytes found so far only stand in front of the others.
  induction bs generalizing skip found with
  | nil => simp [percentDecode, percentLoop]
  | cons b bs ih =>
      cases skip with
      | zero =>
          rw [List.drop_zero, percentDecode, percentLoop, percentLoop]
          split <;> simp [ih]
      | succ skip => exact ih skip found

/-- A byte that begins no escape stands for itself. -/
theorem percentDecode_cons {b : UInt8} (h : b ≠ 37) (rest : Bytes) :
    percentDecode (b :: rest) = b :: percentDecode rest := by
  rw [percentDecode, percentLoop, if_neg (by simpa using h)]
  exact percentLoop_found rest 0 [b]

/-- An escape stands for its byte. -/
theorem percentDecode_escape (b : UInt8) (high low : Bool) (rest : Bytes) :
    percentDecode (37 :: hexDigit high (b.toNat / 16) :: hexDigit low (b.toNat % 16) :: rest) = b :: percentDecode rest := by
  rw [percentDecode, percentLoop, if_pos (by decide), escapeValue?_hexDigit]
  exact percentLoop_found _ 2 [b]

/-! ## Reading what was written -/

section

variable {reserved : Bytes} {b c : UInt8} {bs form text : Bytes}

/-- No digit is a plus sign, so that an escape is the same once plus signs are spaces. -/
theorem hexDigit_ne_plus (upper : Bool) {n : Nat} (h : n < 16) : hexDigit upper n ≠ 43 := by
  intro hplus
  have hvalue := hexValue?_hexDigit upper h
  rw [hplus] at hvalue
  cases hvalue

theorem decodeComponent_append (hpercent : 37 ∈ reserved) (hplus : 43 ∈ reserved) (h : WritesByte reserved b form)
    (rest : Bytes) : decodeComponent (form ++ rest) = b :: decodeComponent rest := by
  cases h with
  | itself hb =>
      have hne : b ≠ 43 := fun he => hb (he ▸ hplus)
      have hne' : b ≠ 37 := fun he => hb (he ▸ hpercent)
      rw [decodeComponent, List.singleton_append, List.map_cons, if_neg (by simpa using hne), percentDecode_cons hne']
      rfl
  | plus => exact percentDecode_cons (by decide) _
  | escape _ high low =>
      have hb := b.toNat_lt
      have hhigh : hexDigit high (b.toNat / 16) ≠ 43 := hexDigit_ne_plus high (by omega)
      have hlow : hexDigit low (b.toNat % 16) ≠ 43 := hexDigit_ne_plus low (by omega)
      simp only [decodeComponent, List.cons_append, List.nil_append, List.map_cons, beq_iff_eq, hhigh, hlow, if_false]
      exact percentDecode_escape b high low _

/-- However bytes were written, they are read back. -/
theorem decodeComponent_of_writes (hpercent : 37 ∈ reserved) (hplus : 43 ∈ reserved) (h : Writes reserved bs text) :
    decodeComponent text = bs := by
  induction h with
  | nil => rfl
  | cons hb _ ih => rw [decodeComponent_append hpercent hplus hb, ih]

theorem WritesByte.eq_of_mem (h : WritesByte reserved b form) (hc : c ∈ form) (hdigit : hexValue? c = none)
    (hreserved : c ∈ reserved) : c = 37 ∨ c = 43 := by
  cases h with
  | itself hb => exact absurd (List.mem_singleton.mp hc ▸ hreserved) hb
  | plus => exact .inr (List.mem_singleton.mp hc)
  | escape _ high low =>
      have hb := b.toNat_lt
      simp only [List.mem_cons, List.not_mem_nil, or_false] at hc
      rcases hc with rfl | rfl | rfl
      · exact .inl rfl
      · rw [hexValue?_hexDigit high (by omega)] at hdigit
        cases hdigit
      · rw [hexValue?_hexDigit low (by omega)] at hdigit
        cases hdigit

/-- A reserved byte that is no part of an escape is not written. -/
theorem Writes.not_mem (h : Writes reserved bs text) (hc : c ∈ reserved ∧ hexValue? c = none ∧ c ≠ 37 ∧ c ≠ 43) :
    c ∉ text := by
  obtain ⟨hreserved, hdigit, hpercent, hplus⟩ := hc
  induction h with
  | nil => exact List.not_mem_nil
  | cons hb _ ih =>
      rw [List.mem_append, not_or]
      exact ⟨fun hc => (hb.eq_of_mem hc hdigit hreserved).elim hpercent hplus, ih⟩

end

/-! ## Text in a form -/

/-- Text that was written in a form is read back from its bytes. -/
theorem decodeLossy_component {reserved text : Bytes} (hpercent : 37 ∈ reserved) (hplus : 43 ∈ reserved) {s : String}
    (h : Writes reserved (utf8 s) text) : String.ofList (decodeLossy (decodeComponent text)) = s := by
  rw [decodeComponent_of_writes hpercent hplus h, utf8, decodeLossy_encode, String.ofList_toList]

end WebServer.Text
