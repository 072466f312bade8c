import Mathlib.Data.List.Forall2
import WebServer.Text.Utf8

/-! # Text as bytes

What is encoded is decoded to the same characters, and nothing else is decoded to them. The characters of ASCII are
the only ones with a byte of ASCII. -/

namespace WebServer.Text

/-! ## Sequences -/

/-- A byte falls in a range. -/
def InRange (range : UInt8 × UInt8) (b : UInt8) : Prop :=
  range.1 ≤ b ∧ b ≤ range.2

theorem takeTail_append {ranges : List (UInt8 × UInt8)} {tail : Bytes} (h : List.Forall₂ InRange ranges tail)
    (rest : Bytes) : takeTail ranges (tail ++ rest) = tail := by
  induction h with
  | nil => rw [takeTail]; simp
  | @cons range b ranges tail hb _ ih =>
      obtain ⟨low, high⟩ := range
      rw [List.cons_append, takeTail, ih, if_pos (by simpa [InRange] using hb)]

theorem scanLoop_skip (tail rest : Bytes) (found : List (Option Char)) :
    scanLoop (tail ++ rest) tail.length found = scanLoop rest 0 found := by
  induction tail with
  | nil => rfl
  | cons b tail ih => exact ih

/-- A well-formed sequence is scanned as the character it stands for. -/
theorem scanLoop_sequence {lead : UInt8} {ranges : List (UInt8 × UInt8)} {tail : Bytes} {c : Char}
    (hranges : tailRanges lead = some ranges) (htail : List.Forall₂ InRange ranges tail)
    (hcode : codePoint lead tail = c.toNat) (rest : Bytes) (found : List (Option Char)) :
    scanLoop (lead :: tail ++ rest) 0 found = scanLoop rest 0 (some c :: found) := by
  have hone : scanOne lead (tail ++ rest) = (some c, tail.length) := by
    rw [scanOne, hranges]
    dsimp only
    rw [takeTail_append htail, if_pos (by simp [htail.length_eq]), hcode, Char.ofNat_toNat]
  rw [List.cons_append, scanLoop, hone]
  exact scanLoop_skip tail rest (some c :: found)

/-! ## Characters -/

theorem inRange_ofNat {low high n : Nat} (hlow : low ≤ n) (hhigh : n ≤ high) (h : high < 256) :
    InRange (UInt8.ofNat low, UInt8.ofNat high) (UInt8.ofNat n) := by
  simp only [InRange, UInt8.le_iff_toNat_le, UInt8.toNat_ofNat']
  omega

/-- A byte that continues a sequence. -/
theorem inRange_continuation (n : Nat) : InRange (0x80, 0xBF) (UInt8.ofNat (n % 64 + 128)) :=
  @inRange_ofNat 0x80 0xBF _ (by omega) (by omega) (by decide)

theorem tailRanges_one {n : Nat} (h : n < 0x80) : tailRanges (UInt8.ofNat n) = some [] := by
  refine if_pos (UInt8.lt_iff_toNat_lt.mpr ?_)
  rw [UInt8.toNat_ofNat']
  exact Nat.lt_of_le_of_lt (Nat.mod_le _ _) h

theorem tailRanges_two {n : Nat} (h : 0xC2 ≤ n) (h' : n < 0xE0) :
    tailRanges (UInt8.ofNat n) = some [(0x80, 0xBF)] := by
  have key : ∀ i < 30, tailRanges (UInt8.ofNat (0xC2 + i)) = some [(0x80, 0xBF)] := by decide
  obtain ⟨i, rfl⟩ := Nat.exists_eq_add_of_le h
  exact key i (by omega)

theorem tailRanges_three {n : Nat} (h : 0xE0 ≤ n) (h' : n < 0xF0) :
    tailRanges (UInt8.ofNat n) = some [
      (UInt8.ofNat (if n = 0xE0 then 0xA0 else 0x80), UInt8.ofNat (if n = 0xED then 0x9F else 0xBF)),
      (0x80, 0xBF)] := by
  have key : ∀ i < 16, tailRanges (UInt8.ofNat (0xE0 + i)) = some [
      (UInt8.ofNat (if 0xE0 + i = 0xE0 then 0xA0 else 0x80), UInt8.ofNat (if 0xE0 + i = 0xED then 0x9F else 0xBF)),
      (0x80, 0xBF)] := by
    decide
  obtain ⟨i, rfl⟩ := Nat.exists_eq_add_of_le h
  exact key i (by omega)

theorem tailRanges_four {n : Nat} (h : 0xF0 ≤ n) (h' : n < 0xF5) :
    tailRanges (UInt8.ofNat n) = some [
      (UInt8.ofNat (if n = 0xF0 then 0x90 else 0x80), UInt8.ofNat (if n = 0xF4 then 0x8F else 0xBF)),
      (0x80, 0xBF), (0x80, 0xBF)] := by
  have key : ∀ i < 5, tailRanges (UInt8.ofNat (0xF0 + i)) = some [
      (UInt8.ofNat (if 0xF0 + i = 0xF0 then 0x90 else 0x80), UInt8.ofNat (if 0xF0 + i = 0xF4 then 0x8F else 0xBF)),
      (0x80, 0xBF), (0x80, 0xBF)] := by
    decide
  obtain ⟨i, rfl⟩ := Nat.exists_eq_add_of_le h
  exact key i (by omega)

/-- A character is scanned from its bytes, whatever follows. -/
theorem scanLoop_utf8EncodeChar (c : Char) (rest : Bytes) (found : List (Option Char)) :
    scanLoop (String.utf8EncodeChar c ++ rest) 0 found = scanLoop rest 0 (some c :: found) := by
  -- No character is a surrogate.
  have hvalid : c.toNat < 0xD800 ∨ 0xDFFF < c.toNat ∧ c.toNat < 0x110000 := c.valid
  have hval : c.val.toNat = c.toNat := rfl
  simp only [String.utf8EncodeChar, hval]
  split
  · refine scanLoop_sequence (tailRanges_one (by omega)) .nil ?_ rest found
    simp only [codePoint, List.length_nil, List.foldl_nil, UInt8.toNat_ofNat']
    omega
  · split
    · refine scanLoop_sequence (tailRanges_two (by omega) (by omega)) (.cons (inRange_continuation _) .nil) ?_ rest found
      simp only [codePoint, List.length_cons, List.length_nil, List.foldl_cons, List.foldl_nil, UInt8.toNat_ofNat']
      omega
    · split
      · refine scanLoop_sequence (tailRanges_three (by omega) (by omega))
          (.cons (inRange_ofNat ?_ ?_ ?_) (.cons (inRange_continuation _) .nil)) ?_ rest found
        · split <;> omega
        · split <;> omega
        · split <;> decide
        · simp only [codePoint, List.length_cons, List.length_nil, List.foldl_cons, List.foldl_nil, UInt8.toNat_ofNat']
          omega
      · refine scanLoop_sequence (tailRanges_four (by omega) (by omega))
          (.cons (inRange_ofNat ?_ ?_ ?_) (.cons (inRange_continuation _) (.cons (inRange_continuation _) .nil))) ?_ rest found
        · split <;> omega
        · split <;> omega
        · split <;> decide
        · simp only [codePoint, List.length_cons, List.length_nil, List.foldl_cons, List.foldl_nil, UInt8.toNat_ofNat']
          omega

theorem encode_cons (c : Char) (cs : List Char) : encode (c :: cs) = String.utf8EncodeChar c ++ encode cs :=
  rfl

theorem encode_append (cs ds : List Char) : encode (cs ++ ds) = encode cs ++ encode ds :=
  List.flatMap_append

theorem scanLoop_encode (cs : List Char) (found : List (Option Char)) :
    scanLoop (encode cs) 0 found = found.reverse ++ cs.map some := by
  induction cs generalizing found with
  | nil => simp [encode, scanLoop]
  | cons c cs ih =>
      rw [encode_cons, scanLoop_utf8EncodeChar, ih, List.reverse_cons, List.map_cons, List.append_assoc]
      rfl

/-- Text is read back from its bytes. -/
theorem decode?_encode (cs : List Char) : decode? (encode cs) = some cs := by
  have hscan : scan (encode cs) = cs.map some := scanLoop_encode cs []
  rw [decode?, hscan, if_pos (by simp)]
  simp

/-! ## What text is read from -/

theorem val_ofNat {v : Nat} (hv : v < 0xD800 ∨ 0xDFFF < v ∧ v < 0x110000) : (Char.ofNat v).val.toNat = v := by
  have h : v.isValidChar := hv
  rw [Char.ofNat, dif_pos h]
  rfl

theorem eq_ofNat {b : UInt8} {n : Nat} (h : n = b.toNat) : UInt8.ofNat n = b := by
  rw [h, UInt8.ofNat_toNat]

/-! A sequence whose bytes fall in their ranges is that of the character it stands for. -/

theorem utf8EncodeChar_one {a : UInt8} (ha : a.toNat < 0x80) :
    String.utf8EncodeChar (Char.ofNat (codePoint a [])) = [a] := by
  have hcode : codePoint a [] = a.toNat := rfl
  rw [String.utf8EncodeChar, hcode, val_ofNat (by omega)]
  rw [if_pos (by omega), eq_ofNat rfl]

theorem utf8EncodeChar_two {a b : UInt8} (ha : 0xC2 ≤ a.toNat ∧ a.toNat < 0xE0) (hb : 0x80 ≤ b.toNat ∧ b.toNat ≤ 0xBF) :
    String.utf8EncodeChar (Char.ofNat (codePoint a [b])) = [a, b] := by
  have hcode : codePoint a [b] = a.toNat % 32 * 64 + b.toNat % 64 := rfl
  rw [String.utf8EncodeChar, hcode, val_ofNat (by omega)]
  rw [if_neg (by omega), if_pos (by omega), @eq_ofNat a _ (by omega), @eq_ofNat b _ (by omega)]

theorem utf8EncodeChar_three {a b c : UInt8} (ha : 0xE0 ≤ a.toNat ∧ a.toNat < 0xF0)
    (hb : 0x80 ≤ b.toNat ∧ b.toNat ≤ 0xBF) (hc : 0x80 ≤ c.toNat ∧ c.toNat ≤ 0xBF)
    (hleast : a.toNat = 0xE0 → 0xA0 ≤ b.toNat) (hvalid : a.toNat = 0xED → b.toNat ≤ 0x9F) :
    String.utf8EncodeChar (Char.ofNat (codePoint a [b, c])) = [a, b, c] := by
  have hcode : codePoint a [b, c] = (a.toNat % 16 * 64 + b.toNat % 64) * 64 + c.toNat % 64 := rfl
  rw [String.utf8EncodeChar, hcode, val_ofNat (by omega)]
  rw [if_neg (by omega), if_neg (by omega), if_pos (by omega), @eq_ofNat a _ (by omega), @eq_ofNat b _ (by omega),
    @eq_ofNat c _ (by omega)]

theorem utf8EncodeChar_four {a b c d : UInt8} (ha : 0xF0 ≤ a.toNat ∧ a.toNat < 0xF5)
    (hb : 0x80 ≤ b.toNat ∧ b.toNat ≤ 0xBF) (hc : 0x80 ≤ c.toNat ∧ c.toNat ≤ 0xBF)
    (hd : 0x80 ≤ d.toNat ∧ d.toNat ≤ 0xBF) (hleast : a.toNat = 0xF0 → 0x90 ≤ b.toNat)
    (hvalid : a.toNat = 0xF4 → b.toNat ≤ 0x8F) :
    String.utf8EncodeChar (Char.ofNat (codePoint a [b, c, d])) = [a, b, c, d] := by
  have hcode : codePoint a [b, c, d] =
      ((a.toNat % 8 * 64 + b.toNat % 64) * 64 + c.toNat % 64) * 64 + d.toNat % 64 := rfl
  rw [String.utf8EncodeChar, hcode, val_ofNat (by omega)]
  rw [if_neg (by omega), if_neg (by omega), if_neg (by omega), @eq_ofNat a _ (by omega), @eq_ofNat b _ (by omega),
    @eq_ofNat c _ (by omega), @eq_ofNat d _ (by omega)]

theorem inRange_iff {low high b : UInt8} : InRange (low, high) b ↔ low.toNat ≤ b.toNat ∧ b.toNat ≤ high.toNat := by
  simp only [InRange, UInt8.le_iff_toNat_le]

theorem utf8EncodeChar_of_sequence {lead : UInt8} {ranges : List (UInt8 × UInt8)} {tail : Bytes}
    (hranges : tailRanges lead = some ranges) (htail : List.Forall₂ InRange ranges tail) :
    String.utf8EncodeChar (Char.ofNat (codePoint lead tail)) = lead :: tail := by
  rw [tailRanges] at hranges
  simp only [UInt8.lt_iff_toNat_lt, beq_iff_eq, ← UInt8.toNat_inj, UInt8.reduceToNat] at hranges
  repeat' split at hranges
  all_goals cases hranges
  all_goals simp only [List.forall₂_cons_left_iff, List.forall₂_nil_left_iff, inRange_iff, UInt8.reduceToNat] at htail
  · subst htail
    exact utf8EncodeChar_one ‹_›
  · obtain ⟨b, _, hb, rfl, rfl⟩ := htail
    exact utf8EncodeChar_two (by omega) hb
  · obtain ⟨b, _, hb, ⟨c, _, hc, rfl, rfl⟩, rfl⟩ := htail
    exact utf8EncodeChar_three (by omega) (by omega) hc (by omega) (by omega)
  · obtain ⟨b, _, hb, ⟨c, _, hc, rfl, rfl⟩, rfl⟩ := htail
    exact utf8EncodeChar_three (by omega) (by omega) hc (by omega) (by omega)
  · obtain ⟨b, _, hb, ⟨c, _, hc, rfl, rfl⟩, rfl⟩ := htail
    exact utf8EncodeChar_three (by omega) (by omega) hc (by omega) (by omega)
  · obtain ⟨b, _, hb, ⟨c, _, hc, ⟨d, _, hd, rfl, rfl⟩, rfl⟩, rfl⟩ := htail
    exact utf8EncodeChar_four (by omega) (by omega) hc hd (by omega) (by omega)
  · obtain ⟨b, _, hb, ⟨c, _, hc, ⟨d, _, hd, rfl, rfl⟩, rfl⟩, rfl⟩ := htail
    exact utf8EncodeChar_four (by omega) (by omega) hc hd (by omega) (by omega)
  · obtain ⟨b, _, hb, ⟨c, _, hc, ⟨d, _, hd, rfl, rfl⟩, rfl⟩, rfl⟩ := htail
    exact utf8EncodeChar_four (by omega) (by omega) hc hd (by omega) (by omega)

theorem takeTail_spec (ranges : List (UInt8 × UInt8)) (rest : Bytes) :
    takeTail ranges rest <+: rest ∧
      ((takeTail ranges rest).length = ranges.length → List.Forall₂ InRange ranges (takeTail ranges rest)) := by
  induction ranges generalizing rest with
  | nil => exact ⟨List.nil_prefix, fun _ => .nil⟩
  | cons range ranges ih =>
      obtain ⟨low, high⟩ := range
      cases rest with
      | nil => exact ⟨List.nil_prefix, fun h => nomatch h⟩
      | cons b rest =>
          rw [takeTail]
          split
          · rename_i hb
            obtain ⟨hbegins, htail⟩ := ih rest
            refine ⟨(List.prefix_cons_inj b).mpr hbegins, fun hlength => ?_⟩
            exact .cons (by simpa [InRange] using hb) (htail (Nat.succ.inj hlength))
          · exact ⟨List.nil_prefix, fun h => nomatch h⟩

/-- A character that is scanned has the bytes that it is scanned from. -/
theorem utf8EncodeChar_of_scanOne {lead : UInt8} {rest : Bytes} {c : Char} {n : Nat}
    (h : scanOne lead rest = (some c, n)) : String.utf8EncodeChar c ++ rest.drop n = lead :: rest := by
  rw [scanOne] at h
  split at h
  · cases h
  · rename_i ranges hranges
    dsimp only at h
    obtain ⟨hbegins, htail⟩ := takeTail_spec ranges rest
    split at h
    · rename_i hlength
      obtain ⟨hc, rfl⟩ := Prod.mk.inj h
      rw [← Option.some.inj hc, utf8EncodeChar_of_sequence hranges (htail (by simpa using hlength)), List.cons_append]
      exact congrArg (lead :: ·) (List.prefix_iff_eq_append.mp hbegins)
    · cases h

theorem scanLoop_found (bs : Bytes) (skip : Nat) (found : List (Option Char)) :
    scanLoop bs skip found = found.reverse ++ scan (bs.drop skip) := by
  -- The characters found so far only stand in front of the others.
  induction bs generalizing skip found with
  | nil => simp [scan, scanLoop]
  | cons b bs ih =>
      cases skip with
      | zero =>
          have hscan : scan (b :: bs) = [(scanOne b bs).1] ++ scan (bs.drop (scanOne b bs).2) := ih _ _
          change scanLoop bs (scanOne b bs).2 ((scanOne b bs).1 :: found) = _
          rw [ih, List.drop_zero, hscan, List.reverse_cons, List.append_assoc]
      | succ skip => exact ih skip found

theorem scan_cons (lead : UInt8) (rest : Bytes) :
    scan (lead :: rest) = (scanOne lead rest).1 :: scan (rest.drop (scanOne lead rest).2) :=
  scanLoop_found rest _ _

/-- Text that is read has the bytes that it is read from. -/
theorem encode_of_scan {bs : Bytes} {cs : List Char} (h : scan bs = cs.map some) : encode cs = bs := by
  induction cs generalizing bs with
  | nil =>
      cases bs with
      | nil => rfl
      | cons lead rest => cases (scan_cons lead rest).symm.trans h
  | cons c cs ih =>
      cases bs with
      | nil => cases h
      | cons lead rest =>
          obtain ⟨hone, hrest⟩ := List.cons.inj ((scan_cons lead rest).symm.trans h)
          rw [encode_cons, ih hrest]
          exact utf8EncodeChar_of_scanOne (Prod.ext hone rfl)

theorem encode_of_decode? {bs : Bytes} {cs : List Char} (h : decode? bs = some cs) : encode cs = bs := by
  rw [decode?] at h
  split at h
  · rename_i hall
    refine encode_of_scan ?_
    rw [← Option.some.inj h]
    rw [List.map_filterMap_some_eq_filter_map_isSome, List.map_id]
    exact (List.filter_eq_self.mpr (List.all_eq_true.mp hall)).symm
  · cases h

/-- Bytes are those of a text if they are read as that text. -/
theorem ofUtf8?_eq_some {bs : Bytes} {text : String} : ofUtf8? bs = some text ↔ utf8 text = bs := by
  constructor
  · intro h
    obtain ⟨cs, hcs, rfl⟩ := Option.map_eq_some_iff.mp h
    rw [utf8, String.toList_ofList]
    exact encode_of_decode? hcs
  · rintro rfl
    rw [ofUtf8?, utf8, decode?_encode, Option.map_some, String.ofList_toList]

/-! ## Forgiving reading -/

/-- Text in front of other bytes is read as it is. -/
theorem decodeLossy_encode_append (cs : List Char) (rest : Bytes) :
    decodeLossy (encode cs ++ rest) = cs ++ decodeLossy rest := by
  induction cs with
  | nil => rfl
  | cons c cs ih =>
      have hscan : scan (String.utf8EncodeChar c ++ (encode cs ++ rest)) = some c :: scan (encode cs ++ rest) := by
        rw [scan, scanLoop_utf8EncodeChar, scanLoop_found]
        rfl
      rw [encode_cons, List.append_assoc, decodeLossy, hscan, List.map_cons, List.cons_append, ← ih]
      rfl

/-- Text is read back from its bytes, also by a reader that forgives. -/
theorem decodeLossy_encode (cs : List Char) : decodeLossy (encode cs) = cs := by
  have hread := decodeLossy_encode_append cs []
  have hnil : decodeLossy [] = [] := rfl
  rwa [List.append_nil, hnil, List.append_nil] at hread

theorem decodeLossy_cons (lead : UInt8) (rest : Bytes) :
    decodeLossy (lead :: rest) =
      (scanOne lead rest).1.getD '\uFFFD' :: decodeLossy (rest.drop (scanOne lead rest).2) := by
  rw [decodeLossy, scan_cons]
  rfl

/-- A character other than the one for malformed runs is read from its own bytes. -/
theorem decodeLossy_eq_cons {bs : Bytes} {c : Char} {cs : List Char} (hc : c ≠ '\uFFFD')
    (h : decodeLossy bs = c :: cs) : ∃ rest, bs = String.utf8EncodeChar c ++ rest ∧ decodeLossy rest = cs := by
  cases bs with
  | nil => cases h
  | cons lead rest =>
      rw [decodeLossy_cons] at h
      obtain ⟨hfirst, hrest⟩ := List.cons.inj h
      refine ⟨rest.drop (scanOne lead rest).2, (utf8EncodeChar_of_scanOne (Prod.ext ?_ rfl)).symm, hrest⟩
      cases hone : (scanOne lead rest).1 with
      | none =>
          rw [hone] at hfirst
          exact absurd hfirst.symm hc
      | some d =>
          rw [hone] at hfirst
          exact congrArg some hfirst

theorem decodeLossy_eq_append {bs : Bytes} {front cs : List Char} (hfront : '\uFFFD' ∉ front)
    (h : decodeLossy bs = front ++ cs) : ∃ rest, bs = encode front ++ rest ∧ decodeLossy rest = cs := by
  induction front generalizing bs with
  | nil => exact ⟨bs, rfl, h⟩
  | cons c front ih =>
      rw [List.mem_cons, not_or] at hfront
      obtain ⟨rest, rfl, hrest⟩ := decodeLossy_eq_cons (Ne.symm hfront.1) h
      obtain ⟨rest, rfl, hcs⟩ := ih hfront.2 hrest
      exact ⟨rest, by rw [encode_cons, List.append_assoc], hcs⟩

/-- The end of a text is read from the end of its bytes. -/
theorem exists_of_decodeLossy_append {bs : Bytes} {front cs : List Char} (h : decodeLossy bs = front ++ cs) :
    ∃ rest, rest <:+ bs ∧ decodeLossy rest = cs := by
  induction front generalizing bs with
  | nil => exact ⟨bs, List.suffix_refl bs, h⟩
  | cons c front ih =>
      cases bs with
      | nil => cases h
      | cons lead rest =>
          rw [decodeLossy_cons] at h
          obtain ⟨rest', hsuffix, hcs⟩ := ih (List.cons.inj h).2
          exact ⟨rest', (hsuffix.trans (List.drop_suffix _ rest)).trans (List.suffix_cons lead rest), hcs⟩

theorem infix_of_decodeLossy {bs : Bytes} {cs : List Char} (hcs : '\uFFFD' ∉ cs) (h : cs <:+: decodeLossy bs) :
    encode cs <:+: bs := by
  obtain ⟨front, more, hdecoded⟩ := h
  rw [List.append_assoc] at hdecoded
  obtain ⟨rest, hsuffix, hrest⟩ := exists_of_decodeLossy_append hdecoded.symm
  obtain ⟨rest, rfl, -⟩ := decodeLossy_eq_append hcs hrest
  exact (List.prefix_append _ _).isInfix.trans hsuffix.isInfix

theorem suffix_of_decodeLossy {bs : Bytes} {cs : List Char} (hcs : '\uFFFD' ∉ cs) (h : cs <:+ decodeLossy bs) :
    encode cs <:+ bs := by
  obtain ⟨front, hdecoded⟩ := h
  obtain ⟨rest, hsuffix, hrest⟩ := exists_of_decodeLossy_append hdecoded.symm
  obtain ⟨rest, rfl, hnone⟩ := decodeLossy_eq_append hcs (hrest.trans (List.append_nil cs).symm)
  cases rest with
  | nil => rwa [List.append_nil] at hsuffix
  | cons lead rest =>
      rw [decodeLossy_cons] at hnone
      cases hnone

/-- Bytes as they are after they were read as text, with the replacement character for each malformed run. -/
def mend (bs : Bytes) : Bytes :=
  encode (decodeLossy bs)

/-- Nothing is to be mended in well-formed bytes, and in no others. -/
theorem mend_eq_self_iff {bs : Bytes} : mend bs = bs ↔ (decode? bs).isSome = true := by
  constructor
  · intro h
    rw [← h, mend, decode?_encode]
    rfl
  · intro h
    obtain ⟨cs, hcs⟩ := Option.isSome_iff_exists.mp h
    rw [← encode_of_decode? hcs, mend, decodeLossy_encode]

/-! ## ASCII -/

/-- A byte of ASCII stands for itself only. -/
theorem eq_of_mem_utf8EncodeChar {c : Char} {b : UInt8} (hb : b ∈ String.utf8EncodeChar c) (h : b.toNat < 0x80) :
    String.utf8EncodeChar c = [b] ∧ c.toNat = b.toNat := by
  have hval : c.val.toNat = c.toNat := rfl
  simp only [String.utf8EncodeChar, hval] at hb ⊢
  split at hb
  · rw [if_pos ‹_›]
    obtain rfl := List.mem_singleton.mp hb
    rw [UInt8.toNat_ofNat']
    exact ⟨rfl, by omega⟩
  -- The bytes of a longer sequence are no bytes of ASCII.
  · split at hb
    · simp only [List.mem_cons, List.not_mem_nil, or_false] at hb
      rcases hb with rfl | rfl <;> rw [UInt8.toNat_ofNat'] at h <;> omega
    · split at hb
      · simp only [List.mem_cons, List.not_mem_nil, or_false] at hb
        rcases hb with rfl | rfl | rfl <;> rw [UInt8.toNat_ofNat'] at h <;> omega
      · simp only [List.mem_cons, List.not_mem_nil, or_false] at hb
        rcases hb with rfl | rfl | rfl | rfl <;> rw [UInt8.toNat_ofNat'] at h <;> omega

/-- Text begins with a byte of ASCII only if it begins with that character. -/
theorem encode_ne_cons {c : Char} {b : UInt8} (h : b.toNat < 0x80) (hc : c.toNat ≠ b.toNat) (cs : List Char)
    (more rest : Bytes) : encode (c :: cs) ++ more ≠ b :: rest := by
  intro heq
  have hlength : 0 < (String.utf8EncodeChar c).length := by
    rw [String.length_utf8EncodeChar]
    exact Char.utf8Size_pos c
  obtain ⟨b', tail, hbytes⟩ := List.exists_cons_of_length_pos hlength
  rw [encode_cons, hbytes] at heq
  obtain rfl := (List.cons.inj heq).1
  exact hc (eq_of_mem_utf8EncodeChar (hbytes ▸ List.mem_cons_self) h).2

theorem takeTail_append_of_not {ranges : List (UInt8 × UInt8)} {b : UInt8} (h : ∀ range ∈ ranges, ¬InRange range b)
    (front rest : Bytes) : takeTail ranges (front ++ b :: rest) = takeTail ranges front := by
  induction ranges generalizing front with
  | nil => rfl
  | cons range ranges ih =>
      obtain ⟨low, high⟩ := range
      rw [List.forall_mem_cons] at h
      cases front with
      | nil =>
          refine if_neg fun hb => h.1 ?_
          simpa [InRange] using hb
      | cons d front => rw [List.cons_append, takeTail, takeTail, ih h.2]

/-- No byte of ASCII continues a sequence. -/
theorem not_inRange_of_ascii {lead b : UInt8} {ranges : List (UInt8 × UInt8)} (hranges : tailRanges lead = some ranges)
    (hb : b.toNat < 0x80) : ∀ range ∈ ranges, ¬InRange range b := by
  rw [tailRanges] at hranges
  repeat' split at hranges
  all_goals cases hranges
  all_goals simp only [List.forall_mem_cons, List.not_mem_nil, false_imp_iff, implies_true, and_true, inRange_iff,
    UInt8.reduceToNat]
  all_goals omega

theorem scanOne_append_ascii {b : UInt8} (hb : b.toNat < 0x80) (lead : UInt8) (front rest : Bytes) :
    scanOne lead (front ++ b :: rest) = scanOne lead front := by
  rw [scanOne, scanOne]
  cases hranges : tailRanges lead with
  | none => rfl
  | some ranges =>
      dsimp only
      rw [takeTail_append_of_not (not_inRange_of_ascii hranges hb)]

theorem scanOne_le (lead : UInt8) (rest : Bytes) : (scanOne lead rest).2 ≤ rest.length := by
  rw [scanOne]
  split
  · exact Nat.zero_le _
  · rename_i ranges _
    have hle := (takeTail_spec ranges rest).1.length_le
    dsimp only
    split <;> exact hle

/-- No malformed run reaches over a byte of ASCII. -/
theorem decodeLossy_append_ascii {b : UInt8} (hb : b.toNat < 0x80) (front rest : Bytes) :
    decodeLossy (front ++ b :: rest) = decodeLossy front ++ decodeLossy (b :: rest) := by
  induction hn : front.length using Nat.strongRecOn generalizing front with
  | ind n ih =>
      cases front with
      | nil => rfl
      | cons lead front =>
          have hle := scanOne_le lead front
          have hshorter : (front.drop (scanOne lead front).2).length < n := by
            rw [List.length_drop, ← hn, List.length_cons]
            omega
          rw [List.cons_append, decodeLossy_cons, decodeLossy_cons, scanOne_append_ascii hb,
            List.drop_append_of_le_length hle, ih _ hshorter _ rfl, List.cons_append]

end WebServer.Text
