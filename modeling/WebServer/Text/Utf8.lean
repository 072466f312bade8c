import WebServer.Bytes

/-! # UTF-8

Strict and forgiving decoding share one scan of the bytes, which gives a character for each well-formed
sequence and a gap for each longest malformed run. -/

namespace WebServer.Text

/-- The bytes of a character sequence. -/
def encode (cs : List Char) : Bytes :=
  cs.flatMap String.utf8EncodeChar

/-- The bytes of a string. -/
def utf8 (s : String) : Bytes :=
  encode s.toList

/-- The ranges that the bytes after `lead` have to fall in, if `lead` can start a sequence. -/
def tailRanges (lead : UInt8) : Option (List (UInt8 × UInt8)) :=
  if lead < 0x80 then some []
  else if lead < 0xC2 then none
  else if lead < 0xE0 then some [(0x80, 0xBF)]
  else if lead == 0xE0 then some [(0xA0, 0xBF), (0x80, 0xBF)]
  else if lead == 0xED then some [(0x80, 0x9F), (0x80, 0xBF)]
  else if lead < 0xF0 then some [(0x80, 0xBF), (0x80, 0xBF)]
  else if lead == 0xF0 then some [(0x90, 0xBF), (0x80, 0xBF), (0x80, 0xBF)]
  else if lead < 0xF4 then some [(0x80, 0xBF), (0x80, 0xBF), (0x80, 0xBF)]
  else if lead == 0xF4 then some [(0x80, 0x8F), (0x80, 0xBF), (0x80, 0xBF)]
  else none

/-- The longest run of leading bytes that fall in the given ranges, one after the other. -/
def takeTail : List (UInt8 × UInt8) → Bytes → Bytes
  | (low, high) :: ranges, b :: rest =>
    if low ≤ b && b ≤ high then b :: takeTail ranges rest else []
  | _, _ => []

/-- The code point that a lead byte and its tail stand for. -/
def codePoint (lead : UInt8) (tail : Bytes) : Nat :=
  let first :=
    match tail.length with
    | 0 => lead.toNat
    | 1 => lead.toNat % 32
    | 2 => lead.toNat % 16
    | _ => lead.toNat % 8
  tail.foldl (fun n b => n * 64 + b.toNat % 64) first

/-- The first character, or none for a malformed run, and how many bytes follow its lead. -/
def scanOne (lead : UInt8) (rest : Bytes) : Option Char × Nat :=
  match tailRanges lead with
  | none => (none, 0)
  | some ranges =>
    let tail := takeTail ranges rest
    if tail.length == ranges.length then (some (Char.ofNat (codePoint lead tail)), tail.length)
    else (none, tail.length)

/-- Scan the bytes after the next `skip` ones, behind the characters already found in reverse. -/
def scanLoop : Bytes → (skip : Nat) → List (Option Char) → List (Option Char)
  | [], _, found => found.reverse
  | _ :: rest, skip + 1, found => scanLoop rest skip found
  | lead :: rest, 0, found =>
    let (c, skip) := scanOne lead rest
    scanLoop rest skip (c :: found)

/-- A character for each well-formed sequence and a gap for each longest malformed run. -/
def scan (bs : Bytes) : List (Option Char) :=
  scanLoop bs 0 []

/-- The text of well-formed bytes. -/
def decode? (bs : Bytes) : Option (List Char) :=
  let cs := scan bs
  if cs.all Option.isSome then some (cs.filterMap id) else none

/-- The text of any bytes, with the replacement character for each malformed run. -/
def decodeLossy (bs : Bytes) : List Char :=
  (scan bs).map (·.getD '\uFFFD')

/-- The string of well-formed bytes. -/
def ofUtf8? (bs : Bytes) : Option String :=
  (decode? bs).map String.ofList

end WebServer.Text
