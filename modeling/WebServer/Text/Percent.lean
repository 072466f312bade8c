import WebServer.Text.Utf8

/-! # Percent escapes -/

namespace WebServer.Text

/-- The value of a hexadecimal digit of either case. -/
def hexValue? (b : UInt8) : Option UInt8 :=
  if 48 ≤ b && b ≤ 57 then some (b - 48)
  else if 65 ≤ b && b ≤ 70 then some (b - 55)
  else if 97 ≤ b && b ≤ 102 then some (b - 87)
  else none

/-- The byte named by the two hexadecimal digits at the start of the text. -/
def escapeValue? : Bytes → Option UInt8
  | high :: low :: _ => do
    let h ← hexValue? high
    let l ← hexValue? low
    return h * 16 + l
  | _ => none

/-- Resolve the escapes of the bytes after the next `skip` ones, behind the bytes already found in reverse. -/
def percentLoop : Bytes → (skip : Nat) → Bytes → Bytes
  | [], _, found => found.reverse
  | _ :: rest, skip + 1, found => percentLoop rest skip found
  | b :: rest, 0, found =>
    match if b == 37 then escapeValue? rest else none with
    | some value => percentLoop rest 2 (value :: found)
    | none => percentLoop rest 0 (b :: found)

/-- Replace each percent sign and two hexadecimal digits by the byte they name; any other percent sign
stands for itself. -/
def percentDecode (bs : Bytes) : Bytes :=
  percentLoop bs 0 []

/-- The bytes of a form component: plus signs are spaces, then escapes are resolved. -/
def decodeComponent (bs : Bytes) : Bytes :=
  percentDecode (bs.map fun b => if b == 43 then 32 else b)

/-- The text of a form component. -/
def uriDecode (s : String) : String :=
  String.ofList (decodeLossy (decodeComponent (utf8 s)))

end WebServer.Text
