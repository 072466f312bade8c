/-! # Byte strings

Searching for a byte pattern, and numbers written most significant byte first. -/

namespace WebServer

/-- A finite string of bytes. -/
abbrev Bytes := List UInt8

namespace Bytes

/-- The pair that ends a line. -/
def crlf : Bytes := [13, 10]

/-- The empty line that ends a header block, with the end of the line before it. -/
def blankLine : Bytes := [13, 10, 13, 10]

/-- The first position at or after `at_` where `pattern` stands, counting the head of the list as `at_`. -/
def findLoop (pattern : Bytes) : Bytes → Nat → Option Nat
  | [], _ => none
  | b :: rest, at_ =>
    if pattern.isPrefixOf (b :: rest) then some at_ else findLoop pattern rest (at_ + 1)

/-- The first position of a non-empty pattern. -/
def find? (pattern : Bytes) (text : Bytes) : Option Nat :=
  if pattern.isEmpty then none else findLoop pattern text 0

/-- The number with the given bytes, most significant first. -/
def toNat (bs : Bytes) : Nat :=
  bs.foldl (fun n b => n * 256 + b.toNat) 0

/-- The low `width` bytes of a number, most significant first. -/
def ofNat : (width : Nat) → Nat → Bytes
  | 0, _ => []
  | width + 1, n => UInt8.ofNat (n / 256 ^ width) :: ofNat width n

/-- The bytes from `start` up to `stop`; none when the range leaves the text. -/
def slice (text : Bytes) (start stop : Nat) : Bytes :=
  if start ≤ stop ∧ stop ≤ text.length then (text.drop start).take (stop - start) else []

end Bytes
end WebServer
