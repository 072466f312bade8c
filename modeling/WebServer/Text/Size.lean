/-! # Sizes

Numbers below 2^64 and their decimal text. -/

namespace WebServer

/-- One more than the largest size. -/
def sizeLimit : Nat := 0x10000000000000000

/-- The largest size. -/
def maxSize : Nat := sizeLimit - 1

namespace Text

/-- The value of a run of decimal digits. -/
def digitsValue (ds : List Char) : Nat :=
  ds.foldl (fun n d => n * 10 + (d.toNat - '0'.toNat)) 0

/-- A size written as decimal digits, which a plus sign may precede. -/
def readSize? (cs : List Char) : Option Nat :=
  let digits := if cs.head? == some '+' then cs.tail else cs
  if digits.isEmpty || !digits.all Char.isDigit then none
  else
    let n := digitsValue digits
    if n < sizeLimit then some n else none

end Text
end WebServer
