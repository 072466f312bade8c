import WebServer.Bytes

/-! # SHA-1

The 160-bit digest of FIPS 180-4. -/

namespace WebServer.Digest.Sha1

/-- The five words that a block is folded into. -/
structure State where
  a : UInt32
  b : UInt32
  c : UInt32
  d : UInt32
  e : UInt32
deriving DecidableEq, Repr

/-- The state before the first block. -/
def initial : State :=
  ⟨0x67452301, 0xEFCDAB89, 0x98BADCFE, 0x10325476, 0xC3D2E1F0⟩

def rotate (x : UInt32) (n : UInt32) : UInt32 :=
  (x <<< n) ||| (x >>> (32 - n))

/-- The message followed by a one bit, zeros up to eight bytes short of a block, and its length in bits. -/
def pad (message : Bytes) : Bytes :=
  message ++ [0x80] ++ List.replicate ((119 - message.length % 64) % 64) 0 ++
    Bytes.ofNat 8 (message.length * 8)

/-- The first `n` groups of four bytes as words. -/
def wordsOf : (n : Nat) → Bytes → List UInt32
  | 0, _ => []
  | n + 1, bs => UInt32.ofNat (Bytes.toNat (bs.take 4)) :: wordsOf n (bs.drop 4)

/-- Extend a schedule, kept newest word first, by `n` words. -/
def extend : (n : Nat) → List UInt32 → List UInt32
  | 0, ws => ws
  | n + 1, ws =>
    extend n (rotate (ws.getD 2 0 ^^^ ws.getD 7 0 ^^^ ws.getD 13 0 ^^^ ws.getD 15 0) 1 :: ws)

/-- The 80 words of a block. -/
def schedule (block : Bytes) : List UInt32 :=
  (extend 64 (wordsOf 16 block).reverse).reverse

/-- The mixing function and constant of a round. -/
def roundTerm (t : Nat) (b c d : UInt32) : UInt32 :=
  if t < 20 then ((b &&& c) ||| ((~~~ b) &&& d)) + 0x5A827999
  else if t < 40 then (b ^^^ c ^^^ d) + 0x6ED9EBA1
  else if t < 60 then ((b &&& c) ||| (b &&& d) ||| (c &&& d)) + 0x8F1BBCDC
  else (b ^^^ c ^^^ d) + 0xCA62C1D6

/-- One round with its number and its word of the schedule. -/
def round (s : State) (step : UInt32 × Nat) : State :=
  let (w, t) := step
  ⟨rotate s.a 5 + roundTerm t s.b s.c s.d + s.e + w, s.a, rotate s.b 30, s.c, s.d⟩

/-- Fold one block of 64 bytes into the state. -/
def compress (s : State) (block : Bytes) : State :=
  let r := (schedule block).zipIdx.foldl round s
  ⟨s.a + r.a, s.b + r.b, s.c + r.c, s.d + r.d, s.e + r.e⟩

/-- Fold the first `n` blocks into the state. -/
def absorb : (n : Nat) → Bytes → State → State
  | 0, _, s => s
  | n + 1, bs, s => absorb n (bs.drop 64) (compress s (bs.take 64))

/-- The 20 bytes of the digest. -/
def digest (message : Bytes) : Bytes :=
  let padded := pad message
  let s := absorb (padded.length / 64) padded initial
  [s.a, s.b, s.c, s.d, s.e].flatMap fun w => Bytes.ofNat 4 w.toNat

end WebServer.Digest.Sha1
