/-! # Session handles -/

namespace WebServer

/-- The number by which an application addresses a session. -/
structure Handle where
  raw : UInt32
deriving DecidableEq, Repr

namespace Handle

/-- The handle that never names a session. -/
def invalid : Handle := ⟨0⟩

/-- The first handle issued; the numbers below it are reserved. -/
def first : Handle := ⟨1000⟩

/-- Whether a handle lies outside the reserved range. -/
def isValid (h : Handle) : Bool :=
  first.raw ≤ h.raw

/-- The handle issued after `h`: the numbers wrap around and skip the reserved range. -/
def next (h : Handle) : Handle :=
  if h.raw + 1 < first.raw then first else ⟨h.raw + 1⟩

def text (h : Handle) : String :=
  "#" ++ toString h.raw.toNat

end Handle
end WebServer
