/-! # Reading from a growing buffer -/

namespace WebServer

/-- What a reader finds at the start of a buffer that may still grow. -/
inductive Reading (ε α : Type) where
  /-- More bytes are needed to decide. -/
  | notYet
  /-- A complete item stands at the start of the buffer. -/
  | ready (item : α)
  /-- No continuation can make the buffer acceptable. -/
  | failed (error : ε)
deriving DecidableEq, Repr

end WebServer
