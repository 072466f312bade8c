import WebServer.Text.Size

/-! # The clock

Time is a count of milliseconds that only the outside world moves. -/

namespace WebServer

/-- A clock that counts milliseconds in 64 bits. -/
structure Clock where
  millis : Nat := 0
deriving DecidableEq, Repr

namespace Clock

/-- Move the clock forward. -/
def advance (c : Clock) (millis : Nat) : Clock :=
  ⟨(c.millis + millis) % sizeLimit⟩

/-- Move the clock forward by whole minutes. -/
def advanceMinutes (c : Clock) (minutes : Nat) : Clock :=
  c.advance (minutes * 60000 % sizeLimit)

end Clock
end WebServer
