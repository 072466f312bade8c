import WebServer.Transport.InMemory

/-! # Faulty transports

A network in memory whose writes can be shortened and whose closes and listens can fail. -/

namespace WebServer.Transport

/-- A network in memory with faults to come. -/
structure Faulty (κ : Type) where
  memory : InMemory κ := {}
  /-- The most bytes that each of the next writes passes on; zero passes none. -/
  writeLimits : List Nat := []
  /-- The number of closes that will report a failure. -/
  failingCloses : Nat := 0
  /-- The number of listens that will fail. -/
  failingListens : Nat := 0
deriving DecidableEq, Repr

namespace Faulty

variable {κ : Type} [DecidableEq κ]

/-- Write under the next limit. -/
def write (t : Faulty κ) (conn : κ) (data : Bytes) : Except TransportError Nat × Faulty κ :=
  match t.writeLimits with
  | [] =>
    let (outcome, memory) := t.memory.write conn data
    (outcome, { t with memory })
  | 0 :: limits => (.ok 0, { t with writeLimits := limits })
  | limit :: limits =>
    let (outcome, memory) := t.memory.write conn (data.take limit)
    (outcome, { t with memory, writeLimits := limits })

/-- Close a connection; a failure is reported after the fact. -/
def close (t : Faulty κ) (conn : κ) : Except TransportError Unit × Faulty κ :=
  let t := { t with memory := t.memory.close conn }
  if 0 < t.failingCloses then
    (.error .unknownConnection, { t with failingCloses := t.failingCloses - 1 })
  else (.ok (), t)

def listen (t : Faulty κ) (port : Nat) : Except TransportError Unit × Faulty κ :=
  if 0 < t.failingListens then
    (.error (.listen port "scripted"), { t with failingListens := t.failingListens - 1 })
  else
    let (outcome, memory) := Transport.listen t.memory port
    (outcome, { t with memory })

instance : Transport (Faulty κ) κ where
  capacity t conn := t.memory.room conn
  write := write
  close := close
  listen := listen
  stopListening t := { t with memory := Transport.stopListening t.memory }

end Faulty
end WebServer.Transport
