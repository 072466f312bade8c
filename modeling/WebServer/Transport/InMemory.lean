import WebServer.Transport

/-! # Transports in memory

A network that keeps what is written to it. Bytes stay unacknowledged, and use up the send window of their
connection, until they are taken. -/

namespace WebServer.Transport

/-- What a connection in memory has seen. -/
structure MemoryLink where
  written : Bytes := []
  unacknowledged : Nat := 0
  writes : Nat := 0
  closes : Nat := 0
deriving DecidableEq, Repr

structure InMemory (κ : Type) where
  window : Nat := 8 * 1460
  port : Option Nat := none
  links : List (κ × MemoryLink) := []
  /-- The number of writes that will fail from now on. -/
  failingWrites : Nat := 0
deriving DecidableEq, Repr

namespace InMemory

variable {κ : Type} [DecidableEq κ]

def link (t : InMemory κ) (conn : κ) : MemoryLink :=
  ((t.links.find? fun (c, _) => c = conn).map Prod.snd).getD {}

def setLink (t : InMemory κ) (conn : κ) (l : MemoryLink) : InMemory κ :=
  { t with links := (conn, l) :: t.links.filter fun (c, _) => c ≠ conn }

/-- Drain the bytes written to a connection. -/
def takeWritten (t : InMemory κ) (conn : κ) : Bytes × InMemory κ :=
  let l := t.link conn
  (l.written, t.setLink conn { l with written := [] })

/-- Take the bytes in flight on a connection, which reopens its window. -/
def takeUnacknowledged (t : InMemory κ) (conn : κ) : Nat × InMemory κ :=
  let l := t.link conn
  (l.unacknowledged, t.setLink conn { l with unacknowledged := 0 })

def room (t : InMemory κ) (conn : κ) : Nat :=
  t.window - (t.link conn).unacknowledged

/-- Write as many of the bytes as there is room for. -/
def write (t : InMemory κ) (conn : κ) (data : Bytes) : Except TransportError Nat × InMemory κ :=
  if 0 < t.failingWrites then (.error .wouldBlock, { t with failingWrites := t.failingWrites - 1 })
  else if t.room conn = 0 then (.error .wouldBlock, t)
  else
    let n := min data.length (t.room conn)
    let l := t.link conn
    (.ok n, t.setLink conn { l with
      written := l.written ++ data.take n, unacknowledged := l.unacknowledged + n,
      writes := l.writes + 1 })

def close (t : InMemory κ) (conn : κ) : InMemory κ :=
  let l := t.link conn
  t.setLink conn { l with closes := l.closes + 1 }

instance : Transport (InMemory κ) κ where
  capacity := room
  write := write
  close t conn := (.ok (), t.close conn)
  listen t port := (.ok (), { t with port := some port })
  stopListening t := { t with port := none }

end InMemory
end WebServer.Transport
