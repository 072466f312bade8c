import WebServer.Transport

/-! # Connections of a host

A transport over sockets. Every connection has a writer, which flushes what it is given in order and reports
each flush, and a reader, which reports what arrives. The send window of a connection reopens only as
flushes are acknowledged. -/

namespace WebServer.Host

/-- What the operating system answers when a port is to be listened on: the port bound, or the reason why
not. -/
structure Network where
  bind : Nat → Except String Nat

/-- What the tasks of the sockets report. -/
inductive Event where
  | accepted
  | received (conn : Nat) (data : Bytes)
  /-- The peer sends nothing more. -/
  | remoteClosed (conn : Nat)
  /-- The writer flushed bytes. -/
  | sent (conn : Nat) (count : Nat)
  /-- The connection broke. -/
  | failed (conn : Nat)
deriving DecidableEq, Repr

/-- What a writer is given to do. -/
inductive WriterTask where
  | data (bytes : Bytes)
  | shutdown
deriving DecidableEq, Repr

/-- The tasks of a socket. -/
structure Socket where
  /-- What the writer has still to do; none once it has stopped. -/
  writer : Option (List WriterTask) := some []
  reading : Bool := true
deriving DecidableEq, Repr

/-- The connections of a host. -/
structure Connections where
  /-- The send window of a connection. -/
  sendBuffer : Nat
  network : Network
  nextId : Nat := 1
  /-- The known connections with their bytes in flight. -/
  links : List (Nat × Nat) := []
  /-- The sockets, known or not any more. -/
  sockets : List (Nat × Socket) := []
  accepting : Bool := false
  /-- The port listened on last. -/
  address : Option Nat := none

namespace Connections

def inFlight? (c : Connections) (conn : Nat) : Option Nat :=
  (c.links.find? fun (id, _) => id == conn).map Prod.snd

def size (c : Connections) : Nat := c.links.length

def socket? (c : Connections) (conn : Nat) : Option Socket :=
  (c.sockets.find? fun (id, _) => id == conn).map Prod.snd

def updateLink (c : Connections) (conn : Nat) (f : Nat → Nat) : Connections :=
  { c with links := c.links.map fun (id, n) => (id, if id == conn then f n else n) }

def updateSocket (c : Connections) (conn : Nat) (f : Socket → Socket) : Connections :=
  { c with sockets := c.sockets.map fun (id, s) => (id, if id == conn then f s else s) }

/-- Take over an accepted socket; gives the number of the connection. -/
def register (c : Connections) : Nat × Connections :=
  (c.nextId, { c with
    nextId := c.nextId + 1
    links := c.links ++ [(c.nextId, 0)]
    sockets := c.sockets ++ [(c.nextId, {})] })

def acknowledge (c : Connections) (conn count : Nat) : Connections :=
  c.updateLink conn (· - count)

/-- Forget a connection whose socket has given up. -/
def forget (c : Connections) (conn : Nat) : Connections :=
  if (c.inFlight? conn).isNone then c
  else { c with links := c.links.filter fun (id, _) => id != conn }.updateSocket conn fun s =>
    { s with reading := false }

/-- The room in the send window of a connection. -/
def capacity (c : Connections) (conn : Nat) : Nat :=
  match c.inFlight? conn with
  | none => 0
  | some n => c.sendBuffer - n

/-- Give the writer of a connection as many of the bytes as there is room for. -/
def write (c : Connections) (conn : Nat) (data : Bytes) :
    Except TransportError Nat × Connections :=
  if (c.inFlight? conn).isNone then (.error .unknownConnection, c)
  else if c.capacity conn = 0 then (.error .wouldBlock, c)
  else
    match (c.socket? conn).bind Socket.writer with
    | none => (.error .unknownConnection, c)
    | some tasks =>
      let n := min data.length (c.capacity conn)
      (.ok n, (c.updateLink conn (· + n)).updateSocket conn fun s =>
        { s with writer := some (tasks ++ [.data (data.take n)]) })

/-- Close a connection: what was written before still goes out. -/
def close (c : Connections) (conn : Nat) : Except TransportError Unit × Connections :=
  if (c.inFlight? conn).isNone then (.error .unknownConnection, c)
  else
    (.ok (), { c with links := c.links.filter fun (id, _) => id != conn }.updateSocket conn fun s =>
      { writer := s.writer.map (· ++ [WriterTask.shutdown]), reading := false })

def listen (c : Connections) (port : Nat) : Except TransportError Unit × Connections :=
  match c.network.bind port with
  | .error reason => (.error (.listen port reason), c)
  | .ok bound => (.ok (), { c with address := some bound, accepting := true })

instance : Transport Connections Nat where
  capacity := capacity
  write := write
  close := close
  listen := listen
  stopListening c := { c with accepting := false }

/-- The writer of a socket carries out its next task. -/
def flushNext (c : Connections) (conn : Nat) : List Event × Connections :=
  match (c.socket? conn).bind Socket.writer with
  | some (.data bytes :: tasks) =>
    ([.sent conn bytes.length], c.updateSocket conn fun s => { s with writer := some tasks })
  | some (.shutdown :: _) => ([], c.updateSocket conn fun s => { s with writer := none })
  | _ => ([], c)

/-- The writer of a socket fails at its next bytes and stops. -/
def breakWriter (c : Connections) (conn : Nat) : List Event × Connections :=
  match (c.socket? conn).bind Socket.writer with
  | some (.data _ :: _) => ([.failed conn], c.updateSocket conn fun s => { s with writer := none })
  | _ => ([], c)

/-- The most bytes that a reader reports at once. -/
def readChunk : Nat := 2048

/-- The pieces of at most `readChunk` bytes, of which there are at most `fuel`. -/
def pieces : (fuel : Nat) → Bytes → List Bytes
  | 0, _ => []
  | fuel + 1, data =>
    if data.isEmpty then [] else data.take readChunk :: pieces fuel (data.drop readChunk)

def arrive (c : Connections) (conn : Nat) (data : Bytes) : List Event :=
  if (c.socket? conn).any (·.reading) then
    (pieces data.length data).map fun piece => .received conn piece
  else []

/-- A reader reports the end of its stream, or that the connection broke, and stops. -/
def endReader (c : Connections) (conn : Nat) (broken : Bool) : List Event × Connections :=
  if (c.socket? conn).any (·.reading) then
    ([if broken then .failed conn else .remoteClosed conn],
      c.updateSocket conn fun s => { s with reading := false })
  else ([], c)

end Connections
end WebServer.Host
