import WebServer.Bytes

/-! # Outbound queues

A queue of buffers on their way to a transport. Every buffer counts the bytes handed out and the bytes
acknowledged, with `acknowledged ≤ sent ≤ size`, and leaves the queue when all of it is acknowledged. -/

namespace WebServer

/-- Why a queue refuses an operation. -/
inductive OutboundError where
  /-- Empty buffers are not queued. -/
  | empty
  /-- Nothing has been handed out that could be rolled back. -/
  | nothingSent
  /-- More bytes are rolled back than are unacknowledged. -/
  | requeueExceedsSent (requested available : Nat)
  /-- The bytes rolled back are not those handed out. -/
  | requeueMismatch (length : Nat)
deriving DecidableEq, Repr

def OutboundError.code : OutboundError → String
  | .empty => "Empty"
  | .nothingSent => "NothingSent"
  | .requeueExceedsSent .. => "RequeueExceedsSent"
  | .requeueMismatch _ => "RequeueMismatch"

def OutboundError.message : OutboundError → String
  | .empty => "Refusing to queue an empty buffer"
  | .nothingSent => "Nothing in flight to requeue"
  | .requeueExceedsSent requested available =>
    toString requested ++ " bytes to requeue exceeds " ++ toString available ++
      " unacknowledged bytes"
  | .requeueMismatch length => "Buffer mismatch, " ++ toString length ++ " bytes not requeued"

/-- A queued buffer with its two cursors. -/
structure OutboundBuffer where
  data : Bytes
  /-- Bytes handed out. -/
  sent : Nat := 0
  /-- Bytes acknowledged. -/
  acknowledged : Nat := 0
deriving DecidableEq, Repr

namespace OutboundBuffer

def size (b : OutboundBuffer) : Nat := b.data.length

/-- Bytes not handed out yet. -/
def unsent (b : OutboundBuffer) : Nat := b.size - b.sent

/-- Bytes handed out and not acknowledged. -/
def inFlight (b : OutboundBuffer) : Nat := b.sent - b.acknowledged

/-- Move the sent cursor back over the bytes of `chunk`. -/
def rollBack (chunk : Bytes) (b : OutboundBuffer) : Except OutboundError OutboundBuffer :=
  if b.inFlight < chunk.length then .error (.requeueExceedsSent chunk.length b.inFlight)
  else
    let start := b.sent - chunk.length
    if (b.data.drop start).take chunk.length = chunk then .ok { b with sent := start }
    else .error (.requeueMismatch chunk.length)

end OutboundBuffer

/-- The buffers of a session in the order of queueing, and how many have been released so far. -/
structure OutboundQueue where
  buffers : List OutboundBuffer := []
  released : Nat := 0
deriving DecidableEq, Repr

namespace OutboundQueue

def new : OutboundQueue := {}

def enqueue (data : Bytes) (q : OutboundQueue) : Except OutboundError OutboundQueue :=
  if data.isEmpty then .error .empty
  else .ok { q with buffers := q.buffers ++ [⟨data, 0, 0⟩] }

/-- Hand out at most `most` bytes of the first buffer that has unsent bytes. -/
def takeFrom (most : Nat) : List OutboundBuffer → Option (Bytes × List OutboundBuffer)
  | [] => none
  | b :: bs =>
    if 0 < b.unsent then
      let n := min b.unsent most
      some ((b.data.drop b.sent).take n, { b with sent := b.sent + n } :: bs)
    else
      (takeFrom most bs).map fun (chunk, bs) => (chunk, b :: bs)

/-- Hand out the next unsent bytes, at most `most` of them. -/
def nextChunk (most : Nat) (q : OutboundQueue) : Option (Bytes × OutboundQueue) :=
  if most = 0 then none
  else (takeFrom most q.buffers).map fun (chunk, bs) => (chunk, { q with buffers := bs })

/-- Roll back a chunk in the last buffer that has sent bytes. -/
def requeueIn (chunk : Bytes) : List OutboundBuffer → Except OutboundError (List OutboundBuffer)
  | [] => .error .nothingSent
  | b :: bs =>
    match requeueIn chunk bs with
    | .ok bs => .ok (b :: bs)
    | .error .nothingSent =>
      if 0 < b.sent then (b.rollBack chunk).map (· :: bs) else .error .nothingSent
    | .error e => .error e

/-- Take back bytes that were handed out last and that the transport refused. -/
def requeue (chunk : Bytes) (q : OutboundQueue) : Except OutboundError OutboundQueue :=
  (requeueIn chunk q.buffers).map fun bs => { q with buffers := bs }

/-- Spread an acknowledgement over the buffers from the head, releasing those it completes. -/
def acknowledgeIn : (count : Nat) → List OutboundBuffer → Nat × List OutboundBuffer
  | _, [] => (0, [])
  | count, b :: bs =>
    let n := min count b.inFlight
    if b.acknowledged + n = b.size then
      let (released, bs) := acknowledgeIn (count - n) bs
      (released + 1, bs)
    else (0, { b with acknowledged := b.acknowledged + n } :: bs)

/-- Acknowledge `count` bytes, as far as they have been handed out; gives the number of buffers released. -/
def acknowledge (count : Nat) (q : OutboundQueue) : Nat × OutboundQueue :=
  let (released, bs) := acknowledgeIn count q.buffers
  (released, { q with buffers := bs, released := q.released + released })

/-- Drop every buffer; gives their number. -/
def clear (q : OutboundQueue) : Nat × OutboundQueue :=
  (q.buffers.length, { q with buffers := [] })

/-- The sum of a number over buffers. -/
def total (number : OutboundBuffer → Nat) : List OutboundBuffer → Nat
  | [] => 0
  | b :: bs => number b + total number bs

def length (q : OutboundQueue) : Nat := q.buffers.length

/-- Whether no buffer waits to be sent or acknowledged. -/
def isEmpty (q : OutboundQueue) : Bool := q.buffers.isEmpty

def unsent (q : OutboundQueue) : Nat := total OutboundBuffer.unsent q.buffers

def inFlight (q : OutboundQueue) : Nat := total OutboundBuffer.inFlight q.buffers

end OutboundQueue
end WebServer
