import WebServer.Engine.Basic
import WebServer.WebSocket.Frame

/-! # Output

Buffers are queued on a session and offered to the transport in chunks, until the queue or the send window
is used up. Bytes that the transport does not take go back to the queue. -/

namespace WebServer

/-- A queue on its way to a transport, and the journal of the way. -/
structure Outflow (τ κ : Type) where
  transport : τ
  queue : OutboundQueue
  journal : List (Entry κ)

namespace Outflow

variable {τ κ : Type} [Transport τ κ]

/-- Give bytes back to the queue. -/
def takeBack (h : Handle) (o : Outflow τ κ) (rest : Bytes) : Outflow τ κ :=
  match o.queue.requeue rest with
  | .ok queue => { o with queue }
  | .error error => { o with journal := .lost h rest error :: o.journal }

/-- Offer the next chunk, and tell whether the transport may take another one. -/
def offer (h : Handle) (conn : κ) (segment : Nat) (o : Outflow τ κ) : Bool × Outflow τ κ :=
  match o.queue.nextChunk (min (Transport.capacity o.transport conn) segment) with
  | none => (false, o)
  | some (chunk, queue) =>
    let (outcome, transport) := Transport.write o.transport conn chunk
    let o : Outflow τ κ :=
      { transport, queue, journal := .wrote h conn chunk outcome :: o.journal }
    match outcome with
    | .ok taken => if chunk.length ≤ taken then (true, o) else (false, o.takeBack h (chunk.drop taken))
    | .error _ => (false, o.takeBack h chunk)

/-- Offer chunks while the transport takes them, at most `fuel` of them. -/
def offerLoop (h : Handle) (conn : κ) (segment : Nat) : (fuel : Nat) → Outflow τ κ → Outflow τ κ
  | 0, o => o
  | fuel + 1, o =>
    match o.offer h conn segment with
    | (true, o) => offerLoop h conn segment fuel o
    | (false, o) => o

/-- Offer chunks while the transport takes them; every chunk holds a byte at least. -/
def drain (h : Handle) (conn : κ) (segment : Nat) (o : Outflow τ κ) : Outflow τ κ :=
  offerLoop h conn segment o.queue.unsent o

end Outflow

namespace Engine

variable {τ κ σ : Type} [DecidableEq κ] [Transport τ κ]

/-- Offer the queued bytes of a session to the transport. -/
def flush (e : Engine τ κ σ) (h : Handle) : Engine τ κ σ :=
  match e.session? h with
  | none => e
  | some s =>
    let o : Outflow τ κ := Outflow.drain h s.conn e.config.maxSegmentSize
      { transport := e.transport, queue := s.outbound, journal := e.journal }
    { e with
      transport := o.transport, journal := o.journal,
      registry := e.registry.update h fun s => { s with outbound := o.queue } }

/-- Queue a buffer on a session, whatever its state. -/
def enqueue (e : Engine τ κ σ) (h : Handle) (data : Bytes) :
    Except ServerError Unit × Engine τ κ σ :=
  match e.session? h with
  | none => (.error (.handleNotFound h), e)
  | some s =>
    match s.outbound.enqueue data with
    | .error err => (.error (.outbound err), e)
    | .ok queue =>
      (.ok (), (e.record (.queued h data)).update h fun s => { s with outbound := queue })

/-- Send bytes on a session that takes output. -/
def send (e : Engine τ κ σ) (h : Handle) (data : Bytes) :
    Except ServerError Unit × Engine τ κ σ :=
  match e.session? h with
  | none => (.error (.handleNotFound h), e)
  | some s =>
    if !s.acceptsOutput then (.error (.sessionClosing h), e)
    else
      match e.enqueue h data with
      | (.error err, e) => (.error err, e)
      | (.ok _, e) => (.ok (), e.flush h)

def sendFrame (e : Engine τ κ σ) (h : Handle) (opcode : WebSocket.Opcode) (payload : Bytes) :
    Except ServerError Unit × Engine τ κ σ :=
  match (e.session? h).map Session.mode with
  | none => (.error (.handleNotFound h), e)
  | some .http => (.error (.notWebSocket h), e)
  | some .webSocket => e.send h (WebSocket.encode opcode payload none)

def sendMessage (e : Engine τ κ σ) (h : Handle) (text : String) :
    Except ServerError Unit × Engine τ κ σ :=
  e.sendFrame h .text (Text.utf8 text)

def sendBinary (e : Engine τ κ σ) (h : Handle) (data : Bytes) :
    Except ServerError Unit × Engine τ κ σ :=
  e.sendFrame h .binary data

/-- The sessions that a broadcast reaches. -/
def audience (e : Engine τ κ σ) : List Handle :=
  (e.registry.sessions.filter fun s => s.mode = .webSocket && s.acceptsOutput).map Session.handle

/-- Send a text message to the given sessions, and count those it was queued on. -/
def sendToAll (text : String) : List Handle → Engine τ κ σ → Nat × Engine τ κ σ
  | [], e => (0, e)
  | h :: hs, e =>
    let (outcome, e) := e.sendMessage h text
    let (count, e) := sendToAll text hs e
    (if outcome.isOk then count + 1 else count, e)

/-- Send a text message to every open WebSocket session, and count them. -/
def broadcast (e : Engine τ κ σ) (text : String) : Nat × Engine τ κ σ :=
  sendToAll text e.audience e

end Engine
end WebServer
