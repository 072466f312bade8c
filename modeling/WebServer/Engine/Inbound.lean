import WebServer.Engine.Closing
import WebServer.WebSocket.Handshake

/-! # Inbound messages

Taking the next message off the bytes that a session has received. What the engine can answer itself, it
answers; what is meant for the application is handed over. -/

namespace WebServer

/-- The outcome of taking a message off the received bytes. -/
inductive Delivery where
  /-- No complete message is left, or none that can be read. -/
  | wait
  /-- A message was dealt with; there may be another one. -/
  | again
  | request (r : Http.Request)
  | text (message : String)
  | binary (message : Bytes)

namespace Engine

variable {τ κ σ : Type} [DecidableEq κ] [Transport τ κ]

def clearInbound (e : Engine τ κ σ) (h : Handle) : Engine τ κ σ :=
  e.update h fun s => { s with inbound := [] }

def dropInbound (e : Engine τ κ σ) (h : Handle) (count : Nat) : Engine τ κ σ :=
  e.update h fun s => { s with inbound := s.inbound.drop count }

/-- Answer a request for an upgrade; the bytes behind it are frames from now on. -/
def upgrade (e : Engine τ κ σ) (h : Handle) (r : Http.Request) : Engine τ κ σ :=
  match WebSocket.upgradeResponse r with
  | .error _ => e.replyAndClose h Http.Response.badRequest
  | .ok response =>
    match e.enqueue h response with
    | (.error _, e) => e
    | (.ok _, e) =>
      ((e.update h fun s => { s with mode := .webSocket }).notify h .upgraded).flush h

def nextRequest (e : Engine τ κ σ) (h : Handle) (s : Session κ) : Delivery × Engine τ κ σ :=
  let limit := e.config.maxRequestBytes
  match Http.Head.read limit s.inbound with
  | .notYet =>
    if limit < s.inbound.length then
      (.wait, (e.clearInbound h).replyAndClose h Http.Response.payloadTooLarge)
    else (.wait, e)
  | .failed (.tooLarge ..) =>
    (.wait, (e.clearInbound h).replyAndClose h Http.Response.payloadTooLarge)
  | .failed _ => (.wait, (e.clearInbound h).replyAndClose h Http.Response.badRequest)
  | .ready head =>
    let r : Http.Request := { raw := s.inbound.take head.totalLength, head }
    let e := e.dropInbound h head.totalLength
    if r.isUpgrade then (.again, e.upgrade h r) else (.request r, e)

/-- Hand over a complete message; text has to be UTF-8. -/
def deliver (e : Engine τ κ σ) (h : Handle) (kind : MessageKind) (data : Bytes) :
    Delivery × Engine τ κ σ :=
  match kind with
  | .binary => (.binary data, e)
  | .text =>
    match Text.ofUtf8? data with
    | some text => (.text text, e)
    | none => (.again, e.failWebSocket h .invalidPayload "invalid UTF-8")

/-- Begin a message, which the first frame may complete. -/
def beginMessage (e : Engine τ κ σ) (h : Handle) (s : Session κ) (kind : MessageKind)
    (fin : Bool) (payload : Bytes) : Delivery × Engine τ κ σ :=
  if s.fragment.isSome then (.again, e.failWebSocket h .protocolError "expected continuation")
  else if fin then e.deliver h kind payload
  else (.again, e.update h fun s => { s with fragment := some ⟨kind, payload⟩ })

/-- Continue the message that has begun. -/
def continueMessage (e : Engine τ κ σ) (h : Handle) (s : Session κ) (fin : Bool)
    (payload : Bytes) : Delivery × Engine τ κ σ :=
  match s.fragment with
  | none => (.again, e.failWebSocket h .protocolError "unexpected continuation")
  | some fragment =>
    let data := fragment.data ++ payload
    if e.config.maxRequestBytes < data.length then
      (.again, (e.update h fun s => { s with fragment := none }).failWebSocket h .messageTooBig
        "message too big")
    else if fin then
      (e.update h fun s => { s with fragment := none }).deliver h fragment.kind data
    else (.again, e.update h fun s => { s with fragment := some ⟨fragment.kind, data⟩ })

/-- The code with which a closing frame of the peer is answered. -/
def answerCode (payload : Bytes) : WebSocket.CloseCode :=
  match WebSocket.closeCode? payload with
  | some code => .other code
  | none => .normal

def dispatchFrame (e : Engine τ κ σ) (h : Handle) (s : Session κ)
    (header : WebSocket.FrameHeader) (payload : Bytes) : Delivery × Engine τ κ σ :=
  if header.rsv ≠ 0 then (.again, e.failWebSocket h .protocolError "reserved bits set")
  else
    match header.opcode with
    | .text => e.beginMessage h s .text header.fin payload
    | .binary => e.beginMessage h s .binary header.fin payload
    | .continuation => e.continueMessage h s header.fin payload
    | .ping =>
      if s.acceptsOutput then
        (.again, (e.enqueue h (WebSocket.encode .pong payload none)).2.flush h)
      else (.again, e)
    | .pong => (.again, e)
    | .close => (.again, (e.sendClose h (answerCode payload) "").beginClose h)
    | .reserved _ => (.again, e.failWebSocket h .protocolError "reserved opcode")

def nextFrame (e : Engine τ κ σ) (h : Handle) (s : Session κ) : Delivery × Engine τ κ σ :=
  match WebSocket.decode e.config.maxRequestBytes s.inbound with
  | .notYet => (.wait, e)
  -- The reader faults, which leaves everything as it is: nothing is cleared, nothing is sent and nothing is closed.
  | .failed (.unaddressable _) => (.wait, e)
  | .failed err => (.wait, (e.clearInbound h).failWebSocket h .messageTooBig err.message)
  | .ready (header, unmasked) =>
    (e.dropInbound h header.frameLength).dispatchFrame h s header (header.payload unmasked)

/-- Take the next message off the bytes of a session. -/
def next (e : Engine τ κ σ) (h : Handle) : Delivery × Engine τ κ σ :=
  match e.session? h with
  | none => (.wait, e)
  | some s =>
    if s.closing || s.inbound.isEmpty then (.wait, e)
    else
      match s.mode with
      | .http => e.nextRequest h s
      | .webSocket => e.nextFrame h s

end Engine
end WebServer
