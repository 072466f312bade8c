import WebServer.Outbound
import WebServer.Session.Handle
import WebServer.Session.Mode

/-! # Sessions -/

namespace WebServer

/-- What a WebSocket message carries. -/
inductive MessageKind where
  | text
  | binary
deriving DecidableEq, Repr

/-- The beginning of a message that comes in several frames. -/
structure Fragment where
  kind : MessageKind
  data : Bytes
deriving DecidableEq, Repr

/-- The state of one accepted connection. -/
structure Session (κ : Type) where
  handle : Handle
  conn : κ
  /-- Bytes received that are not part of a complete message yet. -/
  inbound : Bytes := []
  mode : Mode := .http
  outbound : OutboundQueue := {}
  /-- The time of the last activity, in milliseconds. -/
  lastActivity : Nat
  /-- Closing: the connection ends when the queue has drained. -/
  closing : Bool := false
  closed : Bool := false
  /-- The closing frame of this side has been queued. -/
  closeSent : Bool := false
  fragment : Option Fragment := none
deriving DecidableEq, Repr

namespace Session

variable {κ : Type}

/-- The session of a connection accepted at time `now`. -/
def accepted (handle : Handle) (conn : κ) (now : Nat) : Session κ :=
  { handle, conn, lastActivity := now }

/-- Whether a close has begun. -/
def isEnding (s : Session κ) : Bool :=
  s.closeSent || s.closing

/-- Whether the application may queue output. -/
def acceptsOutput (s : Session κ) : Bool :=
  !s.closing && !s.closed && !s.closeSent

/-- Note that the peer was active; once a close has begun this no longer counts. -/
def touch (now : Nat) (s : Session κ) : Session κ :=
  if s.isEnding then s else { s with lastActivity := now }

/-- Note that output was acknowledged; once the closing frame is queued this no longer counts. -/
def touchSent (now : Nat) (s : Session κ) : Session κ :=
  if s.closeSent then s else { s with lastActivity := now }

end Session
end WebServer
