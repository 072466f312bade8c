import WebServer.Engine.Output
import WebServer.Http.Response

/-! # Closing

A session that closes first drains its queue; a WebSocket session also exchanges closing frames. -/

namespace WebServer.Engine

variable {τ κ σ : Type} [DecidableEq κ] [Transport τ κ]

/-- Remove a session without a word to the transport. -/
def retire (e : Engine τ κ σ) (h : Handle) : Engine τ κ σ :=
  match e.registry.remove h with
  | (none, registry) => { e with registry }
  | (some _, registry) => { e with registry }.notify h .closed

/-- Close the connection of a session and remove it, with what it still has queued. -/
def forceClose (e : Engine τ κ σ) (h : Handle) : Engine τ κ σ :=
  match e.session? h with
  | none => e
  | some s =>
    let (_, transport) := Transport.close e.transport s.conn
    ({ e with transport }.record (.closed h s.conn)).retire h

/-- End a closing session whose queue has drained. -/
def finishClose (e : Engine τ κ σ) (h : Handle) : Engine τ κ σ :=
  match e.session? h with
  | none => e
  | some s => if s.closing && s.outbound.isEmpty then e.forceClose h else e

/-- Begin to close a session: it receives nothing more and ends once its queue has drained. -/
def beginClose (e : Engine τ κ σ) (h : Handle) : Engine τ κ σ :=
  match e.session? h with
  | none => e
  | some s =>
    let e :=
      if s.closing then e
      else e.update h fun s => { s with
        closing := true, inbound := [],
        lastActivity := if s.closeSent then s.lastActivity else e.now }
    (e.flush h).finishClose h

/-- Queue the closing frame of this side, unless that is done. -/
def sendClose (e : Engine τ κ σ) (h : Handle) (code : WebSocket.CloseCode) (reason : String) :
    Engine τ κ σ :=
  match e.session? h with
  | none => e
  | some s =>
    if s.closeSent then e
    else
      match e.enqueue h (WebSocket.encode .close (WebSocket.closePayload code reason) none) with
      | (.error _, e) => e
      | (.ok _, e) =>
        (e.update h fun s => { s with closeSent := true, lastActivity := e.now }).flush h

/-- Queue the closing frame and close without waiting for the peer. -/
def failWebSocket (e : Engine τ κ σ) (h : Handle) (code : WebSocket.CloseCode) (reason : String) :
    Engine τ κ σ :=
  (e.sendClose h code reason).beginClose h

/-- Queue a last response and close. -/
def replyAndClose (e : Engine τ κ σ) (h : Handle) (response : Bytes) : Engine τ κ σ :=
  (e.enqueue h response).2.beginClose h

/-- Close a session: a WebSocket session sends its closing frame, any other drains its queue. -/
def close (e : Engine τ κ σ) (h : Handle) : Except ServerError Unit × Engine τ κ σ :=
  match e.session? h with
  | none => (.error (.handleNotFound h), e)
  | some s =>
    match s.mode with
    | .webSocket => (.ok (), if s.isEnding then e else e.sendClose h .normal "")
    | .http => (.ok (), e.beginClose h)

end WebServer.Engine
