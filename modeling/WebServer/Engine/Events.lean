import WebServer.Engine.Closing

/-! # Events of the transport

What happens to a connection, bytes received apart. -/

namespace WebServer.Engine

variable {τ κ σ : Type} [DecidableEq κ] [Transport τ κ]

/-- A connection was accepted; gives no handle if it is refused. -/
def accept (e : Engine τ κ σ) (conn : κ) : Option Handle × Engine τ κ σ :=
  match e.registry.create conn e.now with
  | (.ok h, registry) => (some h, ({ e with registry }.record (.accepted h conn)).notify h .opened)
  | (.error _, registry) => (none, { e with registry })

/-- Bytes of a connection were acknowledged. -/
def sent (e : Engine τ κ σ) (conn : κ) (count : Nat) : Engine τ κ σ :=
  match e.registry.ofConn? conn with
  | none => e
  | some s =>
    let e := e.update s.handle fun s =>
      { s with outbound := (s.outbound.acknowledge count).2 }.touchSent e.now
    (e.flush s.handle).finishClose s.handle

def remoteClosed (e : Engine τ κ σ) (conn : κ) : Engine τ κ σ :=
  match e.registry.handleOf? conn with
  | none => e
  | some h => e.forceClose h

/-- The transport gave up a connection. -/
def failed (e : Engine τ κ σ) (conn : κ) : Engine τ κ σ :=
  match e.registry.handleOf? conn with
  | none => e
  | some h => e.retire h

def start (e : Engine τ κ σ) : Except ServerError Unit × Engine τ κ σ :=
  match Transport.listen e.transport e.config.port with
  | (.error err, transport) => (.error (.transport err), { e with transport })
  | (.ok _, transport) => (.ok (), { e with transport, listening := true })

/-- Stop to listen and end every session. -/
def stop (e : Engine τ κ σ) : Engine τ κ σ :=
  let e :=
    if e.listening then
      { e with transport := Transport.stopListening e.transport, listening := false }
    else e
  e.registry.liveHandles.foldl forceClose e

end WebServer.Engine
