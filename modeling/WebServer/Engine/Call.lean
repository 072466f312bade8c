import WebServer.Engine.Events
import WebServer.Engine.Idle
import WebServer.StaticFiles

/-! # Calls

The operations of the engine as data. Received bytes are not among them, because only a server can hand
messages to handlers. -/

namespace WebServer

/-- An operation of the engine. -/
inductive Call (τ κ σ : Type) where
  | accept (conn : κ)
  | sent (conn : κ) (count : Nat)
  | remoteClosed (conn : κ)
  | failed (conn : κ)
  | pollConn (conn : κ)
  | poll
  | send (h : Handle) (data : Bytes)
  | sendMessage (h : Handle) (text : String)
  | sendBinary (h : Handle) (data : Bytes)
  | broadcast (text : String)
  | serve (files : StaticFiles) (h : Handle) (r : Http.Request)
  | close (h : Handle)
  | start
  | stop
  | advance (millis : Nat)
  | watch (watcher : Handle → Notice → σ → σ)
  | inspect
  | setTransport (transport : τ)
  | setApp (app : σ)

/-- What a call answers. -/
def Call.Result {τ κ σ : Type} : Call τ κ σ → Type
  | .accept _ => Option Handle
  | .send .. | .sendMessage .. | .sendBinary .. | .close _ | .start => Except ServerError Unit
  | .serve .. => Except ServerError Bool
  | .broadcast _ => Nat
  | .inspect => Engine τ κ σ
  | _ => Unit

def Engine.perform {τ κ σ : Type} [DecidableEq κ] [Transport τ κ] (e : Engine τ κ σ) :
    (c : Call τ κ σ) → c.Result × Engine τ κ σ
  | .accept conn => e.accept conn
  | .sent conn count => ((), e.sent conn count)
  | .remoteClosed conn => ((), e.remoteClosed conn)
  | .failed conn => ((), e.failed conn)
  | .pollConn conn => ((), e.pollConn conn)
  | .poll => ((), e.poll)
  | .send h data => e.send h data
  | .sendMessage h text => e.sendMessage h text
  | .sendBinary h data => e.sendBinary h data
  | .broadcast text => e.broadcast text
  | .serve files h r => e.serve files h r
  | .close h => e.close h
  | .start => e.start
  | .stop => ((), e.stop)
  | .advance millis => ((), { e with clock := e.clock.advance millis })
  | .watch watcher => ((), { e with watcher := some watcher })
  | .inspect => (e, e)
  | .setTransport transport => ((), { e with transport })
  | .setApp app => ((), { e with app })

end WebServer
