import WebServer.Clock
import WebServer.Config
import WebServer.Http.Request
import WebServer.Registry
import WebServer.Transport

/-! # The engine

Everything of a server but its handlers: the sessions, the transport below them, the clock, and the state of
the application above. A journal keeps what the engine did, newest entry first. -/

namespace WebServer

/-- Something the engine did. -/
inductive Entry (κ : Type) where
  | accepted (h : Handle) (conn : κ)
  | queued (h : Handle) (data : Bytes)
  /-- A chunk of a session was offered to the transport. -/
  | wrote (h : Handle) (conn : κ) (chunk : Bytes) (outcome : Except TransportError Nat)
  /-- Bytes that the transport did not take were refused by the queue of their session. -/
  | lost (h : Handle) (rest : Bytes) (error : OutboundError)
  | closed (h : Handle) (conn : κ)
  | notice (h : Handle) (n : Notice)
  | request (h : Handle) (r : Http.Request)
  | text (h : Handle) (message : String)
  | binary (h : Handle) (message : Bytes)

/-- The state of a server without its handlers, over a transport `τ` with connections `κ` and an
application with state `σ`. -/
structure Engine (τ κ σ : Type) where
  config : Config
  clock : Clock := {}
  transport : τ
  registry : Registry κ
  listening : Bool := false
  app : σ
  /-- What the application does about a notice. -/
  watcher : Option (Handle → Notice → σ → σ) := none
  journal : List (Entry κ) := []

/-- Why the engine refuses an operation of the application. -/
inductive ServerError where
  | handleNotFound (h : Handle)
  /-- The session takes no more output. -/
  | sessionClosing (h : Handle)
  /-- The session speaks another protocol. -/
  | notWebSocket (h : Handle)
  | transport (e : TransportError)
  | outbound (e : OutboundError)
deriving DecidableEq, Repr

def ServerError.code : ServerError → String
  | .handleNotFound _ => "HandleNotFound"
  | .sessionClosing _ => "SessionClosing"
  | .notWebSocket _ => "NotWebSocket"
  | .transport _ => "Transport"
  | .outbound _ => "Outbound"

def ServerError.message : ServerError → String
  | .handleNotFound h => "Session " ++ h.text ++ " not found"
  | .sessionClosing h => "Session " ++ h.text ++ " is closing"
  | .notWebSocket h => "Session " ++ h.text ++ " is not a WebSocket"
  | .transport e => "Transport error: " ++ e.message
  | .outbound e => "Outbound queue error: " ++ e.message

namespace Engine

variable {τ κ σ : Type} [DecidableEq κ]

def new (config : Config) (transport : τ) (app : σ) : Engine τ κ σ :=
  { config, transport, app, registry := .new config.maxSessions }

def now (e : Engine τ κ σ) : Nat := e.clock.millis

def session? (e : Engine τ κ σ) (h : Handle) : Option (Session κ) :=
  e.registry.get? h

/-- Whether a handle names a live session that is not closing. -/
def isOpen (e : Engine τ κ σ) (h : Handle) : Bool :=
  (e.session? h).any (!·.closing)

def update (e : Engine τ κ σ) (h : Handle) (f : Session κ → Session κ) : Engine τ κ σ :=
  { e with registry := e.registry.update h f }

def record (e : Engine τ κ σ) (entry : Entry κ) : Engine τ κ σ :=
  { e with journal := entry :: e.journal }

/-- Deliver a notice to the application, if it watches. -/
def notify (e : Engine τ κ σ) (h : Handle) (n : Notice) : Engine τ κ σ :=
  match e.watcher with
  | none => e
  | some watch => { e.record (.notice h n) with app := watch h n e.app }

/-- What the engine did, oldest first. -/
def trace (e : Engine τ κ σ) : List (Entry κ) :=
  e.journal.reverse

end Engine
end WebServer
