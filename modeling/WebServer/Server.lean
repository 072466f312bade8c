import WebServer.Engine.Call
import WebServer.Engine.Inbound

/-! # Servers

A server is an engine with the handlers of an application. A handler is a program of calls, each of which
may depend on the answers to those before it. -/

namespace WebServer

/-- What a handler of requests reports. -/
structure Reply where
  /-- The handler has answered the request. -/
  handled : Bool := false
  /-- The connection stays open after the answer. -/
  keepOpen : Bool := false
deriving DecidableEq, Repr

/-- What a handler does. -/
inductive Program (τ κ σ : Type) where
  | done (reply : Reply)
  /-- Carry out a call and go on with its answer. -/
  | call (c : Call τ κ σ) (next : c.Result → Program τ κ σ)
  /-- Hand over bytes of a connection and go on with their number. -/
  | receive (conn : κ) (data : Bytes) (next : Nat → Program τ κ σ)
  | onRequest (handler : Handle → Http.Request → Program τ κ σ) (next : Program τ κ σ)
  | onMessage (handler : Handle → String → Program τ κ σ) (next : Program τ κ σ)
  | onBinary (handler : Handle → Bytes → Program τ κ σ) (next : Program τ κ σ)

/-- The handlers of an application. -/
structure Handlers (τ κ σ : Type) where
  request : Option (Handle → Http.Request → Program τ κ σ) := none
  message : Option (Handle → String → Program τ κ σ) := none
  binary : Option (Handle → Bytes → Program τ κ σ) := none

/-- An engine with the handlers of its application. -/
structure Server (τ κ σ : Type) where
  engine : Engine τ κ σ
  handlers : Handlers τ κ σ := {}

namespace Server

variable {τ κ σ : Type} [DecidableEq κ] [Transport τ κ]

def new (config : Config) (transport : τ) (app : σ) : Server τ κ σ :=
  { engine := .new config transport app }

/-- How the programs of handlers are run. -/
abbrev Runner (τ κ σ : Type) := Program τ κ σ → Server τ κ σ → Reply × Server τ κ σ

/-- Act on the report of a request handler: a request that was not handled is answered with
`404 Not Found`, and the connection closes unless it is kept open. -/
def conclude (h : Handle) (reply : Reply) (s : Server τ κ σ) : Server τ κ σ :=
  match s.engine.session? h with
  | none => s
  | some session =>
    if !reply.handled then
      if session.closing then s
      else { s with engine := s.engine.replyAndClose h Http.Response.notFound }
    else if reply.keepOpen then { s with engine := s.engine.flush h }
    else { s with engine := s.engine.beginClose h }

/-- Hand a request to its handler. While a handler runs its place is empty; afterwards it takes its place
again, unless another handler was installed. -/
def handleRequest (run : Runner τ κ σ) (h : Handle) (r : Http.Request) (s : Server τ κ σ) :
    Server τ κ σ :=
  match s.handlers.request with
  | none => s.conclude h {}
  | some handler =>
    let s := { s with
      engine := s.engine.record (.request h r), handlers := { s.handlers with request := none } }
    let (reply, s) := run (handler h r) s
    let s := { s with
      handlers := { s.handlers with request := s.handlers.request.or (some handler) } }
    s.conclude h reply

/-- Hand a text message to its handler; without one it is dropped. -/
def handleMessage (run : Runner τ κ σ) (h : Handle) (text : String) (s : Server τ κ σ) :
    Server τ κ σ :=
  match s.handlers.message with
  | none => s
  | some handler =>
    let s := { s with
      engine := s.engine.record (.text h text), handlers := { s.handlers with message := none } }
    let (_, s) := run (handler h text) s
    { s with handlers := { s.handlers with message := s.handlers.message.or (some handler) } }

/-- Hand a binary message to its handler; without one it is dropped. -/
def handleBinary (run : Runner τ κ σ) (h : Handle) (data : Bytes) (s : Server τ κ σ) :
    Server τ κ σ :=
  match s.handlers.binary with
  | none => s
  | some handler =>
    let s := { s with
      engine := s.engine.record (.binary h data), handlers := { s.handlers with binary := none } }
    let (_, s) := run (handler h data) s
    { s with handlers := { s.handlers with binary := s.handlers.binary.or (some handler) } }

/-- Deal with the messages that a session has received, at most `fuel` of them. -/
def dispatchLoop (run : Runner τ κ σ) (h : Handle) : (fuel : Nat) → Server τ κ σ → Server τ κ σ
  | 0, s => s
  | fuel + 1, s =>
    match s.engine.next h with
    | (.wait, engine) => { s with engine }
    | (.again, engine) => dispatchLoop run h fuel { s with engine }
    | (.request r, engine) => dispatchLoop run h fuel (handleRequest run h r { s with engine })
    | (.text text, engine) => dispatchLoop run h fuel (handleMessage run h text { s with engine })
    | (.binary data, engine) => dispatchLoop run h fuel (handleBinary run h data { s with engine })

/-- Take bytes of a connection and deal with every message they complete; gives the number of bytes. A
message has a byte at least. -/
def receiveBy (run : Runner τ κ σ) (conn : κ) (data : Bytes) (s : Server τ κ σ) :
    Nat × Server τ κ σ :=
  match s.engine.registry.ofConn? conn with
  | none => (0, s)
  | some session =>
    if session.closing then (data.length, s)
    else
      let engine := s.engine.update session.handle fun t =>
        { t with inbound := t.inbound ++ data }.touch s.engine.now
      (data.length,
        dispatchLoop run session.handle (session.inbound.length + data.length + 1)
          { s with engine })

/-- Run a program, given how bytes are received. -/
def runBy (receive : κ → Bytes → Server τ κ σ → Nat × Server τ κ σ) :
    Program τ κ σ → Server τ κ σ → Reply × Server τ κ σ
  | .done reply, s => (reply, s)
  | .call c next, s =>
    let (answer, engine) := s.engine.perform c
    runBy receive (next answer) { s with engine }
  | .receive conn data next, s =>
    let (count, s) := receive conn data s
    runBy receive (next count) s
  | .onRequest handler next, s =>
    runBy receive next { s with handlers := { s.handlers with request := some handler } }
  | .onMessage handler next, s =>
    runBy receive next { s with handlers := { s.handlers with message := some handler } }
  | .onBinary handler next, s =>
    runBy receive next { s with handlers := { s.handlers with binary := some handler } }

/-- Receive bytes when at most `depth` receives may be under way inside each other. -/
def receiveWithin : (depth : Nat) → κ → Bytes → Server τ κ σ → Nat × Server τ κ σ
  | 0, _, _, s => (0, s)
  | depth + 1, conn, data, s => receiveBy (runBy (receiveWithin depth)) conn data s

/-- How many receives may be under way inside each other. -/
def receiveDepth : Nat := 1000

/-- Bytes of a connection arrived: deal with every message they complete, and give their number. -/
def receive (conn : κ) (data : Bytes) (s : Server τ κ σ) : Nat × Server τ κ σ :=
  receiveWithin receiveDepth conn data s

def run (p : Program τ κ σ) (s : Server τ κ σ) : Reply × Server τ κ σ :=
  runBy receive p s

end Server
end WebServer
