import WebServer.Host.Connections
import WebServer.Server

/-! # The driver of a host

One task owns the server. It takes the events of the sockets, the commands of other tasks and the ticks of
the poll one at a time, in any order, but events and commands each in the order of their arrival. -/

namespace WebServer.Host

/-- A command of another task. -/
inductive Command where
  | sendMessage (h : Handle) (text : String)
  | sendData (h : Handle) (data : Bytes)
  | broadcast (text : String)
  | close (h : Handle)
  | shutdown
deriving DecidableEq, Repr

/-- How far a driver has come. -/
inductive Phase where
  | preparing
  | running
  /-- The driver is gone. -/
  | finished (outcome : Except ServerError Unit)

/-- A server over the connections of a host, with what waits for it. -/
structure Driver (σ : Type) where
  server : Server Connections Nat σ
  events : List Event := []
  commands : List Command := []
  phase : Phase := .preparing

/-- Something that happens around a driver. -/
inductive Stimulus where
  | dial
  | arrive (conn : Nat) (data : Bytes)
  | hangUp (conn : Nat)
  /-- The reader of a connection breaks. -/
  | breakReader (conn : Nat)
  /-- The writer of a connection makes progress. -/
  | flush (conn : Nat)
  /-- The writer of a connection breaks. -/
  | breakWriter (conn : Nat)
  /-- Another task submits a command. -/
  | submit (c : Command)
  | takeEvent
  | takeCommand
  /-- Time passes and the driver polls. -/
  | tick (millis : Nat)

namespace Driver

variable {σ : Type}

def new (config : Config) (network : Network) (app : σ) : Driver σ :=
  { server := .new config { sendBuffer := config.sendBufferSize, network } app }

def onEngine (d : Driver σ) (f : Engine Connections Nat σ → Engine Connections Nat σ) : Driver σ :=
  { d with server := { d.server with engine := f d.server.engine } }

def onConnections (d : Driver σ) (f : Connections → Connections) : Driver σ :=
  d.onEngine fun e => { e with transport := f e.transport }

def connections (d : Driver σ) : Connections := d.server.engine.transport

/-- Listen, unless that is done; gives the port. -/
def start (d : Driver σ) : Except ServerError Nat × Driver σ :=
  let (outcome, engine) :=
    if d.server.engine.listening then (.ok (), d.server.engine) else d.server.engine.start
  let d := { d with server := { d.server with engine } }
  match outcome with
  | .error e => (.error e, d)
  | .ok _ =>
    match d.connections.address with
    | some port => (.ok port, d)
    | none => (.error (.transport (.io "listener not bound")), d)

def run (d : Driver σ) : Driver σ :=
  match d.start with
  | (.ok _, d) => { d with phase := .running }
  | (.error e, d) => { d with phase := .finished (.error e) }

/-- The driver goes away before it has run. -/
def drop (d : Driver σ) : Driver σ :=
  { d with phase := .finished (.ok ()) }

/-- Whether commands still reach the driver. -/
def isAlive (d : Driver σ) : Bool :=
  match d.phase with
  | .finished _ => false
  | _ => true

/-- Submit a command; tells whether the driver is there to take it. -/
def submit (d : Driver σ) (c : Command) : Bool × Driver σ :=
  if d.isAlive then (true, { d with commands := d.commands ++ [c] }) else (false, d)

/-- Deal with an event of the sockets. -/
def handleEvent (d : Driver σ) : Event → Driver σ
  | .accepted =>
    let (conn, connections) := d.connections.register
    let (handle, engine) := (d.onConnections fun _ => connections).server.engine.accept conn
    let d := d.onEngine fun _ => engine
    if handle.isSome then d else d.onConnections fun c => (c.close conn).2
  | .received conn data => { d with server := (d.server.receive conn data).2 }
  | .remoteClosed conn => (d.onEngine (·.remoteClosed conn)).onConnections (·.forget conn)
  | .sent conn count => (d.onConnections (·.acknowledge conn count)).onEngine (·.sent conn count)
  | .failed conn => (d.onConnections (·.forget conn)).onEngine (·.failed conn)

def handleCommand (d : Driver σ) : Command → Driver σ
  | .sendMessage h text => d.onEngine fun e => (e.sendMessage h text).2
  | .sendData h data => d.onEngine fun e => (e.send h data).2
  | .broadcast text => d.onEngine fun e => (e.broadcast text).2
  | .close h => d.onEngine fun e => (e.close h).2
  | .shutdown => { d.onEngine (·.stop) with phase := .finished (.ok ()) }

def takeEvent (d : Driver σ) : Driver σ :=
  match d.phase, d.events with
  | .running, event :: events => { d with events }.handleEvent event
  | _, _ => d

def takeCommand (d : Driver σ) : Driver σ :=
  match d.phase, d.commands with
  | .running, command :: commands => { d with commands }.handleCommand command
  | _, _ => d

/-- Add to what the sockets report. -/
def report (d : Driver σ) (outcome : List Event × Connections) : Driver σ :=
  { d.onConnections (fun _ => outcome.2) with events := d.events ++ outcome.1 }

/-- What happens around a driver moves it on. -/
def step (d : Driver σ) : Stimulus → Driver σ
  | .dial => if d.connections.accepting then { d with events := d.events ++ [.accepted] } else d
  | .arrive conn data => { d with events := d.events ++ d.connections.arrive conn data }
  | .hangUp conn => d.report (d.connections.endReader conn false)
  | .breakReader conn => d.report (d.connections.endReader conn true)
  | .flush conn => d.report (d.connections.flushNext conn)
  | .breakWriter conn => d.report (d.connections.breakWriter conn)
  | .submit c => (d.submit c).2
  | .takeEvent => d.takeEvent
  | .takeCommand => d.takeCommand
  | .tick millis =>
    match d.phase with
    | .running => d.onEngine fun e => { e with clock := e.clock.advance millis }.poll
    | _ => d

/-- Carry out every command that waits. -/
def takeCommands (d : Driver σ) : Driver σ :=
  d.commands.foldl (fun d _ => d.takeCommand) d

end Driver
end WebServer.Host
