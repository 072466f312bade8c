import WebServer.Json.Reader

/-! # Protocol modes and notices -/

namespace WebServer

/-- The protocol that a session speaks. -/
inductive Mode where
  | http
  | webSocket
deriving DecidableEq, Repr

/-- A change in the life of a session that the application may watch. -/
inductive Notice where
  | opened
  /-- The session speaks the WebSocket protocol from now on. -/
  | upgraded
  /-- The session was idle for too long and is being closed. -/
  | idle
  | closed
deriving DecidableEq, Repr

namespace Mode

def label : Mode → String
  | .http => "http"
  | .webSocket => "ws"

def jsonName : Mode → String
  | .http => "http"
  | .webSocket => "websocket"

def all : List Mode := [.http, .webSocket]

/-- A mode in JSON. -/
def ofJson (text : Bytes) : Except Json.Fault Mode := do
  let name ← Json.document (Json.variant (all.map jsonName)) text
  match all.find? fun m => m.jsonName == name with
  | some m => .ok m
  | none => .error .shape

end Mode

namespace Notice

def jsonName : Notice → String
  | .opened => "opened"
  | .upgraded => "upgraded"
  | .idle => "idle"
  | .closed => "closed"

def all : List Notice := [.opened, .upgraded, .idle, .closed]

/-- A notice in JSON. -/
def ofJson (text : Bytes) : Except Json.Fault Notice := do
  let name ← Json.document (Json.variant (all.map jsonName)) text
  match all.find? fun n => n.jsonName == name with
  | some n => .ok n
  | none => .error .shape

end Notice
end WebServer
