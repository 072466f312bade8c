import WebServer.Text.Size

/-! # Configuration -/

namespace WebServer

/-- The settings of a server. -/
structure Config where
  port : Nat := 80
  /-- Minutes an HTTP session may be idle; 0 means for ever. -/
  httpIdleMinutes : Nat := 10
  /-- Minutes a WebSocket session may be idle; 0 means for ever. -/
  webSocketIdleMinutes : Nat := 0
  /-- Minutes that closing a session may take; 0 means for ever. -/
  closeWaitMinutes : Nat := 2
  /-- Milliseconds between two polls. -/
  pollIntervalMillis : Nat := 1000
  maxSessions : Nat := 8
  /-- The largest chunk offered to the transport at once. -/
  maxSegmentSize : Nat := 1460
  /-- The send buffer of a connection. -/
  sendBufferSize : Nat := 8 * 1460
  /-- The largest request and the largest message. -/
  maxRequestBytes : Nat := 16 * 1024
deriving DecidableEq, Repr

/-- A setting that cannot be used. -/
structure ConfigProblem where
  field : String
  reason : String
deriving DecidableEq, Repr

def ConfigProblem.message (p : ConfigProblem) : String :=
  p.field ++ ": " ++ p.reason

namespace Config

/-- A setting by its name in JSON, with the limit of its values. -/
structure Field where
  name : String
  limit : Nat
  get : Config → Nat
  set : Nat → Config → Config

def fields : List Field := [
  ⟨"port", 0x10000, port, fun n c => { c with port := n }⟩,
  ⟨"http_idle_minutes", 0x100000000, httpIdleMinutes, fun n c => { c with httpIdleMinutes := n }⟩,
  ⟨"ws_idle_minutes", 0x100000000, webSocketIdleMinutes, fun n c => { c with webSocketIdleMinutes := n }⟩,
  ⟨"ws_close_wait_minutes", 0x100000000, closeWaitMinutes, fun n c => { c with closeWaitMinutes := n }⟩,
  ⟨"poll_interval_ms", sizeLimit, pollIntervalMillis, fun n c => { c with pollIntervalMillis := n }⟩,
  ⟨"max_sessions", sizeLimit, maxSessions, fun n c => { c with maxSessions := n }⟩,
  ⟨"max_segment_size", sizeLimit, maxSegmentSize, fun n c => { c with maxSegmentSize := n }⟩,
  ⟨"send_buffer_size", sizeLimit, sendBufferSize, fun n c => { c with sendBufferSize := n }⟩,
  ⟨"max_request_bytes", sizeLimit, maxRequestBytes, fun n c => { c with maxRequestBytes := n }⟩]

/-- The smallest request limit that may be configured. -/
def minRequestBytes : Nat := 512

/-- Every setting that cannot be used. -/
def problems (c : Config) : List ConfigProblem :=
  (if c.pollIntervalMillis = 0 then [⟨"poll_interval_ms", "must be greater than zero"⟩] else []) ++
  (if c.maxSessions = 0 then [⟨"max_sessions", "must allow at least one session"⟩] else []) ++
  (if c.maxSegmentSize = 0 then [⟨"max_segment_size", "must be greater than zero"⟩] else []) ++
  (if c.sendBufferSize < c.maxSegmentSize then
    [⟨"send_buffer_size",
      "must be at least max_segment_size (" ++ toString c.maxSegmentSize ++ ")"⟩] else []) ++
  (if c.maxRequestBytes < minRequestBytes then
    [⟨"max_request_bytes", "must be at least " ++ toString minRequestBytes⟩] else [])

/-- A limit in milliseconds, if the minutes are not zero. -/
def limitMillis (minutes : Nat) : Option Nat :=
  if minutes = 0 then none else some (minutes * 60000)

def httpIdleLimit (c : Config) : Option Nat := limitMillis c.httpIdleMinutes

def webSocketIdleLimit (c : Config) : Option Nat := limitMillis c.webSocketIdleMinutes

def closeWaitLimit (c : Config) : Option Nat := limitMillis c.closeWaitMinutes

def toJson (c : Config) : String :=
  let member (f : Field) := "\"" ++ f.name ++ "\":" ++ toString (f.get c)
  "\x7b" ++ ",".intercalate (fields.map member) ++ "\x7d"

end Config
end WebServer
