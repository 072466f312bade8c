import WebServer.Bytes

/-! # Transports

What the engine needs from the network below it. -/

namespace WebServer

/-- Why a transport refuses an operation. -/
inductive TransportError where
  /-- The send window is full. -/
  | wouldBlock
  | unknownConnection
  /-- The port cannot be listened on. -/
  | listen (port : Nat) (reason : String)
  | io (reason : String)
deriving DecidableEq, Repr

def TransportError.code : TransportError → String
  | .wouldBlock => "WouldBlock"
  | .unknownConnection => "UnknownConnection"
  | .listen .. => "Listen"
  | .io _ => "Io"

def TransportError.message : TransportError → String
  | .wouldBlock => "Transport send buffer is full"
  | .unknownConnection => "Connection is not known to the transport"
  | .listen port reason => "Failed to listen on port " ++ toString port ++ ": " ++ reason
  | .io reason => "Transport I/O error: " ++ reason

/-- A network with state `τ` whose connections are named by `κ`. -/
class Transport (τ : Type) (κ : outParam Type) where
  /-- The bytes that a connection can take right now. -/
  capacity : τ → κ → Nat
  /-- Offer bytes to a connection; gives how many of them it took, or takes none and fails. -/
  write : τ → κ → Bytes → Except TransportError Nat × τ
  close : τ → κ → Except TransportError Unit × τ
  listen : τ → Nat → Except TransportError Unit × τ
  /-- Accept no more connections. -/
  stopListening : τ → τ

end WebServer
