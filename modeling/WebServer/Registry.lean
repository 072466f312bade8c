import WebServer.Session

/-! # The registry

The live sessions in ascending order of their handles, and the handle of every live connection. -/

namespace WebServer

/-- Why a connection cannot become a session. -/
inductive RegistryError (κ : Type) where
  | duplicateConnection (conn : κ)
  /-- As many sessions are live as the registry may hold. -/
  | full (limit : Nat)
  | handlesExhausted
deriving DecidableEq, Repr

def RegistryError.code {κ : Type} : RegistryError κ → String
  | .duplicateConnection _ => "DuplicateConnection"
  | .full _ => "Full"
  | .handlesExhausted => "HandlesExhausted"

def RegistryError.message {κ : Type} [ToString κ] : RegistryError κ → String
  | .duplicateConnection conn => "Connection " ++ toString conn ++ " is already registered"
  | .full limit => "Session table full (" ++ toString limit ++ " sessions)"
  | .handlesExhausted => "No session handle available"

/-- The live sessions. -/
structure Registry (κ : Type) where
  limit : Nat
  lastIssued : Handle := ⟨Handle.first.raw - 1⟩
  sessions : List (Session κ) := []
  handles : List (κ × Handle) := []
deriving DecidableEq, Repr

namespace Registry

variable {κ : Type} [DecidableEq κ]

def new (limit : Nat) : Registry κ := { limit }

def size (r : Registry κ) : Nat := r.sessions.length

def get? (r : Registry κ) (h : Handle) : Option (Session κ) :=
  r.sessions.find? fun s => s.handle = h

def contains (r : Registry κ) (h : Handle) : Bool :=
  (r.get? h).isSome

def handleOf? (r : Registry κ) (conn : κ) : Option Handle :=
  (r.handles.find? fun (c, _) => c = conn).map Prod.snd

def ofConn? (r : Registry κ) (conn : κ) : Option (Session κ) :=
  (r.handleOf? conn).bind r.get?

/-- The live handles in ascending order. -/
def liveHandles (r : Registry κ) : List Handle :=
  r.sessions.map Session.handle

def update (r : Registry κ) (h : Handle) (f : Session κ → Session κ) : Registry κ :=
  { r with sessions := r.sessions.map fun s => if s.handle = h then f s else s }

/-- Place a session in the order of handles. -/
def place (s : Session κ) : List (Session κ) → List (Session κ)
  | [] => [s]
  | t :: rest => if s.handle.raw < t.handle.raw then s :: t :: rest else t :: place s rest

/-- The first handle after `last` that is not live, among `tries` candidates. -/
def issue? (r : Registry κ) : (tries : Nat) → (last : Handle) → Option Handle
  | 0, _ => none
  | tries + 1, last =>
    let h := last.next
    if r.contains h then r.issue? tries h else some h

/-- Make a connection a session. -/
def create (r : Registry κ) (conn : κ) (now : Nat) :
    Except (RegistryError κ) Handle × Registry κ :=
  if (r.handleOf? conn).isSome then (.error (.duplicateConnection conn), r)
  else if r.limit ≤ r.size then (.error (.full r.limit), r)
  else
    match r.issue? (r.size + 1) r.lastIssued with
    | none => (.error .handlesExhausted, r)
    | some h =>
      (.ok h, { r with
        lastIssued := h
        sessions := place (.accepted h conn now) r.sessions
        handles := r.handles ++ [(conn, h)] })

/-- Remove the session of a connection. -/
def removeConn (r : Registry κ) (conn : κ) : Option (Session κ) × Registry κ :=
  match r.handleOf? conn with
  | none => (none, r)
  | some h =>
    (r.get? h, { r with
      sessions := r.sessions.filter fun s => s.handle ≠ h
      handles := r.handles.filter fun (c, _) => c ≠ conn })

def remove (r : Registry κ) (h : Handle) : Option (Session κ) × Registry κ :=
  match r.get? h with
  | none => (none, r)
  | some s => r.removeConn s.conn

end Registry
end WebServer
