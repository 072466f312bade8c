/-! # The transport lock

A lock that one thread may hold several times over. -/

namespace WebServer.Transport

/-- The thread that holds a lock and how many times, if any does. -/
structure Lock where
  holder : Option (Nat × Nat) := none
deriving DecidableEq, Repr

namespace Lock

def isLocked (l : Lock) : Bool := l.holder.isSome

/-- Hold the lock once more, unless another thread holds it. -/
def acquire? (thread : Nat) (l : Lock) : Option Lock :=
  match l.holder with
  | none => some ⟨some (thread, 1)⟩
  | some (owner, times) => if owner = thread then some ⟨some (owner, times + 1)⟩ else none

/-- Give up one hold on the lock. -/
def release? (thread : Nat) (l : Lock) : Option Lock :=
  match l.holder with
  | none => none
  | some (owner, times) =>
    if owner ≠ thread then none
    else if times ≤ 1 then some ⟨none⟩
    else some ⟨some (owner, times - 1)⟩

def text (l : Lock) : String :=
  "TransportLock \x7b locked: " ++ (if l.isLocked then "true" else "false") ++ " \x7d"

end Lock
end WebServer.Transport
