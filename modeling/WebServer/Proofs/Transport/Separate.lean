import WebServer.Proofs.Host.Connections

/-! # Transports with separate connections

Connections that do not touch each other: what a transport does about one of them depends on what became of that one
so far, and changes nothing about the others. -/

namespace WebServer

/-- A transport that keeps its connections apart, each with a state of its own. -/
class Transport.Separate (τ : Type) (κ : outParam Type) [Transport τ κ] where
  Link : Type
  link : τ → κ → Link
  capacity_congr : ∀ {t t' : τ} {conn : κ}, link t conn = link t' conn →
    Transport.capacity t conn = Transport.capacity t' conn
  write_congr : ∀ {t t' : τ} {conn : κ}, link t conn = link t' conn → ∀ chunk,
    (Transport.write t conn chunk).1 = (Transport.write t' conn chunk).1
  link_write : ∀ {t t' : τ} {conn : κ}, link t conn = link t' conn → ∀ chunk,
    link (Transport.write t conn chunk).2 conn = link (Transport.write t' conn chunk).2 conn
  link_close : ∀ {t t' : τ} {conn : κ}, link t conn = link t' conn →
    link (Transport.close t conn).2 conn = link (Transport.close t' conn).2 conn
  link_write_of_ne : ∀ (t : τ) {conn other : κ}, other ≠ conn → ∀ chunk,
    link (Transport.write t conn chunk).2 other = link t other
  link_close_of_ne : ∀ (t : τ) {conn other : κ}, other ≠ conn →
    link (Transport.close t conn).2 other = link t other

namespace Host.Connections

/-- What a host knows of one connection. -/
structure Link where
  sendBuffer : Nat
  inFlight : Option Nat
  socket : Option Socket
deriving DecidableEq

def link (c : Connections) (conn : Nat) : Link :=
  ⟨c.sendBuffer, c.inFlight? conn, c.socket? conn⟩

variable {c c' : Connections} {conn : Nat}

theorem capacity_of_link (hl : c.link conn = c'.link conn) : c.capacity conn = c'.capacity conn := by
  obtain ⟨hbuffer, hflight, -⟩ := Link.mk.inj hl
  rw [capacity, capacity, hflight, hbuffer]

/-- What became of a write tells by the link of its connection. -/
theorem write_of_link (hl : c.link conn = c'.link conn) (chunk : Bytes) :
    (c.write conn chunk).1 = (c'.write conn chunk).1 ∧
      (c.write conn chunk).2.link conn = (c'.write conn chunk).2.link conn := by
  have hcapacity := capacity_of_link hl
  obtain ⟨hbuffer, hflight, hsocket⟩ := Link.mk.inj hl
  rw [write, write, hflight, hcapacity, hsocket]
  split
  · exact ⟨rfl, hl⟩
  · split
    · exact ⟨rfl, hl⟩
    · split
      · exact ⟨rfl, hl⟩
      · refine ⟨rfl, Link.mk.injEq .. ▸ ⟨hbuffer, ?_, ?_⟩⟩
        · simp [hflight]
        · simp [hsocket]

/-- A write changes the sockets and the bytes in flight of its connection only. -/
theorem link_write_of_ne (c : Connections) {conn other : Nat} (hne : other ≠ conn) (chunk : Bytes) :
    (c.write conn chunk).2.link other = c.link other := by
  rcases write_cases c conn chunk with ⟨error, hw⟩ | ⟨n, tasks, -, -, -, hw⟩
  · rw [hw]
  · rw [hw, link, inFlight?_updateSocket, inFlight?_updateLink, socket?_updateSocket, socket?_updateLink, if_neg hne,
      if_neg hne]
    rfl

theorem link_close (hl : c.link conn = c'.link conn) : (c.close conn).2.link conn = (c'.close conn).2.link conn := by
  obtain ⟨hbuffer, hflight, hsocket⟩ := Link.mk.inj hl
  have hl₁ := close_left c conn
  have hl₂ := close_left c' conn
  have hsocket' : (c.close conn).2.socket? conn = (c'.close conn).2.socket? conn := by
    rw [close, close, hflight]
    split
    · exact hsocket
    · simp only [socket?_updateSocket, if_true]
      exact congrArg _ hsocket
  rw [link, link, hl₁.sendBuffer, hl₂.sendBuffer, hbuffer, hl₁.inFlight?, hl₂.inFlight?, hsocket', if_pos rfl,
    if_pos rfl]

theorem link_close_of_ne (c : Connections) {conn other : Nat} (hne : other ≠ conn) :
    (c.close conn).2.link other = c.link other := by
  have hl := close_left c conn
  rw [link, hl.sendBuffer, hl.inFlight?, if_neg hne, hl.socket other hne]
  rfl

instance : Transport.Separate Connections Nat where
  Link := Link
  link := link
  capacity_congr := capacity_of_link
  write_congr hl chunk := (write_of_link hl chunk).1
  link_write hl chunk := (write_of_link hl chunk).2
  link_close := link_close
  link_write_of_ne := link_write_of_ne
  link_close_of_ne := link_close_of_ne

end Host.Connections
end WebServer
