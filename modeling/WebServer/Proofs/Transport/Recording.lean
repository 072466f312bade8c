import Mathlib.Data.List.Basic
import WebServer.Transport.Faulty

/-! # Transports with a record

What a transport took over each of its connections. A write takes the beginning of the bytes offered, and a write
that fails takes none. -/

namespace WebServer

/-- A transport that tells what it has taken over every connection. -/
class Transport.Recording (τ : Type) (κ : outParam Type) [Transport τ κ] where
  taken : τ → κ → Bytes
  taken_write_ok : ∀ (t t' : τ) (conn : κ) (chunk : Bytes) (n : Nat),
    Transport.write t conn chunk = (.ok n, t') → taken t' conn = taken t conn ++ chunk.take n
  taken_write_error : ∀ (t t' : τ) (conn : κ) (chunk : Bytes) (error : TransportError),
    Transport.write t conn chunk = (.error error, t') → taken t' conn = taken t conn
  taken_write_other : ∀ (t : τ) (conn other : κ) (chunk : Bytes), other ≠ conn →
    taken (Transport.write t conn chunk).2 other = taken t other
  taken_close : ∀ (t : τ) (conn : κ), taken (Transport.close t conn).2 = taken t
  taken_listen : ∀ (t : τ) (port : Nat), taken (Transport.listen t port).2 = taken t
  taken_stopListening : ∀ t : τ, taken (Transport.stopListening t) = taken t

namespace Transport

variable {κ : Type} [DecidableEq κ]

namespace InMemory

theorem link_setLink_self (t : InMemory κ) (conn : κ) (l : MemoryLink) :
    (t.setLink conn l).link conn = l := by
  simp [link, setLink]

theorem link_setLink_of_ne (t : InMemory κ) {conn other : κ} (l : MemoryLink) (h : other ≠ conn) :
    (t.setLink conn l).link other = t.link other := by
  simp only [link, setLink]
  rw [List.find?_cons_of_neg (by simpa using h.symm), List.find?_filter]
  congr 3
  funext p
  by_cases hp : p.1 = other
  · simp [hp, h]
  · simp [hp]

/-- A write passes on the beginning of the bytes, or nothing. -/
theorem written_write {t t' : InMemory κ} {conn : κ} {data : Bytes} {n : Nat}
    (hw : t.write conn data = (.ok n, t')) :
    n ≤ data.length ∧ (t'.link conn).written = (t.link conn).written ++ data.take n := by
  rw [write] at hw
  split at hw
  · simp at hw
  · split at hw
    · simp at hw
    · simp only [Prod.mk.injEq, Except.ok.injEq] at hw
      obtain ⟨rfl, rfl⟩ := hw
      refine ⟨Nat.min_le_left _ _, ?_⟩
      rw [link_setLink_self]

theorem link_write_error {t t' : InMemory κ} {conn : κ} {data : Bytes} {error : TransportError}
    (hw : t.write conn data = (.error error, t')) (other : κ) : t'.link other = t.link other := by
  rw [write] at hw
  split at hw
  · rw [← (Prod.mk.inj hw).2]
    rfl
  · split at hw
    · rw [(Prod.mk.inj hw).2]
    · simp at hw

theorem link_write_other (t : InMemory κ) {conn other : κ} (data : Bytes) (h : other ≠ conn) :
    (t.write conn data).2.link other = t.link other := by
  rw [write]
  split
  · rfl
  · split
    · rfl
    · exact link_setLink_of_ne t _ h

theorem written_close (t : InMemory κ) (conn other : κ) :
    ((t.close conn).link other).written = (t.link other).written := by
  rw [close]
  by_cases h : other = conn
  · rw [h, link_setLink_self]
  · rw [link_setLink_of_ne t _ h]

end InMemory

namespace Faulty

theorem written_write {t t' : Faulty κ} {conn : κ} {data : Bytes} {n : Nat}
    (hw : t.write conn data = (.ok n, t')) :
    (t'.memory.link conn).written = (t.memory.link conn).written ++ data.take n := by
  rw [write] at hw
  split at hw
  · generalize hm : t.memory.write conn data = result at hw
    obtain ⟨outcome, memory⟩ := result
    obtain ⟨rfl, rfl⟩ := Prod.mk.inj hw
    exact (InMemory.written_write hm).2
  · simp only [Prod.mk.injEq, Except.ok.injEq] at hw
    obtain ⟨rfl, rfl⟩ := hw
    simp
  · rename_i limit _ _ _
    generalize hm : t.memory.write conn (data.take limit) = result at hw
    obtain ⟨outcome, memory⟩ := result
    obtain ⟨rfl, rfl⟩ := Prod.mk.inj hw
    obtain ⟨hn, hwritten⟩ := InMemory.written_write hm
    rw [List.length_take] at hn
    rw [hwritten, List.take_take, Nat.min_eq_left (Nat.le_trans hn (Nat.min_le_left _ _))]

theorem link_write_error {t t' : Faulty κ} {conn : κ} {data : Bytes} {error : TransportError}
    (hw : t.write conn data = (.error error, t')) : t'.memory.link conn = t.memory.link conn := by
  rw [write] at hw
  split at hw
  · generalize hm : t.memory.write conn data = result at hw
    obtain ⟨outcome, memory⟩ := result
    obtain ⟨rfl, rfl⟩ := Prod.mk.inj hw
    exact InMemory.link_write_error hm conn
  · simp at hw
  · rename_i limit _ _ _
    generalize hm : t.memory.write conn (data.take limit) = result at hw
    obtain ⟨outcome, memory⟩ := result
    obtain ⟨rfl, rfl⟩ := Prod.mk.inj hw
    exact InMemory.link_write_error hm conn

theorem link_write_other (t : Faulty κ) {conn other : κ} (data : Bytes) (h : other ≠ conn) :
    (t.write conn data).2.memory.link other = t.memory.link other := by
  rw [write]
  split
  · exact InMemory.link_write_other t.memory data h
  · rfl
  · exact InMemory.link_write_other t.memory _ h

instance : Recording (Faulty κ) κ where
  taken t conn := (t.memory.link conn).written
  taken_write_ok _ _ _ _ _ hw := written_write hw
  taken_write_error _ _ _ _ _ hw := congrArg MemoryLink.written (link_write_error hw)
  taken_write_other t _ _ chunk h := congrArg MemoryLink.written (link_write_other t chunk h)
  taken_close t conn := by
    funext other
    simp only [Transport.close, Faulty.close]
    split <;> exact InMemory.written_close t.memory conn other
  taken_listen t port := by
    simp only [Transport.listen, Faulty.listen]
    split <;> rfl
  taken_stopListening _ := rfl

end Faulty
end Transport
end WebServer
