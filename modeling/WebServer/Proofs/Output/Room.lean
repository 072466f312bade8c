import WebServer.Proofs.Engine.Strides
import WebServer.Proofs.Transport.Recording

/-! # Bytes and room

A flush goes on until the queue has no unsent bytes or the connection has no room. -/

namespace WebServer

namespace OutboundQueue

theorem takeFrom_eq_none_iff {most : Nat} {bs : List OutboundBuffer} :
    takeFrom most bs = none ↔ total OutboundBuffer.unsent bs = 0 := by
  induction bs with
  | nil => simp [takeFrom, total]
  | cons b bs ih =>
      rw [takeFrom, total]
      split
      · simp only [reduceCtorEq, false_iff]
        omega
      · rw [Option.map_eq_none_iff, ih]
        omega

/-- What is handed out is unsent no more. -/
theorem takeFrom_unsent {most : Nat} (hmost : 0 < most) {bs cs : List OutboundBuffer} {chunk : Bytes}
    (ht : takeFrom most bs = some (chunk, cs)) :
    0 < chunk.length ∧ chunk.length ≤ most ∧
      total OutboundBuffer.unsent bs = chunk.length + total OutboundBuffer.unsent cs := by
  induction bs generalizing cs with
  | nil => simp [takeFrom] at ht
  | cons b bs ih =>
      rw [takeFrom] at ht
      split at ht
      · rename_i hun
        obtain ⟨rfl, rfl⟩ := Prod.mk.inj (Option.some.inj ht)
        simp only [total, OutboundBuffer.unsent, OutboundBuffer.size, List.length_take, List.length_drop] at hun ⊢
        omega
      · obtain ⟨⟨chunk', cs'⟩, htail, heq⟩ := Option.map_eq_some_iff.mp ht
        obtain ⟨rfl, rfl⟩ := Prod.mk.inj heq
        obtain ⟨hpos, hle, hunsent⟩ := ih htail
        refine ⟨hpos, hle, ?_⟩
        rw [total, total, hunsent]
        omega

variable {q q' : OutboundQueue} {most : Nat} {chunk : Bytes}

theorem unsent_nextChunk (hn : q.nextChunk most = some (chunk, q')) :
    0 < chunk.length ∧ chunk.length ≤ most ∧ q.unsent = chunk.length + q'.unsent := by
  obtain ⟨hmost, cs, htake, rfl⟩ := nextChunk_eq_some.mp hn
  exact takeFrom_unsent hmost htake

theorem unsent_of_nextChunk_none (hn : q.nextChunk most = none) : most = 0 ∨ q.unsent = 0 := by
  rw [nextChunk] at hn
  split at hn
  · exact .inl ‹_›
  · exact .inr (takeFrom_eq_none_iff.mp (Option.map_eq_none_iff.mp hn))

end OutboundQueue

section

variable {τ κ : Type} [Transport τ κ]

namespace Transport

/-- No connection has more room than before. -/
def NoRoomier (t t' : τ) : Prop :=
  ∀ conn : κ, capacity t' conn ≤ capacity t conn

theorem NoRoomier.refl (t : τ) : NoRoomier t t :=
  fun _ => Nat.le_refl _

theorem NoRoomier.trans {t t' t'' : τ} (h : NoRoomier t t') (h' : NoRoomier t' t'') : NoRoomier t t'' :=
  fun conn => Nat.le_trans (h' conn) (h conn)

/-- While `P` holds of it, a transport takes every chunk for which it has room, and makes no room by itself. -/
structure Ample (P : τ → Prop) : Prop extends Keeps P where
  write_ok : ∀ t conn chunk, P t → 0 < chunk.length → chunk.length ≤ capacity t conn →
    ∃ taken, (Transport.write t conn chunk).1 = .ok taken ∧ chunk.length ≤ taken
  room_write : ∀ t conn chunk, P t → NoRoomier t (Transport.write t conn chunk).2
  room_close : ∀ t conn, P t → NoRoomier t (Transport.close t conn).2
  room_listen : ∀ t port, P t → NoRoomier t (Transport.listen t port).2
  room_stopListening : ∀ t, P t → NoRoomier t (Transport.stopListening t)

end Transport

namespace Outflow

variable {P : τ → Prop} (k : Transport.Ample P)
include k

theorem offer_noRoomier (h : Handle) (conn : κ) (segment : Nat) {o : Outflow τ κ} (ho : P o.transport) :
    Transport.NoRoomier o.transport (o.offer h conn segment).2.transport := by
  obtain ht | ⟨chunk, ht⟩ := o.offer_transport h conn segment
  · exact ht.symm ▸ .refl _
  · exact ht.symm ▸ k.room_write o.transport conn chunk ho

theorem drain_transport (h : Handle) (conn : κ) (segment : Nat) {o : Outflow τ κ} (ho : P o.transport) :
    P (o.drain h conn segment).transport ∧
      Transport.NoRoomier o.transport (o.drain h conn segment).transport := by
  refine offerLoop_keep (I := fun o' => P o'.transport ∧ Transport.NoRoomier o.transport o'.transport) ?_ _
    ⟨ho, .refl _⟩
  rintro o' ⟨ho', hroom⟩
  exact ⟨offer_keeps k.toKeeps h conn segment ho', hroom.trans (offer_noRoomier k h conn segment ho')⟩

/-- Chunk after chunk is taken until there is no byte or no room left; every chunk leaves fewer unsent bytes. -/
theorem offerLoop_spent (h : Handle) (conn : κ) {segment : Nat} (hsegment : 0 < segment) {fuel : Nat} {o : Outflow τ κ}
    (ho : P o.transport) (hfuel : o.queue.unsent ≤ fuel) :
    (o.offerLoop h conn segment fuel).queue.unsent = 0 ∨
      Transport.capacity (o.offerLoop h conn segment fuel).transport conn = 0 := by
  induction fuel generalizing o with
  | zero => exact .inl (Nat.le_zero.mp hfuel)
  | succ fuel ih =>
      rw [offerLoop, offer]
      cases hn : o.queue.nextChunk (min (Transport.capacity o.transport conn) segment) with
      | none =>
          dsimp only
          rcases OutboundQueue.unsent_of_nextChunk_none hn with hroom | hunsent
          · exact .inr (by omega)
          · exact .inl hunsent
      | some next =>
          obtain ⟨chunk, queue⟩ := next
          obtain ⟨hpos, hle, hunsent⟩ := OutboundQueue.unsent_nextChunk hn
          obtain ⟨taken, hwrite, htaken⟩ :=
            k.write_ok o.transport conn chunk ho hpos (Nat.le_trans hle (Nat.min_le_left _ _))
          have hkept := k.write o.transport conn chunk ho
          dsimp only
          rw [hwrite]
          dsimp only
          rw [if_pos htaken]
          refine ih hkept ?_
          change queue.unsent ≤ fuel
          omega

end Outflow

/-- The unsent bytes of a session, or the room of its connection, are used up. -/
def Session.Spent (transport : τ) (t : Session κ) : Prop :=
  t.outbound.unsent = 0 ∨ Transport.capacity transport t.conn = 0

instance (transport : τ) (t : Session κ) : Decidable (t.Spent transport) :=
  inferInstanceAs (Decidable (_ ∨ _))

theorem Session.Spent.of_le {t : Session κ} {transport transport' : τ} (hs : t.Spent transport)
    (hroom : Transport.capacity transport' t.conn ≤ Transport.capacity transport t.conn) : t.Spent transport' :=
  hs.imp id fun hzero => Nat.le_zero.mp (Nat.le_trans hroom (Nat.le_of_eq hzero))

end

namespace Transport.InMemory

variable {κ : Type} [DecidableEq κ]

theorem room_setLink (t : InMemory κ) (conn : κ) {l : MemoryLink} (h : (t.link conn).unacknowledged ≤ l.unacknowledged)
    (other : κ) : (t.setLink conn l).room other ≤ t.room other := by
  have hwindow : (t.setLink conn l).window = t.window := rfl
  rw [room, room, hwindow]
  by_cases ho : other = conn
  · rw [ho, link_setLink_self]
    omega
  · rw [link_setLink_of_ne t l ho]

theorem write_of_room {t : InMemory κ} (ht : t.failingWrites = 0) {conn : κ} {data : Bytes} (hpos : 0 < data.length)
    (hroom : data.length ≤ t.room conn) :
    ∃ l : MemoryLink, (t.link conn).unacknowledged ≤ l.unacknowledged ∧
      t.write conn data = (.ok data.length, t.setLink conn l) := by
  have hmin : min data.length (t.room conn) = data.length := Nat.min_eq_left hroom
  rw [write, if_neg (by omega), if_neg (by omega), hmin]
  exact ⟨_, Nat.le_add_right _ _, rfl⟩

theorem write_cases {t : InMemory κ} (ht : t.failingWrites = 0) (conn : κ) (data : Bytes) :
    (t.write conn data).2 = t ∨ ∃ l : MemoryLink, (t.link conn).unacknowledged ≤ l.unacknowledged ∧
      (t.write conn data).2 = t.setLink conn l := by
  rw [write, if_neg (by omega)]
  split
  · exact .inl rfl
  · exact .inr ⟨_, Nat.le_add_right _ _, rfl⟩

/-- A network in memory takes all it has room for, unless writes are made to fail. -/
theorem ample : Ample fun t : InMemory κ => t.failingWrites = 0 where
  write t conn chunk ht := by
    rcases write_cases ht conn chunk with he | ⟨l, -, he⟩
    · exact (congrArg failingWrites he).trans ht
    · exact (congrArg failingWrites he).trans ht
  close _ _ ht := ht
  listen _ _ ht := ht
  stopListening _ ht := ht
  write_ok t conn chunk ht hpos hroom := by
    obtain ⟨l, -, he⟩ := write_of_room ht hpos hroom
    exact ⟨chunk.length, congrArg Prod.fst he, Nat.le_refl _⟩
  room_write t conn chunk ht other := by
    rcases write_cases ht conn chunk with he | ⟨l, hl, he⟩
    · exact Nat.le_of_eq (congrArg (room · other) he)
    · exact Nat.le_trans (Nat.le_of_eq (congrArg (room · other) he)) (room_setLink t conn hl other)
  room_close t conn _ := room_setLink t conn (Nat.le_refl _)
  room_listen _ _ _ _ := Nat.le_refl _
  room_stopListening _ _ _ := Nat.le_refl _

end Transport.InMemory

end WebServer
