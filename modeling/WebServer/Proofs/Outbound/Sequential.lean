import Mathlib.Data.Nat.Basic
import Mathlib.Data.List.Basic
import WebServer.Outbound

/-! # Buffers in sequence

Bytes leave a queue in the order of its buffers: a run of buffers is handed out in full, then at most one in
part, and the rest is untouched; acknowledgements have only reached the head. Every operation on the buffers of a
queue keeps this order and moves a cursor over the bytes that the buffers hold together. -/

namespace WebServer

namespace OutboundBuffer

/-- A buffer on its way: not all of it is acknowledged, and no more is acknowledged than was handed out. -/
structure Underway (b : OutboundBuffer) : Prop where
  acknowledged_le : b.acknowledged ≤ b.sent
  sent_le : b.sent ≤ b.size
  acknowledged_lt : b.acknowledged < b.size

theorem underway_of_ne_nil {data : Bytes} (h : data ≠ []) : Underway ⟨data, 0, 0⟩ :=
  ⟨le_rfl, Nat.zero_le _, List.length_pos_iff.mpr h⟩

end OutboundBuffer

namespace OutboundQueue

/-- All the bytes of the buffers. -/
def bytesOf (bs : List OutboundBuffer) : Bytes :=
  (bs.map OutboundBuffer.data).flatten

/-- The bytes of the buffers that were handed out. -/
def sentOf (bs : List OutboundBuffer) : Nat :=
  total OutboundBuffer.sent bs

/-- The bytes of the buffers that were acknowledged. -/
def acknowledgedOf (bs : List OutboundBuffer) : Nat :=
  total OutboundBuffer.acknowledged bs

/-- Buffers underway in sequence: behind a buffer that was not handed out in full nothing was handed out, and
behind the head nothing was acknowledged. -/
def Sequential : List OutboundBuffer → Prop
  | [] => True
  | b :: bs =>
    b.Underway ∧ (b.sent < b.size → ∀ c ∈ bs, c.sent = 0) ∧ (∀ c ∈ bs, c.acknowledged = 0) ∧ Sequential bs

/-! ## Counting -/

@[simp] theorem bytesOf_nil : bytesOf [] = [] := rfl

@[simp] theorem bytesOf_cons (b : OutboundBuffer) (bs : List OutboundBuffer) :
    bytesOf (b :: bs) = b.data ++ bytesOf bs := rfl

theorem total_append (number : OutboundBuffer → Nat) (bs cs : List OutboundBuffer) :
    total number (bs ++ cs) = total number bs + total number cs := by
  induction bs with
  | nil => simp [total]
  | cons b bs ih => simp [total, ih, Nat.add_assoc]

theorem total_eq_foldr (number : OutboundBuffer → Nat) (bs : List OutboundBuffer) :
    total number bs = (bs.map number).foldr (· + ·) 0 := by
  induction bs with
  | nil => rfl
  | cons b bs ih => rw [total, ih, List.map_cons, List.foldr_cons]

theorem total_eq_zero {number : OutboundBuffer → Nat} {bs : List OutboundBuffer}
    (h : ∀ b ∈ bs, number b = 0) : total number bs = 0 := by
  induction bs with
  | nil => rfl
  | cons b bs ih =>
      rw [total, h b (by simp), ih fun c hc => h c (by simp [hc])]

theorem sentOf_eq_zero {bs : List OutboundBuffer} (h : ∀ b ∈ bs, b.sent = 0) : sentOf bs = 0 :=
  total_eq_zero h

theorem acknowledgedOf_eq_zero {bs : List OutboundBuffer} (h : ∀ b ∈ bs, b.acknowledged = 0) :
    acknowledgedOf bs = 0 :=
  total_eq_zero h

@[simp] theorem sentOf_nil : sentOf [] = 0 := rfl

@[simp] theorem sentOf_cons (b : OutboundBuffer) (bs : List OutboundBuffer) :
    sentOf (b :: bs) = b.sent + sentOf bs := rfl

@[simp] theorem acknowledgedOf_nil : acknowledgedOf [] = 0 := rfl

@[simp] theorem acknowledgedOf_cons (b : OutboundBuffer) (bs : List OutboundBuffer) :
    acknowledgedOf (b :: bs) = b.acknowledged + acknowledgedOf bs := rfl

theorem acknowledgedOf_le_sentOf {bs : List OutboundBuffer} (h : Sequential bs) :
    acknowledgedOf bs ≤ sentOf bs := by
  induction bs with
  | nil => rfl
  | cons b bs ih =>
      obtain ⟨hb, -, -, hbs⟩ := h
      exact Nat.add_le_add hb.acknowledged_le (ih hbs)

theorem sentOf_le_length {bs : List OutboundBuffer} (h : Sequential bs) :
    sentOf bs ≤ (bytesOf bs).length := by
  induction bs with
  | nil => rfl
  | cons b bs ih =>
      obtain ⟨hb, -, -, hbs⟩ := h
      rw [sentOf_cons, bytesOf_cons, List.length_append]
      exact Nat.add_le_add hb.sent_le (ih hbs)

/-- The bytes in flight are those between the two cursors. -/
theorem total_inFlight {bs : List OutboundBuffer} (h : Sequential bs) :
    total OutboundBuffer.inFlight bs = sentOf bs - acknowledgedOf bs := by
  induction bs with
  | nil => rfl
  | cons b bs ih =>
      obtain ⟨hb, -, -, hbs⟩ := h
      have hrest := acknowledgedOf_le_sentOf hbs
      have hle := hb.acknowledged_le
      rw [total, ih hbs, sentOf_cons, acknowledgedOf_cons, OutboundBuffer.inFlight]
      omega

/-- The bytes not handed out are those behind the sent cursor. -/
theorem total_unsent {bs : List OutboundBuffer} (h : Sequential bs) :
    total OutboundBuffer.unsent bs = (bytesOf bs).length - sentOf bs := by
  induction bs with
  | nil => rfl
  | cons b bs ih =>
      obtain ⟨hb, -, -, hbs⟩ := h
      have hrest := sentOf_le_length hbs
      have hle := hb.sent_le
      rw [total, ih hbs, sentOf_cons, bytesOf_cons, List.length_append, OutboundBuffer.unsent]
      simp only [OutboundBuffer.size] at hle ⊢
      omega

theorem Sequential.underway {bs : List OutboundBuffer} (h : Sequential bs) :
    ∀ b ∈ bs, b.Underway := by
  induction bs with
  | nil => simp
  | cons b bs ih =>
      obtain ⟨hb, -, -, hbs⟩ := h
      intro c hc
      rcases List.mem_cons.mp hc with rfl | hc
      · exact hb
      · exact ih hbs c hc

theorem Sequential.tail_acknowledged {bs : List OutboundBuffer} (h : Sequential bs) :
    ∀ b ∈ bs.tail, b.acknowledged = 0 := by
  cases bs with
  | nil => simp
  | cons b bs => exact h.2.2.1

/-- Acknowledgements end inside the head. -/
theorem acknowledgedOf_lt_head {b : OutboundBuffer} {bs : List OutboundBuffer}
    (h : Sequential (b :: bs)) : acknowledgedOf (b :: bs) < b.size := by
  rw [acknowledgedOf_cons, acknowledgedOf_eq_zero h.2.2.1, Nat.add_zero]
  exact h.1.acknowledged_lt

/-- Buffers in sequence are full ones, then at most one that is handed out in part, then untouched ones. -/
theorem Sequential.split {bs : List OutboundBuffer} (h : Sequential bs) :
    ∃ full part rest, bs = full ++ part ++ rest ∧ (∀ b ∈ full, b.sent = b.size) ∧
      part.length ≤ 1 ∧ (∀ b ∈ part, 0 < b.sent ∧ b.sent < b.size) ∧ ∀ b ∈ rest, b.sent = 0 := by
  induction bs with
  | nil => exact ⟨[], [], [], rfl, by simp, by simp, by simp, by simp⟩
  | cons b bs ih =>
      obtain ⟨hb, hrest, -, hbs⟩ := h
      by_cases hfull : b.sent = b.size
      · obtain ⟨full, part, rest, rfl, hf, hp, hpart, hr⟩ := ih hbs
        refine ⟨b :: full, part, rest, rfl, ?_, hp, hpart, hr⟩
        intro c hc
        rcases List.mem_cons.mp hc with rfl | hc
        · exact hfull
        · exact hf c hc
      · have hlt : b.sent < b.size := Nat.lt_of_le_of_ne hb.sent_le hfull
        by_cases hzero : b.sent = 0
        · refine ⟨[], [], b :: bs, rfl, by simp, by simp, by simp, ?_⟩
          intro c hc
          rcases List.mem_cons.mp hc with rfl | hc
          · exact hzero
          · exact hrest hlt c hc
        · refine ⟨[], [b], bs, rfl, by simp, by simp, ?_, hrest hlt⟩
          intro c hc
          rw [List.mem_singleton] at hc
          subst c
          exact ⟨Nat.pos_of_ne_zero hzero, hlt⟩

theorem Sequential.append_untouched {bs : List OutboundBuffer} (h : Sequential bs) {data : Bytes}
    (hdata : data ≠ []) : Sequential (bs ++ [⟨data, 0, 0⟩]) := by
  induction bs with
  | nil => exact ⟨OutboundBuffer.underway_of_ne_nil hdata, by simp, by simp, trivial⟩
  | cons b bs ih =>
      obtain ⟨hb, hsent, hack, hbs⟩ := h
      refine ⟨hb, ?_, ?_, ih hbs⟩
      · intro hlt c hc
        rcases List.mem_append.mp hc with hc | hc
        · exact hsent hlt c hc
        · rw [List.mem_singleton.mp hc]
      · intro c hc
        rcases List.mem_append.mp hc with hc | hc
        · exact hack c hc
        · rw [List.mem_singleton.mp hc]

end OutboundQueue
end WebServer
