import WebServer.Proofs.Outbound.Operations

/-! # Queues as byte streams

The buffers that were queued, one after the other, are a stream of bytes. A queue is this stream with two cursors,
one behind the bytes handed out and one behind the bytes acknowledged. -/

namespace WebServer

/-- A stream of bytes with two cursors. -/
structure ByteStream where
  bytes : Bytes
  /-- The position behind the bytes handed out. -/
  sent : Nat
  /-- The position behind the bytes acknowledged. -/
  acknowledged : Nat
deriving DecidableEq, Repr

inductive QueueCall where
  | enqueue (data : Bytes)
  | nextChunk (most : Nat)
  | requeue (chunk : Bytes)
  | acknowledge (count : Nat)
  | clear
deriving DecidableEq, Repr

/-- A queue with the buffers that were queued since it was last cleared. -/
structure Ledger where
  queue : OutboundQueue := .new
  queued : List Bytes := []
  /-- The number of buffers that had been released when the queue was last cleared. -/
  releasedBefore : Nat := 0
deriving DecidableEq, Repr

namespace Ledger

open OutboundQueue

/-- Carry out a call; what the queue refuses changes nothing. -/
def call (l : Ledger) : QueueCall → Ledger
  | .enqueue data =>
    match l.queue.enqueue data with
    | .ok queue => { l with queue, queued := l.queued ++ [data] }
    | .error _ => l
  | .nextChunk most =>
    match l.queue.nextChunk most with
    | some (_, queue) => { l with queue }
    | none => l
  | .requeue chunk =>
    match l.queue.requeue chunk with
    | .ok queue => { l with queue }
    | .error _ => l
  | .acknowledge count => { l with queue := (l.queue.acknowledge count).2 }
  | .clear => { queue := l.queue.clear.2, queued := [], releasedBefore := l.queue.released }

/-- A new queue after the given calls. -/
def after (calls : List QueueCall) : Ledger :=
  calls.foldl call {}

/-- The number of buffers released since the queue was last cleared. -/
def released (l : Ledger) : Nat :=
  l.queue.released - l.releasedBefore

/-- The bytes of the buffers released since the queue was last cleared. -/
def gone (l : Ledger) : Bytes :=
  (l.queued.take l.released).flatten

/-- The stream of a queue, with the cursors where the counts of its buffers put them. -/
def stream (l : Ledger) : ByteStream where
  bytes := l.queued.flatten
  sent := l.gone.length + sentOf l.queue.buffers
  acknowledged := l.gone.length + acknowledgedOf l.queue.buffers

/-- What holds between the calls on a queue: it holds what was queued and is not released, in sequence. -/
structure Sound (l : Ledger) : Prop where
  nonempty : ∀ data ∈ l.queued, data ≠ []
  before_le : l.releasedBefore ≤ l.queue.released
  released_le : l.released ≤ l.queued.length
  contents : l.queue.buffers.map OutboundBuffer.data = l.queued.drop l.released
  sequential : Sequential l.queue.buffers

theorem sound_new (releasedBefore : Nat) :
    Sound { queue := { released := releasedBefore }, releasedBefore } :=
  ⟨by simp, Nat.le_refl _, by simp [released], by simp, trivial⟩

namespace Sound

variable {l : Ledger}

/-- The stream is what is gone and then the bytes of the buffers left. -/
theorem bytes_eq (h : l.Sound) : l.stream.bytes = l.gone ++ bytesOf l.queue.buffers := by
  rw [stream, gone, bytesOf, h.contents, ← List.flatten_append, List.take_append_drop]

theorem cursors_le (h : l.Sound) :
    l.stream.acknowledged ≤ l.stream.sent ∧ l.stream.sent ≤ l.stream.bytes.length := by
  constructor
  · exact Nat.add_le_add_left (acknowledgedOf_le_sentOf h.sequential) _
  · rw [h.bytes_eq, List.length_append]
    exact Nat.add_le_add_left (sentOf_le_length h.sequential) _

theorem drop_bytes (h : l.Sound) (n : Nat) :
    l.stream.bytes.drop (l.gone.length + n) = (bytesOf l.queue.buffers).drop n := by
  rw [h.bytes_eq, List.drop_append, List.drop_of_length_le (Nat.le_add_right _ _), List.nil_append,
    Nat.add_sub_cancel_left]

/-- A buffer is released exactly when the acknowledged cursor has reached its end. -/
theorem lt_released_iff (h : l.Sound) {i : Nat} (hi : i < l.queued.length) :
    i < l.released ↔ (l.queued.take (i + 1)).flatten.length ≤ l.stream.acknowledged := by
  have hmono {m n : Nat} (hmn : m ≤ n) :
      (l.queued.take m).flatten.length ≤ (l.queued.take n).flatten.length := by
    rw [← Nat.add_sub_of_le hmn, List.take_add, List.flatten_append, List.length_append]
    exact Nat.le_add_right _ _
  constructor
  · intro hlt
    exact Nat.le_trans (hmono hlt) (Nat.le_add_right _ _)
  · intro hle
    by_contra hge
    have hr : l.released < l.queued.length := by omega
    -- The acknowledged cursor stands inside the head, which is the first buffer that is not released.
    have hdrop : l.queued.drop l.released = l.queued[l.released] :: l.queued.drop (l.released + 1) :=
      List.drop_eq_getElem_cons hr
    cases hb : l.queue.buffers with
    | nil =>
        have := h.contents
        rw [hb, hdrop] at this
        exact absurd this (by simp only [List.map_nil, reduceCtorEq, not_false_eq_true])
    | cons b bs =>
        have hhead : b.data = l.queued[l.released] := by
          have := h.contents
          rw [hb, hdrop, List.map_cons] at this
          exact (List.cons.inj this).1
        have hlt : acknowledgedOf l.queue.buffers < b.data.length := by
          rw [hb]
          exact acknowledgedOf_lt_head (hb ▸ h.sequential)
        have hnext : (l.queued.take (l.released + 1)).flatten.length = l.gone.length + b.data.length := by
          rw [List.take_succ_eq_append_getElem hr, List.flatten_append, List.length_append, hhead, gone]
          simp
        have := hmono (show l.released + 1 ≤ i + 1 by omega)
        simp only [stream] at hle
        omega

/-! ## The calls -/

theorem enqueue (h : l.Sound) {data : Bytes} {queue : OutboundQueue}
    (he : l.queue.enqueue data = .ok queue) :
    Sound { l with queue, queued := l.queued ++ [data] } ∧
      stream { l with queue, queued := l.queued ++ [data] } =
        { l.stream with bytes := l.stream.bytes ++ data } := by
  rw [OutboundQueue.enqueue] at he
  split at he
  · simp at he
  · rename_i hempty
    simp only [Except.ok.injEq] at he
    subst he
    have hdata : data ≠ [] := by simpa using hempty
    have hle := h.released_le
    have hgone : (l.queued ++ [data]).take l.released = l.queued.take l.released :=
      List.take_append_of_le_length hle
    constructor
    · refine ⟨?_, h.before_le, ?_, ?_, h.sequential.append_untouched hdata⟩
      · intro d hd
        rcases List.mem_append.mp hd with hd | hd
        · exact h.nonempty d hd
        · rwa [List.mem_singleton.mp hd]
      · exact Nat.le_trans hle (by simp)
      · change _ = (l.queued ++ [data]).drop l.released
        rw [List.map_append, h.contents, List.drop_append_of_le_length hle]
        rfl
    · have hsent : sentOf (l.queue.buffers ++ [⟨data, 0, 0⟩]) = sentOf l.queue.buffers := total_append _ _ _
      have hack : acknowledgedOf (l.queue.buffers ++ [⟨data, 0, 0⟩]) = acknowledgedOf l.queue.buffers :=
        total_append _ _ _
      simp only [stream, gone, released, ByteStream.mk.injEq] at *
      rw [hgone, hsent, hack]
      simp

/-- Calls that change no more than the counts of the buffers keep a ledger sound. -/
theorem relayout (h : l.Sound) {bs : List OutboundBuffer} (hs : SameLayout l.queue.buffers bs)
    (hseq : Sequential bs) : Sound { l with queue := { l.queue with buffers := bs } } where
  nonempty := h.nonempty
  before_le := h.before_le
  released_le := h.released_le
  contents := hs.data.trans h.contents
  sequential := hseq

theorem stream_relayout {bs : List OutboundBuffer} (hs : SameLayout l.queue.buffers bs) :
    stream { l with queue := { l.queue with buffers := bs } } =
      { l.stream with sent := l.gone.length + sentOf bs } := by
  simp only [stream, gone, released, hs.acknowledgedOf_eq]

theorem nextChunk (h : l.Sound) {most : Nat} {chunk : Bytes} {queue : OutboundQueue}
    (hn : l.queue.nextChunk most = some (chunk, queue)) :
    Sound { l with queue } ∧ 0 < chunk.length ∧ chunk.length ≤ most ∧
      chunk = l.stream.bytes.slice l.stream.sent (l.stream.sent + chunk.length) ∧
      stream { l with queue } = { l.stream with sent := l.stream.sent + chunk.length } := by
  obtain ⟨hmost, bs, htake, rfl⟩ := nextChunk_eq_some.mp hn
  have t := takeFrom_taken hmost h.sequential htake
  have hstream := stream_relayout t.layout
  have hsound := h.relayout t.layout t.sequential
  have hend : l.stream.sent + chunk.length ≤ l.stream.bytes.length := by
    have hle := hsound.cursors_le.2
    rw [hstream, t.sentOf_eq] at hle
    simpa only [stream, Nat.add_assoc] using hle
  refine ⟨hsound, t.pos, t.le_most, ?_, ?_⟩
  · rw [Bytes.slice, if_pos ⟨Nat.le_add_right _ _, hend⟩, Nat.add_sub_cancel_left]
    rw [show l.stream.sent = l.gone.length + sentOf l.queue.buffers from rfl, h.drop_bytes]
    exact t.chunk_eq
  · rw [hstream, t.sentOf_eq, ← Nat.add_assoc]
    rfl

theorem nextChunk_eq_none (h : l.Sound) (most : Nat) :
    l.queue.nextChunk most = none ↔ most = 0 ∨ l.stream.sent = l.stream.bytes.length := by
  rw [OutboundQueue.nextChunk]
  split
  · rename_i hmost
    simp [hmost]
  · rename_i hmost
    rw [Option.map_eq_none_iff, takeFrom_eq_none h.sequential, h.bytes_eq, List.length_append]
    simp only [hmost, false_or, stream]
    omega

theorem requeue (h : l.Sound) {chunk : Bytes} {queue : OutboundQueue}
    (hr : l.queue.requeue chunk = .ok queue) :
    Sound { l with queue } ∧ chunk.length ≤ l.stream.sent - l.stream.acknowledged ∧
      stream { l with queue } = { l.stream with sent := l.stream.sent - chunk.length } := by
  rw [OutboundQueue.requeue] at hr
  cases hin : requeueIn chunk l.queue.buffers with
  | error e => simp [hin, Except.map] at hr
  | ok bs =>
      rw [hin] at hr
      simp only [Except.map, Except.ok.injEq] at hr
      subst hr
      have t := requeueIn_takenBack h.sequential hin
      have hstream := stream_relayout t.layout
      have hsound := h.relayout t.layout t.sequential
      have hle := hsound.cursors_le.1
      have hsent := t.sentOf_eq
      rw [hstream] at hle
      simp only [stream] at hle
      refine ⟨hsound, ?_, ?_⟩
      · simp only [stream]
        omega
      · rw [hstream]
        simp only [stream, ByteStream.mk.injEq, true_and, and_true]
        omega

/-- The end of a chunk can be taken back as soon as the chunk was handed out. -/
theorem requeue_nextChunk (h : l.Sound) {most : Nat} {x y : Bytes} {queue : OutboundQueue}
    (hn : l.queue.nextChunk most = some (x ++ y, queue)) : ∃ back, queue.requeue y = .ok back := by
  obtain ⟨hmost, bs, htake, rfl⟩ := nextChunk_eq_some.mp hn
  obtain ⟨ds, hds, -, -⟩ := requeueIn_takeFrom hmost h.sequential htake
  exact ⟨_, by rw [OutboundQueue.requeue, hds]; rfl⟩

theorem acknowledge (h : l.Sound) (count : Nat) :
    Sound { l with queue := (l.queue.acknowledge count).2 } ∧
      released { l with queue := (l.queue.acknowledge count).2 } =
        l.released + (l.queue.acknowledge count).1 ∧
      stream { l with queue := (l.queue.acknowledge count).2 } =
        { l.stream with
          acknowledged := l.stream.acknowledged + min count (l.stream.sent - l.stream.acknowledged) } := by
  have t := acknowledgeIn_settled h.sequential count
  rw [OutboundQueue.acknowledge]
  generalize acknowledgeIn count l.queue.buffers = settled at t ⊢
  obtain ⟨n, bs⟩ := settled
  dsimp only at t ⊢
  have hbefore := h.before_le
  have hreleased : released { l with queue := { buffers := bs, released := l.queue.released + n } } =
      l.released + n := by
    simp only [released]
    omega
  have hle : l.released + n ≤ l.queued.length := by
    have hn := t.released_le
    have hr := h.released_le
    have hlen := congrArg List.length h.contents
    rw [List.length_map, List.length_drop] at hlen
    omega
  have hgone : (gone { l with queue := { buffers := bs, released := l.queue.released + n } }).length =
      l.gone.length + ((l.queue.buffers.map OutboundBuffer.data).take n).flatten.length := by
    rw [gone, hreleased, List.take_add, List.flatten_append, List.length_append, h.contents]
    rfl
  refine ⟨⟨h.nonempty, ?_, ?_, ?_, t.sequential⟩, hreleased, ?_⟩
  · exact Nat.le_trans hbefore (Nat.le_add_right _ _)
  · rw [hreleased]
    exact hle
  · rw [hreleased, t.data, h.contents, List.drop_drop]
  · have hsent := t.sent
    have hack := t.acknowledged
    simp only [stream, ByteStream.mk.injEq, true_and, hgone]
    omega

theorem call (h : l.Sound) (c : QueueCall) : (l.call c).Sound := by
  cases c with
  | enqueue data =>
      rw [Ledger.call]
      split
      · exact (h.enqueue ‹_›).1
      · exact h
  | nextChunk most =>
      rw [Ledger.call]
      split
      · exact (h.nextChunk ‹_›).1
      · exact h
  | requeue chunk =>
      rw [Ledger.call]
      split
      · exact (h.requeue ‹_›).1
      · exact h
  | acknowledge count => exact (h.acknowledge count).1
  | clear => exact sound_new l.queue.released

end Sound

theorem sound_after (calls : List QueueCall) : (after calls).Sound := by
  rw [after]
  generalize hstart : ({} : Ledger) = l
  have hl : l.Sound := hstart ▸ sound_new 0
  clear hstart
  induction calls generalizing l with
  | nil => exact hl
  | cons c calls ih => exact ih (l.call c) (hl.call c)

/-- A queue behaves as a stream of bytes with two cursors. -/
structure IsStream (l : Ledger) : Prop where
  /-- The counts of every buffer are in order. -/
  counts : ∀ b ∈ l.queue.buffers,
    b.acknowledged ≤ b.sent ∧ b.sent ≤ b.size ∧ b.acknowledged < b.size
  /-- Buffers are handed out one after the other. -/
  shape : ∃ full part rest, l.queue.buffers = full ++ part ++ rest ∧ (∀ b ∈ full, b.sent = b.size) ∧
    part.length ≤ 1 ∧ (∀ b ∈ part, 0 < b.sent ∧ b.sent < b.size) ∧ ∀ b ∈ rest, b.sent = 0
  /-- Acknowledgements have only reached the head. -/
  head : ∀ b ∈ l.queue.buffers.tail, b.acknowledged = 0
  cursors : l.stream.acknowledged ≤ l.stream.sent ∧ l.stream.sent ≤ l.stream.bytes.length
  /-- The buffers left are those queued behind the ones released. -/
  contents : l.queue.buffers.map OutboundBuffer.data = l.queued.drop l.released
  /-- The buffers released are those whose end is acknowledged. -/
  released_iff : ∀ i < l.queued.length,
    i < l.released ↔ (l.queued.take (i + 1)).flatten.length ≤ l.stream.acknowledged
  released_count : l.queue.released = l.releasedBefore + l.released
  inFlight_count : l.queue.inFlight = l.stream.sent - l.stream.acknowledged
  unsent_count : l.queue.unsent = l.stream.bytes.length - l.stream.sent
  enqueue : ∀ data, data ≠ [] →
    (l.call (.enqueue data)).stream = { l.stream with bytes := l.stream.bytes ++ data }
  nextChunk_none : ∀ most,
    l.queue.nextChunk most = none ↔ most = 0 ∨ l.stream.sent = l.stream.bytes.length
  nextChunk_some : ∀ most chunk queue, l.queue.nextChunk most = some (chunk, queue) →
    0 < chunk.length ∧ chunk.length ≤ most ∧
      chunk = l.stream.bytes.slice l.stream.sent (l.stream.sent + chunk.length) ∧
      (l.call (.nextChunk most)).stream = { l.stream with sent := l.stream.sent + chunk.length }
  requeue : ∀ chunk queue, l.queue.requeue chunk = .ok queue →
    chunk.length ≤ l.stream.sent - l.stream.acknowledged ∧
      (l.call (.requeue chunk)).stream = { l.stream with sent := l.stream.sent - chunk.length }
  acknowledge : ∀ count,
    (l.call (.acknowledge count)).released = l.released + (l.queue.acknowledge count).1 ∧
      (l.call (.acknowledge count)).stream = { l.stream with
        acknowledged := l.stream.acknowledged + min count (l.stream.sent - l.stream.acknowledged) }
  clear : (l.call .clear).stream = ⟨[], 0, 0⟩

/-- Whatever is called on a new queue, with whatever arguments, it behaves as a stream with two cursors. -/
theorem isStream_after (calls : List QueueCall) : (after calls).IsStream := by
  have h := sound_after calls
  generalize after calls = l at h
  refine {
    counts := fun b hb => ?_
    shape := h.sequential.split
    head := h.sequential.tail_acknowledged
    cursors := h.cursors_le
    contents := h.contents
    released_iff := fun i hi => h.lt_released_iff hi
    released_count := (Nat.add_sub_of_le h.before_le).symm
    inFlight_count := (total_inFlight h.sequential).trans (Nat.add_sub_add_left _ _ _).symm
    unsent_count := ?_
    enqueue := fun data hdata => ?_
    nextChunk_none := h.nextChunk_eq_none
    nextChunk_some := fun most chunk queue hn => ?_
    requeue := fun chunk queue hr => ?_
    acknowledge := fun count => (h.acknowledge count).2
    clear := by simp [Ledger.call, stream, gone, OutboundQueue.clear] }
  · have hu := h.sequential.underway b hb
    exact ⟨hu.acknowledged_le, hu.sent_le, hu.acknowledged_lt⟩
  · rw [h.bytes_eq, List.length_append, stream, Nat.add_sub_add_left]
    exact total_unsent h.sequential
  · have he : l.queue.enqueue data = .ok { l.queue with buffers := l.queue.buffers ++ [⟨data, 0, 0⟩] } := by
      rw [OutboundQueue.enqueue, if_neg (by simpa using hdata)]
    have hs := (h.enqueue he).2
    simpa only [Ledger.call, he] using hs
  · obtain ⟨-, hpos, hle, hchunk, hs⟩ := h.nextChunk hn
    exact ⟨hpos, hle, hchunk, by simpa only [Ledger.call, hn] using hs⟩
  · obtain ⟨-, hle, hs⟩ := h.requeue hr
    exact ⟨hle, by simpa only [Ledger.call, hr] using hs⟩

end Ledger
end WebServer
