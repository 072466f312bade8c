import WebServer.Proofs.Outbound.Ledger

/-! # Taking back

A queue takes back the end of what it handed out last, as far as that is not acknowledged, and nothing else. What is
taken back is as if it had never been handed out. -/

namespace WebServer

namespace OutboundBuffer

/-- The bytes handed out and not acknowledged. -/
def flight (b : OutboundBuffer) : Bytes :=
  (b.data.take b.sent).drop b.acknowledged

variable {b : OutboundBuffer} {chunk : Bytes}

theorem Underway.length_flight (hb : b.Underway) : b.flight.length = b.inFlight := by
  have hle := hb.sent_le
  rw [size] at hle
  rw [flight, List.length_drop, List.length_take, Nat.min_eq_left hle, inFlight]

/-- The bytes that a rollback compares are the last ones in flight. -/
theorem Underway.drop_flight (hb : b.Underway) (h : chunk.length ≤ b.inFlight) :
    b.flight.drop (b.inFlight - chunk.length) = (b.data.drop (b.sent - chunk.length)).take chunk.length := by
  have hack := hb.acknowledged_le
  rw [inFlight] at h ⊢
  rw [flight, List.drop_drop, List.drop_take, show b.acknowledged + (b.sent - b.acknowledged - chunk.length) =
    b.sent - chunk.length by omega, show b.sent - (b.sent - chunk.length) = chunk.length by omega]

/-- A buffer rolls back just the ends of its bytes in flight. -/
theorem Underway.rollBack_eq_ok (hb : b.Underway) {c : OutboundBuffer} :
    b.rollBack chunk = .ok c ↔ chunk <:+ b.flight ∧ c = { b with sent := b.sent - chunk.length } := by
  rw [OutboundQueue.rollBack_eq_ok, ← and_assoc]
  refine and_congr_left fun _ => ⟨?_, ?_⟩
  · rintro ⟨hle, heq⟩
    rw [← hb.drop_flight hle] at heq
    exact heq ▸ List.drop_suffix _ _
  · intro hsuffix
    have hle : chunk.length ≤ b.inFlight := hb.length_flight ▸ hsuffix.length_le
    refine ⟨hle, ?_⟩
    rw [← hb.drop_flight hle, ← hb.length_flight]
    exact (List.suffix_iff_eq_drop.mp hsuffix).symm

end OutboundBuffer

namespace OutboundQueue

/-! ## The last buffer that was handed out -/

/-- Among the buffers, `b` is the last one of which bytes were handed out. -/
structure LastSent (bs front : List OutboundBuffer) (b : OutboundBuffer) (back : List OutboundBuffer) : Prop where
  buffers : bs = front ++ b :: back
  sent : 0 < b.sent
  untouched : ∀ c ∈ back, c.sent = 0

theorem untouched_or_lastSent (bs : List OutboundBuffer) :
    (∀ b ∈ bs, b.sent = 0) ∨ ∃ front b back, LastSent bs front b back := by
  induction bs with
  | nil => exact .inl (by simp)
  | cons a bs ih =>
      rcases ih with hzero | ⟨front, b, back, hbuffers, hsent, hback⟩
      · by_cases ha : a.sent = 0
        · exact .inl (List.forall_mem_cons.mpr ⟨ha, hzero⟩)
        · exact .inr ⟨[], a, bs, rfl, Nat.pos_of_ne_zero ha, hzero⟩
      · exact .inr ⟨a :: front, b, back, by rw [hbuffers, List.cons_append], hsent, hback⟩

/-- A chunk is rolled back in the last buffer of which bytes were handed out, and in no other. -/
theorem LastSent.requeueIn_eq {bs front back : List OutboundBuffer} {b : OutboundBuffer} (h : LastSent bs front b back)
    (chunk : Bytes) : requeueIn chunk bs = (b.rollBack chunk).map fun c => front ++ c :: back := by
  obtain ⟨rfl, hsent, hback⟩ := h
  have hnext : requeueIn chunk (b :: back) = (b.rollBack chunk).map (· :: back) := by
    rw [requeueIn, (requeueIn_nothingSent chunk back).mpr hback]
    exact if_pos hsent
  induction front with
  | nil => exact hnext
  | cons a front ih =>
      have hroll := rollBack_ne_nothingSent b chunk
      rw [List.cons_append, requeueIn, ih]
      cases hb : b.rollBack chunk with
      | ok c => rfl
      | error e =>
          cases e with
          | nothingSent => exact absurd hb hroll
          | empty | requeueExceedsSent | requeueMismatch => rfl

/-- The end of what the last buffer has in flight. -/
def EndsFlight (bs : List OutboundBuffer) (chunk : Bytes) : Prop :=
  ∃ front b back, LastSent bs front b back ∧ chunk <:+ b.flight

/-- A chunk is taken back just if it is the end of what the last buffer has in flight. -/
theorem requeue_eq_ok_iff {q : OutboundQueue} (h : Sequential q.buffers) (chunk : Bytes) :
    (∃ back, q.requeue chunk = .ok back) ↔ EndsFlight q.buffers chunk := by
  rw [requeue]
  constructor
  · rintro ⟨q', hq'⟩
    rcases untouched_or_lastSent q.buffers with hzero | ⟨front, b, back, hlast⟩
    · rw [(requeueIn_nothingSent chunk _).mpr hzero] at hq'
      cases hq'
    · refine ⟨front, b, back, hlast, ?_⟩
      have hb : b.Underway := h.underway b (by rw [hlast.buffers]; simp)
      rw [hlast.requeueIn_eq] at hq'
      cases hroll : b.rollBack chunk with
      | ok c => exact (hb.rollBack_eq_ok.mp hroll).1
      | error e =>
          rw [hroll] at hq'
          cases hq'
  · rintro ⟨front, b, back, hlast, hsuffix⟩
    have hb : b.Underway := h.underway b (by rw [hlast.buffers]; simp)
    rw [hlast.requeueIn_eq, hb.rollBack_eq_ok.mpr ⟨hsuffix, rfl⟩]
    exact ⟨_, rfl⟩

/-! ## Chunks that come back -/

/-- What is handed out when at most `most` bytes are asked for, which may be nothing, and the queue after that. -/
def handOut (most : Nat) (q : OutboundQueue) : Bytes × OutboundQueue :=
  (q.nextChunk most).getD ([], q)

/-- When the end of a chunk is taken back, only its beginning has been handed out. -/
theorem requeue_eq_handOut {q taken : OutboundQueue} {most : Nat} {x y : Bytes} (h : Sequential q.buffers)
    (hn : q.nextChunk most = some (x ++ y, taken)) :
    ∃ back, taken.requeue y = .ok back ∧ q.handOut x.length = (x, back) := by
  obtain ⟨hmost, bs, htake, rfl⟩ := nextChunk_eq_some.mp hn
  obtain ⟨ds, hds, hnone, hsome⟩ := requeueIn_takeFrom hmost h htake
  refine ⟨{ q with buffers := ds }, by rw [requeue, hds]; rfl, ?_⟩
  by_cases hx : x = []
  · rw [hnone hx, hx]
    rfl
  · have hx' : q.nextChunk x.length = some (x, { q with buffers := ds }) :=
      nextChunk_eq_some.mpr ⟨List.length_pos_iff.mpr hx, ds, hsome hx, rfl⟩
    rw [handOut, hx', Option.getD_some]

end OutboundQueue

namespace Ledger

/-- What a queue takes back. -/
structure TakesBack (l : Ledger) : Prop where
  /-- A chunk that was handed out is taken back, and the queue is as it was before. -/
  chunk : ∀ most chunk taken, l.queue.nextChunk most = some (chunk, taken) → taken.requeue chunk = .ok l.queue
  /-- The end of a chunk is taken back, and the queue is as if its beginning only had been asked for. -/
  tail : ∀ most x y taken, l.queue.nextChunk most = some (x ++ y, taken) →
    ∃ back, taken.requeue y = .ok back ∧ l.queue.handOut x.length = (x, back)
  accepts : ∀ chunk, (∃ back, l.queue.requeue chunk = .ok back) ↔ OutboundQueue.EndsFlight l.queue.buffers chunk
  /-- What is not taken back changes nothing. -/
  refuses : ∀ chunk, ¬ OutboundQueue.EndsFlight l.queue.buffers chunk →
    (∃ error, l.queue.requeue chunk = .error error) ∧ l.call (.requeue chunk) = l

/-- Whatever is called on a new queue, it takes back what it handed out last and is not acknowledged, and refuses
everything else. -/
theorem takesBack_after (calls : List QueueCall) : (after calls).TakesBack := by
  have h := (sound_after calls).sequential
  generalize after calls = l at h
  refine ⟨?_, ?_, ?_, ?_⟩
  · intro most chunk taken hn
    exact OutboundQueue.requeue_nextChunk h hn
  · intro most x y taken hn
    exact OutboundQueue.requeue_eq_handOut h hn
  · exact OutboundQueue.requeue_eq_ok_iff h
  · intro chunk hends
    rw [← OutboundQueue.requeue_eq_ok_iff h] at hends
    cases hr : l.queue.requeue chunk with
    | ok back => exact absurd ⟨back, hr⟩ hends
    | error e => exact ⟨⟨e, rfl⟩, by rw [call, hr]⟩

end Ledger
end WebServer
