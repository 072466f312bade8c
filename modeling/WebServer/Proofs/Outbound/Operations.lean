import WebServer.Proofs.Outbound.Sequential

/-! # Handing out, taking back and acknowledging

What each operation does to buffers in sequence, in terms of the bytes that they hold together. -/

namespace WebServer.OutboundQueue

/-- Buffers with the same bytes of which as much is acknowledged. -/
structure SameLayout (bs cs : List OutboundBuffer) : Prop where
  data : cs.map OutboundBuffer.data = bs.map OutboundBuffer.data
  acknowledged : cs.map OutboundBuffer.acknowledged = bs.map OutboundBuffer.acknowledged

namespace SameLayout

variable {bs cs : List OutboundBuffer}

theorem refl (bs : List OutboundBuffer) : SameLayout bs bs := ⟨rfl, rfl⟩

theorem cons (b : OutboundBuffer) (sent : Nat) (h : SameLayout bs cs) :
    SameLayout (b :: bs) ({ b with sent } :: cs) := by
  constructor
  · rw [List.map_cons, List.map_cons, h.data]
  · rw [List.map_cons, List.map_cons, h.acknowledged]

theorem acknowledgedOf_eq (h : SameLayout bs cs) : acknowledgedOf cs = acknowledgedOf bs := by
  rw [acknowledgedOf, acknowledgedOf, total_eq_foldr, total_eq_foldr, h.acknowledged]

theorem untouched (h : SameLayout bs cs) (hack : ∀ b ∈ bs, b.acknowledged = 0) :
    ∀ c ∈ cs, c.acknowledged = 0 := by
  intro c hc
  have hm : c.acknowledged ∈ bs.map OutboundBuffer.acknowledged :=
    h.acknowledged ▸ List.mem_map_of_mem hc
  obtain ⟨b, hb, he⟩ := List.mem_map.mp hm
  rw [← he, hack b hb]

end SameLayout

/-! ## Handing out -/

/-- `chunk` is the run of bytes behind the sent cursor of `bs`, and `cs` are the buffers after it was handed out. -/
structure Taken (bs : List OutboundBuffer) (most : Nat) (chunk : Bytes) (cs : List OutboundBuffer) : Prop where
  pos : 0 < chunk.length
  le_most : chunk.length ≤ most
  chunk_eq : chunk = ((bytesOf bs).drop (sentOf bs)).take chunk.length
  sentOf_eq : sentOf cs = sentOf bs + chunk.length
  layout : SameLayout bs cs
  sequential : Sequential cs

theorem drop_bytesOf_cons (b : OutboundBuffer) (bs : List OutboundBuffer) (k : Nat) :
    (bytesOf (b :: bs)).drop (b.data.length + k) = (bytesOf bs).drop k := by
  rw [bytesOf_cons, List.drop_append, List.drop_of_length_le (Nat.le_add_right _ _), List.nil_append,
    Nat.add_sub_cancel_left]

/-- What is handed out behind a buffer that was handed out in full. -/
theorem Taken.cons {b : OutboundBuffer} {bs cs : List OutboundBuffer} {most : Nat} {chunk : Bytes}
    (t : Taken bs most chunk cs) (hb : b.Underway) (hfull : b.sent = b.data.length)
    (hack : ∀ c ∈ bs, c.acknowledged = 0) : Taken (b :: bs) most chunk (b :: cs) where
  pos := t.pos
  le_most := t.le_most
  chunk_eq := by
    rw [sentOf_cons, hfull, drop_bytesOf_cons]
    exact t.chunk_eq
  sentOf_eq := by rw [sentOf_cons, sentOf_cons, t.sentOf_eq, Nat.add_assoc]
  layout := .cons b b.sent t.layout
  sequential := ⟨hb, fun hlt => absurd hfull (Nat.ne_of_lt hlt), t.layout.untouched hack, t.sequential⟩

/-- Nothing is handed out exactly when everything was. -/
theorem takeFrom_eq_none {bs : List OutboundBuffer} (h : Sequential bs) (most : Nat) :
    takeFrom most bs = none ↔ sentOf bs = (bytesOf bs).length := by
  induction bs with
  | nil => simp [takeFrom]
  | cons b bs ih =>
      obtain ⟨hb, -, -, hbs⟩ := h
      have hle := hb.sent_le
      have hrest := sentOf_le_length hbs
      simp only [OutboundBuffer.size] at hle
      rw [takeFrom, sentOf_cons, bytesOf_cons, List.length_append]
      split
      · rename_i hun
        simp only [OutboundBuffer.unsent, OutboundBuffer.size] at hun
        simp only [reduceCtorEq, false_iff]
        omega
      · rename_i hun
        simp only [OutboundBuffer.unsent, OutboundBuffer.size] at hun
        rw [Option.map_eq_none_iff, ih hbs]
        omega

theorem takeFrom_taken {most : Nat} (hmost : 0 < most) {bs cs : List OutboundBuffer} {chunk : Bytes}
    (h : Sequential bs) (ht : takeFrom most bs = some (chunk, cs)) : Taken bs most chunk cs := by
  induction bs generalizing cs with
  | nil => simp [takeFrom] at ht
  | cons b bs ih =>
      obtain ⟨hb, hsent, hack, hbs⟩ := h
      have hle := hb.sent_le
      rw [takeFrom] at ht
      split at ht
      · rename_i hun
        simp only [OutboundBuffer.unsent, OutboundBuffer.size] at hun hle
        simp only [Option.some.injEq, Prod.mk.injEq] at ht
        obtain ⟨rfl, rfl⟩ := ht
        have hzero : sentOf bs = 0 := sentOf_eq_zero (hsent (by simp only [OutboundBuffer.size]; omega))
        have hlen : ((b.data.drop b.sent).take (min b.unsent most)).length = min b.unsent most := by
          rw [List.length_take, List.length_drop, OutboundBuffer.unsent, OutboundBuffer.size]
          omega
        refine ⟨?_, ?_, ?_, ?_, .cons b _ (.refl bs), ?_⟩
        · rw [hlen, OutboundBuffer.unsent, OutboundBuffer.size]
          omega
        · rw [hlen]
          exact Nat.min_le_right _ _
        · rw [hlen, sentOf_cons, hzero, Nat.add_zero, bytesOf_cons, List.drop_append_of_le_length hle,
            List.take_append_of_le_length]
          rw [List.length_drop, OutboundBuffer.unsent, OutboundBuffer.size]
          exact Nat.min_le_left _ _
        · rw [hlen, sentOf_cons, sentOf_cons]
          exact Nat.add_right_comm _ _ _
        · have hack_le := hb.acknowledged_le
          refine ⟨⟨?_, ?_, hb.acknowledged_lt⟩, ?_, hack, hbs⟩
          · exact Nat.le_add_right_of_le hack_le
          · simp only [OutboundBuffer.unsent, OutboundBuffer.size]
            omega
          · intro _
            exact hsent (by simp only [OutboundBuffer.size]; omega)
      · rename_i hun
        simp only [OutboundBuffer.unsent, OutboundBuffer.size] at hun hle
        obtain ⟨⟨chunk', cs'⟩, htail, heq⟩ := Option.map_eq_some_iff.mp ht
        simp only [Prod.mk.injEq] at heq
        obtain ⟨rfl, rfl⟩ := heq
        exact (ih hbs htail).cons hb (by omega) hack

/-! ## Taking back -/

/-- `chunk` is the run of bytes before the sent cursor of `bs`, and `cs` are the buffers after it was taken back. -/
structure TakenBack (bs : List OutboundBuffer) (chunk : Bytes) (cs : List OutboundBuffer) : Prop where
  chunk_eq : chunk = ((bytesOf bs).drop (sentOf cs)).take chunk.length
  sentOf_eq : sentOf cs + chunk.length = sentOf bs
  layout : SameLayout bs cs
  sequential : Sequential cs

/-- What is taken back behind a buffer that was handed out in full. -/
theorem TakenBack.cons {b : OutboundBuffer} {bs cs : List OutboundBuffer} {chunk : Bytes} (t : TakenBack bs chunk cs)
    (hb : b.Underway) (hfull : b.sent = b.data.length) (hack : ∀ c ∈ bs, c.acknowledged = 0) :
    TakenBack (b :: bs) chunk (b :: cs) where
  chunk_eq := by
    rw [sentOf_cons, hfull, drop_bytesOf_cons]
    exact t.chunk_eq
  sentOf_eq := by rw [sentOf_cons, sentOf_cons, Nat.add_assoc, t.sentOf_eq]
  layout := .cons b b.sent t.layout
  sequential := ⟨hb, fun hlt => absurd hfull (Nat.ne_of_lt hlt), t.layout.untouched hack, t.sequential⟩

/-- A buffer rolls back exactly the last bytes that it handed out and that are not acknowledged. -/
theorem rollBack_eq_ok {b c : OutboundBuffer} {chunk : Bytes} :
    b.rollBack chunk = .ok c ↔
      chunk.length ≤ b.inFlight ∧ (b.data.drop (b.sent - chunk.length)).take chunk.length = chunk ∧
        c = { b with sent := b.sent - chunk.length } := by
  rw [OutboundBuffer.rollBack]
  split
  · rename_i hlt
    simp only [reduceCtorEq, false_iff]
    omega
  · rename_i hle
    dsimp only
    split
    · rename_i heq
      simp only [Except.ok.injEq]
      exact ⟨fun h => ⟨Nat.le_of_not_lt hle, heq, h.symm⟩, fun h => h.2.2.symm⟩
    · rename_i hne
      simp only [reduceCtorEq, false_iff]
      exact fun h => hne h.2.1

/-- A buffer that has handed out `x ++ y` rolls back `y`. -/
theorem rollBack_append {b : OutboundBuffer} (hb : b.Underway) {n : Nat} (hn : b.sent + n ≤ b.data.length) {x y : Bytes}
    (hxy : (b.data.drop b.sent).take n = x ++ y) :
    x.length + y.length = n ∧ (b.data.drop b.sent).take x.length = x ∧
      ({ b with sent := b.sent + n } : OutboundBuffer).rollBack y = .ok { b with sent := b.sent + x.length } := by
  have hlen : x.length + y.length = n := by
    rw [← List.length_append, ← hxy, List.length_take, List.length_drop]
    omega
  have hx : (b.data.drop b.sent).take x.length = x := by
    have htake := congrArg (List.take x.length) hxy
    rwa [List.take_take, List.take_left, Nat.min_eq_left (by omega)] at htake
  have hy : (b.data.drop (b.sent + x.length)).take y.length = y := by
    have hdrop := congrArg (List.drop x.length) hxy
    rwa [List.drop_take, List.drop_drop, List.drop_left, show n - x.length = y.length by omega] at hdrop
  have hack := hb.acknowledged_le
  refine ⟨hlen, hx, rollBack_eq_ok.mpr ?_⟩
  simp only [OutboundBuffer.inFlight, show b.sent + n - y.length = b.sent + x.length by omega]
  exact ⟨by omega, hy, trivial⟩

theorem rollBack_ne_nothingSent (b : OutboundBuffer) (chunk : Bytes) :
    b.rollBack chunk ≠ .error .nothingSent := by
  rw [OutboundBuffer.rollBack]
  split
  · simp
  · dsimp only
    split <;> simp

theorem requeueIn_nothingSent (chunk : Bytes) (bs : List OutboundBuffer) :
    requeueIn chunk bs = .error .nothingSent ↔ ∀ b ∈ bs, b.sent = 0 := by
  induction bs with
  | nil => simp [requeueIn]
  | cons b bs ih =>
      rw [requeueIn, List.forall_mem_cons]
      cases htail : requeueIn chunk bs with
      | ok cs =>
          rw [htail] at ih
          simp only [reduceCtorEq, false_iff] at ih ⊢
          exact fun h => ih h.2
      | error e =>
          rw [htail] at ih
          cases e with
          | nothingSent =>
              have hbs : ∀ c ∈ bs, c.sent = 0 := ih.mp rfl
              dsimp only
              split
              · rename_i hpos
                have hroll := rollBack_ne_nothingSent b chunk
                constructor
                · intro h
                  cases hb : b.rollBack chunk with
                  | ok c => simp [hb, Except.map] at h
                  | error e =>
                      simp only [hb, Except.map, Except.error.injEq] at h
                      exact absurd (h ▸ hb) hroll
                · intro h
                  omega
              · rename_i hzero
                simp only [true_iff]
                exact ⟨by omega, hbs⟩
          | empty | requeueExceedsSent | requeueMismatch =>
              simp only [Except.error.injEq, reduceCtorEq, false_iff] at ih ⊢
              exact fun h => ih h.2

theorem requeueIn_takenBack {bs cs : List OutboundBuffer} {chunk : Bytes} (h : Sequential bs)
    (hr : requeueIn chunk bs = .ok cs) : TakenBack bs chunk cs := by
  induction bs generalizing cs with
  | nil => simp [requeueIn] at hr
  | cons b bs ih =>
      obtain ⟨hb, hsent, hack, hbs⟩ := h
      have hle := hb.sent_le
      rw [requeueIn] at hr
      cases htail : requeueIn chunk bs with
      | ok cs' =>
          rw [htail] at hr
          simp only [Except.ok.injEq] at hr
          subst hr
          -- Something behind `b` was handed out, so that all of `b` was.
          have hfull : b.sent = b.size := by
            by_contra hne
            have hzero := (requeueIn_nothingSent chunk bs).mpr (hsent (Nat.lt_of_le_of_ne hle hne))
            rw [htail] at hzero
            simp at hzero
          exact (ih hbs htail).cons hb hfull hack
      | error e =>
          rw [htail] at hr
          cases e with
          | nothingSent =>
              have hzero := (requeueIn_nothingSent chunk bs).mp htail
              have hsum := sentOf_eq_zero hzero
              dsimp only at hr
              split at hr
              · cases hroll : b.rollBack chunk with
                | error e => simp [hroll, Except.map] at hr
                | ok c =>
                    rw [hroll] at hr
                    simp only [Except.map, Except.ok.injEq] at hr
                    subst hr
                    obtain ⟨hfit, heq, rfl⟩ := rollBack_eq_ok.mp hroll
                    rw [OutboundBuffer.inFlight] at hfit
                    have hack_le := hb.acknowledged_le
                    rw [OutboundBuffer.size] at hle
                    refine ⟨?_, ?_, .cons b _ (.refl bs), ?_⟩
                    · rw [sentOf_cons, hsum, Nat.add_zero, bytesOf_cons,
                        List.drop_append_of_le_length (by dsimp only; omega),
                        List.take_append_of_le_length (by rw [List.length_drop]; dsimp only; omega)]
                      exact heq.symm
                    · rw [sentOf_cons, sentOf_cons, hsum]
                      dsimp only
                      omega
                    · refine ⟨⟨?_, ?_, hb.acknowledged_lt⟩, fun _ => hzero, hack, hbs⟩
                      · dsimp only
                        omega
                      · simp only [OutboundBuffer.size]
                        omega
              · simp at hr
          | empty | requeueExceedsSent | requeueMismatch => simp at hr

/-- The end `y` of what was handed out last can be taken back, which leaves the buffers as if only the beginning
`x` had been handed out. -/
theorem requeueIn_takeFrom {most : Nat} (hmost : 0 < most) {bs cs : List OutboundBuffer} {x y : Bytes}
    (h : Sequential bs) (ht : takeFrom most bs = some (x ++ y, cs)) :
    ∃ ds, requeueIn y cs = .ok ds ∧ (x = [] → ds = bs) ∧
      (x ≠ [] → takeFrom x.length bs = some (x, ds)) := by
  induction bs generalizing cs with
  | nil => simp [takeFrom] at ht
  | cons b bs ih =>
      obtain ⟨hb, hsent, -, hbs⟩ := h
      have hle := hb.sent_le
      have hack_le := hb.acknowledged_le
      rw [takeFrom] at ht
      split at ht
      · rename_i hun
        simp only [Option.some.injEq, Prod.mk.injEq] at ht
        obtain ⟨hxy, rfl⟩ := ht
        have hmin := Nat.min_le_left b.unsent most
        have hpos : 0 < min b.unsent most := Nat.lt_min.mpr ⟨hun, hmost⟩
        generalize min b.unsent most = n at hxy hmin hpos
        simp only [OutboundBuffer.unsent, OutboundBuffer.size] at hun hle hmin
        obtain ⟨hlen, hx, hroll⟩ := rollBack_append hb (by omega) hxy
        have hzero : ∀ c ∈ bs, c.sent = 0 := hsent (by rw [OutboundBuffer.size]; omega)
        have htail := (requeueIn_nothingSent y bs).mpr hzero
        refine ⟨{ b with sent := b.sent + x.length } :: bs, ?_, ?_, ?_⟩
        · rw [requeueIn, htail]
          dsimp only
          rw [if_pos (Nat.lt_of_lt_of_le hpos (Nat.le_add_left _ _)), hroll]
          rfl
        · rintro rfl
          rfl
        · intro hne
          have hx_pos := List.length_pos_iff.mpr hne
          have hmin' : min b.unsent x.length = x.length := by
            rw [OutboundBuffer.unsent, OutboundBuffer.size]
            omega
          rw [takeFrom, if_pos (by rw [OutboundBuffer.unsent, OutboundBuffer.size]; omega)]
          dsimp only
          rw [hmin', hx]
      · rename_i hun
        obtain ⟨⟨chunk, cs'⟩, htail, heq⟩ := Option.map_eq_some_iff.mp ht
        simp only [Prod.mk.injEq] at heq
        obtain ⟨rfl, rfl⟩ := heq
        obtain ⟨ds, hds, hnil, hcons⟩ := ih hbs htail
        refine ⟨b :: ds, ?_, ?_, ?_⟩
        · rw [requeueIn, hds]
        · intro hx
          rw [hnil hx]
        · intro hx
          rw [takeFrom, if_neg hun, hcons hx]
          rfl

/-! ## Acknowledging -/

/-- The acknowledged cursor of `bs` was moved by `count` bytes, but not beyond the sent cursor; the first `released`
buffers are complete and gone, and `cs` is left. -/
structure Settled (bs : List OutboundBuffer) (count released : Nat) (cs : List OutboundBuffer) : Prop where
  released_le : released ≤ bs.length
  data : cs.map OutboundBuffer.data = (bs.map OutboundBuffer.data).drop released
  sent : (((bs.map OutboundBuffer.data).take released).flatten.length) + sentOf cs = sentOf bs
  acknowledged : ((bs.map OutboundBuffer.data).take released).flatten.length + acknowledgedOf cs =
    acknowledgedOf bs + min count (sentOf bs - acknowledgedOf bs)
  sequential : Sequential cs

theorem acknowledgeIn_settled {bs : List OutboundBuffer} (h : Sequential bs) (count : Nat) :
    Settled bs count (acknowledgeIn count bs).1 (acknowledgeIn count bs).2 := by
  induction bs generalizing count with
  | nil => exact ⟨Nat.le_refl _, rfl, rfl, by simp [acknowledgeIn], trivial⟩
  | cons b bs ih =>
      obtain ⟨hb, hsent, hack, hbs⟩ := h
      have hle := hb.sent_le
      have hack_le := hb.acknowledged_le
      have hlt := hb.acknowledged_lt
      have hzero := acknowledgedOf_eq_zero hack
      rw [acknowledgeIn]
      dsimp only
      split
      · rename_i hfull
        rw [OutboundBuffer.inFlight] at hfull
        have t := ih hbs (count - min count b.inFlight)
        have hs := t.sent
        have ha := t.acknowledged
        simp only [OutboundBuffer.inFlight, OutboundBuffer.size] at *
        refine ⟨Nat.succ_le_succ t.released_le, t.data, ?_, ?_, t.sequential⟩
        · rw [List.map_cons, List.take_succ_cons, List.flatten_cons, List.length_append, sentOf_cons]
          omega
        · rw [List.map_cons, List.take_succ_cons, List.flatten_cons, List.length_append, sentOf_cons,
            acknowledgedOf_cons]
          omega
      · rename_i hpart
        rw [OutboundBuffer.inFlight] at hpart
        refine ⟨Nat.zero_le _, rfl, by simp, ?_, ?_⟩
        · -- Behind a buffer that is not complete nothing is acknowledged, because the count is used up or nothing is in flight.
          have hrest : b.sent < b.size → sentOf bs = 0 := fun h => sentOf_eq_zero (hsent h)
          simp only [List.take_zero, List.flatten_nil, List.length_nil, Nat.zero_add, sentOf_cons,
            acknowledgedOf_cons, OutboundBuffer.inFlight, hzero, Nat.add_zero]
          omega
        · refine ⟨⟨?_, hle, ?_⟩, hsent, hack, hbs⟩
          · simp only [OutboundBuffer.inFlight]
            omega
          · simp only [OutboundBuffer.inFlight, OutboundBuffer.size] at *
            omega

/-! ## Bytes in flight -/

theorem nextChunk_eq_some {q q' : OutboundQueue} {most : Nat} {chunk : Bytes} :
    q.nextChunk most = some (chunk, q') ↔
      0 < most ∧ ∃ bs, takeFrom most q.buffers = some (chunk, bs) ∧ q' = { q with buffers := bs } := by
  rw [nextChunk]
  split
  · rename_i hmost
    simp [hmost]
  · rename_i hmost
    simp only [Option.map_eq_some_iff, Prod.exists, Prod.mk.injEq, Nat.pos_of_ne_zero hmost, true_and]
    constructor
    · rintro ⟨c, bs, htake, rfl, rfl⟩
      exact ⟨bs, htake, rfl⟩
    · rintro ⟨bs, htake, rfl⟩
      exact ⟨chunk, bs, htake, rfl, rfl⟩

/-- A buffer that was just queued is not in flight. -/
theorem inFlight_enqueue {q q' : OutboundQueue} {data : Bytes} (h : Sequential q.buffers)
    (he : q.enqueue data = .ok q') : Sequential q'.buffers ∧ q'.inFlight = q.inFlight := by
  rw [enqueue] at he
  split at he
  · cases he
  · rename_i hdata
    rw [← Except.ok.inj he]
    refine ⟨h.append_untouched (mt List.isEmpty_iff.mpr hdata), ?_⟩
    simp only [inFlight, total_append]
    rfl

/-- A chunk that was handed out is in flight. -/
theorem inFlight_nextChunk {q q' : OutboundQueue} {most : Nat} {chunk : Bytes} (h : Sequential q.buffers)
    (hn : q.nextChunk most = some (chunk, q')) :
    Sequential q'.buffers ∧ chunk.length ≤ most ∧ q'.inFlight = q.inFlight + chunk.length := by
  obtain ⟨hmost, bs, htake, rfl⟩ := nextChunk_eq_some.mp hn
  have t := takeFrom_taken hmost h htake
  have hle := acknowledgedOf_le_sentOf h
  refine ⟨t.sequential, t.le_most, ?_⟩
  rw [inFlight, inFlight, total_inFlight t.sequential, total_inFlight h, t.sentOf_eq, t.layout.acknowledgedOf_eq]
  omega

/-- Taking back all of a chunk undoes handing it out. -/
theorem requeue_nextChunk {q q' : OutboundQueue} {most : Nat} {chunk : Bytes} (h : Sequential q.buffers)
    (hn : q.nextChunk most = some (chunk, q')) : q'.requeue chunk = .ok q := by
  obtain ⟨hmost, bs, htake, rfl⟩ := nextChunk_eq_some.mp hn
  obtain ⟨ds, hds, hall, -⟩ := requeueIn_takeFrom (x := []) hmost h htake
  rw [requeue, hds, hall rfl]
  rfl

/-- What is acknowledged is no longer in flight. -/
theorem inFlight_acknowledge {q : OutboundQueue} (h : Sequential q.buffers) (count : Nat) :
    Sequential (q.acknowledge count).2.buffers ∧ (q.acknowledge count).2.inFlight = q.inFlight - count := by
  have t := acknowledgeIn_settled h count
  have hsent := t.sent
  have hack := t.acknowledged
  have hle := acknowledgedOf_le_sentOf h
  refine ⟨t.sequential, ?_⟩
  change total OutboundBuffer.inFlight (acknowledgeIn count q.buffers).2 = total OutboundBuffer.inFlight q.buffers - count
  rw [total_inFlight t.sequential, total_inFlight h]
  omega

end WebServer.OutboundQueue
