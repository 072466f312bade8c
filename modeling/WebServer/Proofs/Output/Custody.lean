import WebServer.Engine.Output
import WebServer.Proofs.Outbound.Ledger
import WebServer.Proofs.Output.Flush
import WebServer.Proofs.Output.Journal
import WebServer.Proofs.Transport.Recording

/-! # Custody of bytes

A byte that was queued is with the transport or still in the queue of its session, and never with both. Offering
chunks to a transport keeps it so, whatever part of a chunk the transport takes. -/

namespace WebServer

open Transport (Recording)
open Transport.Recording (taken)

variable {κ : Type}

/-- The queue of a session with the buffers that the journal shows as queued on it. -/
def ledgerOf (h : Handle) (queue : OutboundQueue) (journal : List (Entry κ)) : Ledger where
  queue := queue
  queued := queuedOn h journal

/-- A queue agrees with the journal: it counts as sent the bytes that were taken, which are the first of those
queued. -/
structure Custody (h : Handle) (queue : OutboundQueue) (journal : List (Entry κ)) : Prop where
  sound : (ledgerOf h queue journal).Sound
  taken_eq : takenFrom h journal =
    (queuedOn h journal).flatten.take (ledgerOf h queue journal).stream.sent

theorem takenOf_prefix_chunk (chunk : Bytes) (outcome : Except TransportError Nat) :
    takenOf chunk outcome <+: chunk := by
  cases outcome with
  | ok n => exact List.take_prefix n chunk
  | error error => exact List.nil_prefix

namespace Custody

variable {h : Handle} {queue : OutboundQueue} {journal : List (Entry κ)}

theorem taken_prefix_queued (c : Custody h queue journal) : takenFrom h journal <+: (queuedOn h journal).flatten := by
  rw [c.taken_eq]
  exact List.take_prefix _ _

theorem sent_eq (c : Custody h queue journal) :
    (ledgerOf h queue journal).stream.sent = (takenFrom h journal).length := by
  rw [c.taken_eq, List.length_take]
  exact (Nat.min_eq_left c.sound.cursors_le.2).symm

theorem accepted (h : Handle) (conn : κ) (journal : List (Entry κ)) :
    Custody h .new (.accepted h conn :: journal) := by
  have hledger : ledgerOf h .new (.accepted h conn :: journal) = {} := by
    rw [ledgerOf, queuedOn_accepted]
  refine ⟨?_, ?_⟩
  · rw [hledger]
    exact Ledger.sound_new 0
  · rw [takenFrom_accepted, queuedOn_accepted]
    rfl

theorem cons_apart (c : Custody h queue journal) {entry : Entry κ} (ha : entry.Apart h) :
    Custody h queue (entry :: journal) := by
  have hledger : ledgerOf h queue (entry :: journal) = ledgerOf h queue journal := by
    rw [ledgerOf, queuedOn_cons_apart ha, ledgerOf]
  refine ⟨?_, ?_⟩
  · rw [hledger]
    exact c.sound
  · rw [takenFrom_cons_apart ha, queuedOn_cons_apart ha, hledger]
    exact c.taken_eq

theorem grown_other [DecidableEq κ] (c : Custody h queue journal) {h' : Handle} (hh : h' ≠ h) {conn : κ}
    {grown : List (Entry κ)} (hg : GrownBy h' conn journal grown) : Custody h queue grown := by
  induction hg with
  | same => exact c
  | more he _ ih => exact ih.cons_apart (he.apart h hh)

theorem queued (c : Custody h queue journal) {data : Bytes} {queue' : OutboundQueue}
    (he : queue.enqueue data = .ok queue') : Custody h queue' (.queued h data :: journal) := by
  have hqueued : queuedOn h (.queued h data :: journal) = queuedOn h journal ++ [data] := by
    rw [queuedOn_cons rfl]
    simp [Entry.queuedOn]
  have htaken : takenFrom h (.queued h data :: journal) = takenFrom h journal := by
    rw [takenFrom_cons rfl]
    simp [Entry.takenFrom]
  have hledger : ledgerOf h queue' (.queued h data :: journal) = ⟨queue', queuedOn h journal ++ [data], 0⟩ := by
    rw [ledgerOf, hqueued]
  obtain ⟨hsound, hstream⟩ := c.sound.enqueue he
  have hsent : (ledgerOf h queue' (.queued h data :: journal)).stream.sent =
      (ledgerOf h queue journal).stream.sent := by
    rw [hledger]
    exact (congrArg ByteStream.sent hstream).trans rfl
  refine ⟨?_, ?_⟩
  · rw [hledger]
    exact hsound
  · have hle : (ledgerOf h queue journal).stream.sent ≤ (queuedOn h journal).flatten.length :=
      c.sound.cursors_le.2
    rw [hsent, htaken, hqueued, List.flatten_append, List.take_append_of_le_length hle]
    exact c.taken_eq

theorem acknowledged (c : Custody h queue journal) (count : Nat) :
    Custody h (queue.acknowledge count).2 journal := by
  obtain ⟨hsound, -, hstream⟩ := c.sound.acknowledge count
  have hsent : (ledgerOf h (queue.acknowledge count).2 journal).stream.sent =
      (ledgerOf h queue journal).stream.sent := (congrArg ByteStream.sent hstream).trans rfl
  exact ⟨hsound, hsent ▸ c.taken_eq⟩

/-- What a transport takes of the next chunk are the next bytes of the stream. -/
theorem takenFrom_wrote (c : Custody h queue journal) {most : Nat} {chunk : Bytes} {queue' : OutboundQueue}
    (hn : queue.nextChunk most = some (chunk, queue')) (conn : κ) (outcome : Except TransportError Nat) :
    takenFrom h (.wrote h conn chunk outcome :: journal) = (queuedOn h journal).flatten.take
      ((ledgerOf h queue journal).stream.sent + (takenOf chunk outcome).length) := by
  obtain ⟨hsound, -, -, hchunk, hstream⟩ := c.sound.nextChunk hn
  have hend := hsound.cursors_le.2
  rw [hstream] at hend
  rw [Bytes.slice, if_pos ⟨Nat.le_add_right _ _, hend⟩, Nat.add_sub_cancel_left] at hchunk
  have hpart : takenOf chunk outcome <+:
      (queuedOn h journal).flatten.drop (ledgerOf h queue journal).stream.sent := by
    refine (takenOf_prefix_chunk chunk outcome).trans ?_
    rw [hchunk]
    exact List.take_prefix _ _
  rw [takenFrom_cons rfl, c.taken_eq, List.take_add, ← List.prefix_iff_eq_take.mp hpart]
  simp [Entry.takenFrom]

/-- A queue that counts as sent what was taken of the next chunk agrees with the journal of the write. -/
theorem wrote (c : Custody h queue journal) {most : Nat} {chunk : Bytes} {queue' back : OutboundQueue}
    (hn : queue.nextChunk most = some (chunk, queue')) (conn : κ) (outcome : Except TransportError Nat)
    (hsound : (ledgerOf h back journal).Sound)
    (hsent : (ledgerOf h back journal).stream.sent =
      (ledgerOf h queue journal).stream.sent + (takenOf chunk outcome).length) :
    Custody h back (.wrote h conn chunk outcome :: journal) := by
  have hqueued : queuedOn h (.wrote h conn chunk outcome :: journal) = queuedOn h journal := by
    rw [queuedOn_cons rfl]
    exact List.append_nil _
  have hledger : ledgerOf h back (.wrote h conn chunk outcome :: journal) = ledgerOf h back journal := by
    rw [ledgerOf, hqueued, ledgerOf]
  refine ⟨?_, ?_⟩
  · rw [hledger]
    exact hsound
  · rw [c.takenFrom_wrote hn, hledger, hqueued, hsent]

theorem wrote_all (c : Custody h queue journal) {most : Nat} {chunk : Bytes} {queue' : OutboundQueue}
    (hn : queue.nextChunk most = some (chunk, queue')) (conn : κ) {outcome : Except TransportError Nat}
    (hall : takenOf chunk outcome = chunk) :
    Custody h queue' (.wrote h conn chunk outcome :: journal) := by
  obtain ⟨hsound, -, -, -, hstream⟩ := c.sound.nextChunk hn
  refine c.wrote hn conn outcome hsound ?_
  rw [hall]
  exact (congrArg ByteStream.sent hstream).trans rfl

/-- What a transport leaves of a chunk goes back to the queue, which never refuses it. -/
theorem wrote_part (c : Custody h queue journal) {most : Nat} {chunk rest : Bytes} {queue' : OutboundQueue}
    (hn : queue.nextChunk most = some (chunk, queue')) (conn : κ) {outcome : Except TransportError Nat}
    (hrest : takenOf chunk outcome ++ rest = chunk) :
    ∃ back, queue'.requeue rest = .ok back ∧ Custody h back (.wrote h conn chunk outcome :: journal) := by
  obtain ⟨hsound, -, -, -, hstream⟩ := c.sound.nextChunk hn
  obtain ⟨back, hback⟩ := c.sound.requeue_nextChunk (x := takenOf chunk outcome) (y := rest) (hrest ▸ hn)
  obtain ⟨hsound', -, hstream'⟩ := hsound.requeue hback
  refine ⟨back, hback, c.wrote hn conn outcome hsound' ?_⟩
  have hout : (ledgerOf h queue' journal).stream.sent =
      (ledgerOf h queue journal).stream.sent + chunk.length := (congrArg ByteStream.sent hstream).trans rfl
  have hin : (ledgerOf h back journal).stream.sent =
      (ledgerOf h queue' journal).stream.sent - rest.length := (congrArg ByteStream.sent hstream').trans rfl
  have hlen := congrArg List.length hrest
  rw [List.length_append] at hlen
  omega

end Custody

/-- In a journal in order, the bytes taken from a session are at every moment the first of those queued on it, and
none was lost. -/
structure InOrder (journal : List (Entry κ)) : Prop where
  taken_prefix_queued : ∀ past, past <:+ journal → ∀ h, takenFrom h past <+: (queuedOn h past).flatten
  kept : ∀ h rest error, .lost h rest error ∉ journal

namespace InOrder

variable {journal : List (Entry κ)}

theorem nil : InOrder ([] : List (Entry κ)) where
  taken_prefix_queued past hp h := by
    rw [List.suffix_nil.mp hp]
    exact List.nil_prefix
  kept := by simp

theorem cons (o : InOrder journal) {entry : Entry κ}
    (hp : ∀ h, takenFrom h (entry :: journal) <+: (queuedOn h (entry :: journal)).flatten)
    (hkept : ∀ h rest error, entry ≠ .lost h rest error) : InOrder (entry :: journal) where
  taken_prefix_queued past hpast := by
    rcases List.suffix_cons_iff.mp hpast with rfl | hpast
    · exact hp
    · exact o.taken_prefix_queued past hpast
  kept h rest error hm := by
    rcases List.mem_cons.mp hm with he | hm
    · exact hkept h rest error he.symm
    · exact o.kept h rest error hm

/-- An entry about one session leaves the order of all others. -/
theorem cons_custody (o : InOrder journal) {entry : Entry κ} {h : Handle} {queue : OutboundQueue}
    (c : Custody h queue (entry :: journal)) (hapart : ∀ h', h ≠ h' → entry.Apart h')
    (hkept : ∀ h rest error, entry ≠ .lost h rest error) : InOrder (entry :: journal) := by
  refine o.cons (fun h' => ?_) hkept
  by_cases he : h = h'
  · exact he ▸ c.taken_prefix_queued
  · rw [takenFrom_cons_apart (hapart h' he), queuedOn_cons_apart (hapart h' he)]
    exact o.taken_prefix_queued journal (List.suffix_refl _) h'

end InOrder

/-! ## Offering chunks -/

section

variable {τ : Type} [DecidableEq κ] [Transport τ κ] [Recording τ κ]

/-- The transport has taken over every connection what it started with and what the journal shows. -/
def Recorded (start : κ → Bytes) (transport : τ) (journal : List (Entry κ)) : Prop :=
  ∀ conn, taken transport conn = start conn ++ takenOver conn journal

theorem Recorded.wrote {start : κ → Bytes} {transport : τ} {journal : List (Entry κ)}
    (r : Recorded start transport journal) (h : Handle) (conn : κ) (chunk : Bytes) :
    Recorded start (Transport.write transport conn chunk).2
      (.wrote h conn chunk (Transport.write transport conn chunk).1 :: journal) := by
  intro c
  rw [takenOver_cons, ← List.append_assoc, ← r c]
  by_cases hc : c = conn
  · subst hc
    cases hw : Transport.write transport c chunk with
    | mk outcome transport' =>
        cases outcome with
        | ok n =>
            rw [Recording.taken_write_ok _ _ _ _ _ hw]
            simp [Entry.takenOver, takenOf]
        | error error =>
            rw [Recording.taken_write_error _ _ _ _ _ hw]
            simp [Entry.takenOver, takenOf]
  · rw [Recording.taken_write_other _ _ _ _ hc]
    simp [Entry.takenOver, Ne.symm hc]

/-- A queue on its way to a transport that agrees with the journal and the transport. -/
structure Outflow.Faithful (start : κ → Bytes) (h : Handle) (o : Outflow τ κ) : Prop where
  custody : Custody h o.queue o.journal
  inOrder : InOrder o.journal
  recorded : Recorded start o.transport o.journal

namespace Outflow.Faithful

variable {start : κ → Bytes} {h : Handle} {o : Outflow τ κ} {journal : List (Entry κ)}

theorem wrote (f : o.Faithful start h) {conn : κ} {chunk : Bytes} {outcome : Except TransportError Nat}
    {transport : τ} (hw : Transport.write o.transport conn chunk = (outcome, transport))
    {queue : OutboundQueue} (c : Custody h queue (.wrote h conn chunk outcome :: o.journal)) :
    Faithful start h { transport, queue, journal := .wrote h conn chunk outcome :: o.journal } where
  custody := c
  inOrder := f.inOrder.cons_custody c (fun _ hne => Entry.apart_wrote hne conn chunk outcome)
    fun _ _ _ he => by simp at he
  recorded := by
    have hr := f.recorded.wrote h conn chunk
    rwa [hw] at hr

/-- Offering a chunk keeps the agreement, whatever the transport makes of it. -/
theorem offer (f : o.Faithful start h) {conn : κ} (hg : GrownBy h conn journal o.journal)
    (segment : Nat) :
    (o.offer h conn segment).2.Faithful start h ∧
      GrownBy h conn journal (o.offer h conn segment).2.journal := by
  rw [Outflow.offer]
  split
  · exact ⟨f, hg⟩
  · rename_i chunk queue hn
    dsimp only
    generalize hw : Transport.write o.transport conn chunk = result
    obtain ⟨outcome, transport⟩ := result
    have hgrown : GrownBy h conn journal (.wrote h conn chunk outcome :: o.journal) :=
      .more (Entry.concerns_wrote h conn chunk outcome) hg
    -- A chunk that was not taken as a whole is given back from where the transport stopped.
    have hback {rest : Bytes} (hrest : takenOf chunk outcome ++ rest = chunk) :
        Faithful start h (takeBack h
          { transport, queue, journal := .wrote h conn chunk outcome :: o.journal } rest) ∧
        GrownBy h conn journal (takeBack h
          { transport, queue, journal := .wrote h conn chunk outcome :: o.journal } rest).journal := by
      obtain ⟨back, hback, c⟩ := f.custody.wrote_part hn conn hrest
      rw [takeBack, hback]
      exact ⟨f.wrote hw c, hgrown⟩
    cases outcome with
    | ok n =>
        dsimp only
        split
        · rename_i hle
          exact ⟨f.wrote hw (f.custody.wrote_all hn conn (List.take_of_length_le hle)), hgrown⟩
        · exact hback (List.take_append_drop n chunk)
    | error error => exact hback (List.nil_append chunk)

theorem offerLoop (f : o.Faithful start h) {conn : κ} (hg : GrownBy h conn journal o.journal)
    (segment fuel : Nat) :
    (o.offerLoop h conn segment fuel).Faithful start h ∧
      GrownBy h conn journal (o.offerLoop h conn segment fuel).journal :=
  offerLoop_keep (I := fun o => o.Faithful start h ∧ GrownBy h conn journal o.journal)
    (fun _ hk => hk.1.offer hk.2 segment) fuel ⟨f, hg⟩

end Outflow.Faithful

end

end WebServer
