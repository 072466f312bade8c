import WebServer.Proofs.Output.Journal
import WebServer.Proofs.Output.Requests
import WebServer.Proofs.Transport.Separate

/-! # Output in step

What is written for a session depends on its queue and on its own connection. Two flushes that begin with the same queue
and with connections in the same state therefore offer the same chunks, whatever else their transports carry. -/

namespace WebServer

open Transport (Separate Request)

variable {τ κ σ : Type}

/-- An entry about the session `h` that shows no request but for the connection `conn`. -/
structure Entry.About (h : Handle) (conn : κ) (entry : Entry κ) : Prop where
  handle : entry.handle = h
  conn : ∀ request ∈ entry.request?, request.conn = conn

/-- A transport and the journal of its use. -/
structure Wire (τ κ : Type) where
  transport : τ
  journal : List (Entry κ)

def Outflow.wire (o : Outflow τ κ) : Wire τ κ := ⟨o.transport, o.journal⟩

def Engine.wire (e : Engine τ κ σ) : Wire τ κ := ⟨e.transport, e.journal⟩

variable [Transport τ κ] [Separate τ κ]

/-- From `v` and `v'` on, two wires were used alike for the session `h` of `conn`, and for nothing else. -/
structure Wire.InStep (h : Handle) (conn : κ) (v v' w w' : Wire τ κ) : Prop where
  link : Separate.link w.transport conn = Separate.link w'.transport conn
  others : ∀ other, other ≠ conn → Separate.link w.transport other = Separate.link v.transport other
  others' : ∀ other, other ≠ conn → Separate.link w'.transport other = Separate.link v'.transport other
  gained : ∃ gained, w.journal = gained ++ v.journal ∧ w'.journal = gained ++ v'.journal ∧
    ∀ entry ∈ gained, entry.About h conn

variable {h : Handle} {conn : κ} {v v' w w' : Wire τ κ}

namespace Wire.InStep

theorem refl (hl : Separate.link w.transport conn = Separate.link w'.transport conn) (h : Handle) :
    InStep h conn w w' w w' :=
  ⟨hl, fun _ _ => rfl, fun _ _ => rfl, [], rfl, rfl, by simp⟩

theorem append (s : InStep h conn v v' w w') {more : List (Entry κ)} (hm : ∀ entry ∈ more, entry.About h conn) :
    InStep h conn v v' { w with journal := more ++ w.journal } { w' with journal := more ++ w'.journal } := by
  obtain ⟨gained, hj, hj', hg⟩ := s.gained
  refine ⟨s.link, s.others, s.others', more ++ gained, ?_, ?_, List.forall_mem_append.mpr ⟨hm, hg⟩⟩
  · rw [hj, List.append_assoc]
  · rw [hj', List.append_assoc]

theorem cons (s : InStep h conn v v' w w') {entry : Entry κ} (he : entry.About h conn) :
    InStep h conn v v' { w with journal := entry :: w.journal } { w' with journal := entry :: w'.journal } :=
  s.append (List.forall_mem_singleton.mpr he)

theorem write (s : InStep h conn v v' w w') (chunk : Bytes) :
    InStep h conn v v' { w with transport := (Transport.write w.transport conn chunk).2 }
      { w' with transport := (Transport.write w'.transport conn chunk).2 } :=
  ⟨Separate.link_write s.link chunk,
    fun other hne => (Separate.link_write_of_ne _ hne chunk).trans (s.others other hne),
    fun other hne => (Separate.link_write_of_ne _ hne chunk).trans (s.others' other hne), s.gained⟩

theorem close (s : InStep h conn v v' w w') :
    InStep h conn v v' { w with transport := (Transport.close w.transport conn).2 }
      { w' with transport := (Transport.close w'.transport conn).2 } :=
  ⟨Separate.link_close s.link, fun other hne => (Separate.link_close_of_ne _ hne).trans (s.others other hne),
    fun other hne => (Separate.link_close_of_ne _ hne).trans (s.others' other hne), s.gained⟩

end Wire.InStep

namespace Outflow

/-- Two flushes of the same queue that were in step so far. -/
structure InStep (h : Handle) (conn : κ) (v v' : Wire τ κ) (o o' : Outflow τ κ) : Prop where
  queue : o.queue = o'.queue
  wire : Wire.InStep h conn v v' o.wire o'.wire

variable {o o' : Outflow τ κ}

theorem takeBack_inStep (s : InStep h conn v v' o o') (rest : Bytes) :
    InStep h conn v v' (o.takeBack h rest) (o'.takeBack h rest) := by
  rw [takeBack, takeBack, ← s.queue]
  cases o.queue.requeue rest with
  | ok queue => exact ⟨rfl, s.wire⟩
  | error error =>
      have hlost : (Entry.lost h rest error).About h conn := ⟨rfl, by simp [Entry.request?]⟩
      exact ⟨rfl, s.wire.cons hlost⟩

theorem offer_inStep (s : InStep h conn v v' o o') (segment : Nat) :
    (o.offer h conn segment).1 = (o'.offer h conn segment).1 ∧
      InStep h conn v v' (o.offer h conn segment).2 (o'.offer h conn segment).2 := by
  have hcapacity : Transport.capacity o.transport conn = Transport.capacity o'.transport conn :=
    Separate.capacity_congr s.wire.link
  rw [offer, offer, ← s.queue, ← hcapacity]
  cases o.queue.nextChunk (min (Transport.capacity o.transport conn) segment) with
  | none => exact ⟨rfl, s⟩
  | some next =>
      obtain ⟨chunk, queue⟩ := next
      have houtcome := Separate.write_congr s.wire.link chunk
      have hwrote : Entry.About h conn (.wrote h conn chunk (Transport.write o.transport conn chunk).1) :=
        ⟨rfl, by simp [Entry.request?, Request.conn]⟩
      have hwire := (s.wire.write chunk).cons hwrote
      dsimp only [wire] at houtcome hwire ⊢
      rw [← houtcome]
      generalize Transport.write o.transport conn chunk = result at hwire ⊢
      generalize Transport.write o'.transport conn chunk = result' at hwire ⊢
      obtain ⟨outcome, transport⟩ := result
      have hoffered : InStep h conn v v'
          { transport, queue, journal := .wrote h conn chunk outcome :: o.journal }
          { transport := result'.2, queue, journal := .wrote h conn chunk outcome :: o'.journal } := ⟨rfl, hwire⟩
      cases outcome with
      | error error => exact ⟨rfl, takeBack_inStep hoffered chunk⟩
      | ok taken =>
          dsimp only
          split
          · exact ⟨rfl, hoffered⟩
          · exact ⟨rfl, takeBack_inStep hoffered _⟩

theorem offerLoop_inStep (s : InStep h conn v v' o o') (segment fuel : Nat) :
    InStep h conn v v' (o.offerLoop h conn segment fuel) (o'.offerLoop h conn segment fuel) := by
  induction fuel generalizing o o' with
  | zero => exact s
  | succ fuel ih =>
      obtain ⟨hmore, hoffer⟩ := offer_inStep s segment
      rw [offerLoop, offerLoop]
      generalize o.offer h conn segment = result at hmore hoffer ⊢
      generalize o'.offer h conn segment = result' at hmore hoffer ⊢
      obtain ⟨more, o₁⟩ := result
      obtain ⟨more', o₁'⟩ := result'
      dsimp only at hmore hoffer
      subst hmore
      cases more with
      | true => exact ih hoffer
      | false => exact hoffer

theorem drain_inStep (s : InStep h conn v v' o o') (segment : Nat) :
    InStep h conn v v' (o.drain h conn segment) (o'.drain h conn segment) := by
  rw [drain, drain, ← s.queue]
  exact offerLoop_inStep s segment _

end Outflow
end WebServer
