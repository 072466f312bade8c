import WebServer.Engine.Output
import WebServer.Proofs.Outbound.Operations

/-! # What a flush leaves alone

A flush moves the cursors of what is handed out. It neither adds nor removes a buffer, and concerns no session but its
own. -/

namespace WebServer

namespace OutboundQueue

/-- Queues that hold the same, whatever of it is handed out. -/
structure SameContents (q q' : OutboundQueue) : Prop where
  layout : SameLayout q.buffers q'.buffers
  released : q'.released = q.released

namespace SameContents

variable {q q' q'' : OutboundQueue}

theorem refl (q : OutboundQueue) : SameContents q q := ⟨.refl q.buffers, rfl⟩

theorem trans (h : SameContents q q') (h' : SameContents q' q'') : SameContents q q'' :=
  ⟨⟨h'.layout.data.trans h.layout.data, h'.layout.acknowledged.trans h.layout.acknowledged⟩,
    h'.released.trans h.released⟩

theorem length_eq (h : SameContents q q') : q'.buffers.length = q.buffers.length := by
  simpa using congrArg List.length h.layout.data

end SameContents

theorem SameLayout.of_takeFrom {most : Nat} {bs cs : List OutboundBuffer} {chunk : Bytes}
    (ht : takeFrom most bs = some (chunk, cs)) : SameLayout bs cs := by
  induction bs generalizing cs chunk with
  | nil => simp [takeFrom] at ht
  | cons b bs ih =>
      rw [takeFrom] at ht
      split at ht
      · obtain ⟨-, rfl⟩ := Prod.mk.inj (Option.some.inj ht)
        exact .cons b _ (.refl bs)
      · obtain ⟨⟨chunk', cs'⟩, htail, heq⟩ := Option.map_eq_some_iff.mp ht
        obtain ⟨-, rfl⟩ := Prod.mk.inj heq
        exact .cons b b.sent (ih htail)

theorem SameLayout.of_requeueIn {bs cs : List OutboundBuffer} {chunk : Bytes} (hin : requeueIn chunk bs = .ok cs) :
    SameLayout bs cs := by
  induction bs generalizing cs with
  | nil => simp [requeueIn] at hin
  | cons b bs ih =>
      rw [requeueIn] at hin
      split at hin
      · rename_i cs' htail
        rw [← Except.ok.inj hin]
        exact .cons b b.sent (ih htail)
      · split at hin
        · cases hb : b.rollBack chunk with
          | error e => simp [hb, Except.map] at hin
          | ok c =>
              rw [hb] at hin
              obtain ⟨-, -, rfl⟩ := rollBack_eq_ok.mp hb
              rw [← Except.ok.inj hin]
              exact .cons b _ (.refl bs)
        · simp at hin
      · simp at hin

theorem SameContents.of_nextChunk {q q' : OutboundQueue} {most : Nat} {chunk : Bytes}
    (hn : q.nextChunk most = some (chunk, q')) : SameContents q q' := by
  obtain ⟨-, cs, htake, rfl⟩ := nextChunk_eq_some.mp hn
  exact ⟨.of_takeFrom htake, rfl⟩

theorem SameContents.of_requeue {q q' : OutboundQueue} {chunk : Bytes} (hr : q.requeue chunk = .ok q') :
    SameContents q q' := by
  rw [requeue] at hr
  cases hin : requeueIn chunk q.buffers with
  | error e => simp [hin, Except.map] at hr
  | ok cs =>
      rw [hin] at hr
      rw [← Except.ok.inj hr]
      exact ⟨.of_requeueIn hin, rfl⟩

end OutboundQueue

namespace Outflow

variable {τ κ : Type} [Transport τ κ]

omit [Transport τ κ] in
theorem takeBack_contents {q : OutboundQueue} {o : Outflow τ κ} (hq : q.SameContents o.queue) (h : Handle)
    (rest : Bytes) : q.SameContents (o.takeBack h rest).queue := by
  rw [takeBack]
  split
  · rename_i hr
    exact hq.trans (.of_requeue hr)
  · exact hq

omit [Transport τ κ] in
theorem takeBack_transport (h : Handle) (o : Outflow τ κ) (rest : Bytes) : (o.takeBack h rest).transport = o.transport := by
  rw [takeBack]
  split <;> rfl

/-- An offer asks the transport for one write at most. -/
theorem offer_transport (h : Handle) (conn : κ) (segment : Nat) (o : Outflow τ κ) :
    (o.offer h conn segment).2.transport = o.transport ∨
      ∃ chunk, (o.offer h conn segment).2.transport = (Transport.write o.transport conn chunk).2 := by
  rw [offer]
  split
  · exact .inl rfl
  · rename_i chunk _ _
    refine .inr ⟨chunk, ?_⟩
    dsimp only
    split
    · split
      · rfl
      · exact takeBack_transport ..
    · exact takeBack_transport ..

theorem offer_contents {q : OutboundQueue} {o : Outflow τ κ} (hq : q.SameContents o.queue) (h : Handle) (conn : κ)
    (segment : Nat) : q.SameContents (o.offer h conn segment).2.queue := by
  rw [offer]
  split
  · exact hq
  · rename_i hn
    have htaken := hq.trans (.of_nextChunk hn)
    dsimp only
    split
    · split
      · exact htaken
      · exact takeBack_contents htaken h _
    · exact takeBack_contents htaken h _

/-- What every offer keeps, offering chunk after chunk keeps. -/
theorem offerLoop_keep {I : Outflow τ κ → Prop} {h : Handle} {conn : κ} {segment : Nat}
    (hI : ∀ o, I o → I (o.offer h conn segment).2) (fuel : Nat) {o : Outflow τ κ} (ho : I o) :
    I (o.offerLoop h conn segment fuel) := by
  induction fuel generalizing o with
  | zero => exact ho
  | succ fuel ih =>
      have hoffer := hI o ho
      rw [offerLoop]
      generalize o.offer h conn segment = result at hoffer
      obtain ⟨more, o'⟩ := result
      cases more with
      | true => exact ih hoffer
      | false => exact hoffer

theorem offerLoop_contents (h : Handle) (conn : κ) (segment fuel : Nat) (o : Outflow τ κ) :
    o.queue.SameContents (o.offerLoop h conn segment fuel).queue :=
  offerLoop_keep (I := fun o' => o.queue.SameContents o'.queue) (fun _ hq => offer_contents hq h conn segment) fuel
    (.refl o.queue)

end Outflow

namespace Engine

variable {τ κ σ : Type} [Transport τ κ]

theorem flush_of_none {e : Engine τ κ σ} {h : Handle} (hs : e.session? h = none) : e.flush h = e := by
  rw [flush, hs]

theorem flush_registry {e : Engine τ κ σ} {h : Handle} {t : Session κ} (hs : e.session? h = some t) :
    ∃ queue, queue.buffers.length = t.outbound.buffers.length ∧
      (e.flush h).registry = e.registry.update h fun u => { u with outbound := queue } := by
  rw [flush, hs]
  exact ⟨_, (Outflow.offerLoop_contents ..).length_eq, rfl⟩

end Engine
end WebServer
