import WebServer.Proofs.Inbound.Waiting

/-! # Fragments of a message

A message that comes in several frames is kept until its last frame. No more of it than the limit is ever kept. -/

namespace WebServer

variable {τ κ σ : Type}

/-- What has come of an unfinished message is within a limit, on every session. -/
def Registry.FragmentsWithin (limit : Nat) (r : Registry κ) : Prop :=
  ∀ t ∈ r.sessions, ∀ fragment ∈ t.fragment, fragment.data.length ≤ limit

theorem Registry.FragmentsWithin.update {limit : Nat} {r : Registry κ} (f : r.FragmentsWithin limit) {h : Handle}
    {g : Session κ → Session κ}
    (hg : ∀ t, (g t).fragment = t.fragment ∨ ∀ fragment ∈ (g t).fragment, fragment.data.length ≤ limit) :
    (r.update h g).FragmentsWithin limit := by
  intro t ht
  obtain ⟨u, hu, rfl⟩ := Registry.mem_update.mp ht
  split
  · rcases hg u with hsame | hwithin
    · exact hsame ▸ f u hu
    · exact hwithin
  · exact f u hu

section

variable {lic : License τ} {e e' : Engine τ κ σ} {h : Handle} {limit : Nat}

/-- Where no message is taken off, no session gets another fragment. -/
theorem Effect.fragment {u : Session κ} {gained : List (Entry κ)} (he : Effect lic e h (some u) gained)
    (ht : ¬lic.takes) : u.fragment = none ∨ ∃ t, e.session? h = some t ∧ u.fragment = t.fragment := by
  generalize hu : some u = u? at he
  cases he with
  | accepted => exact .inl (Option.some.inj hu ▸ rfl)
  | received hs =>
      rw [Session.touch_eq] at hu
      exact .inr ⟨_, hs, Option.some.inj hu ▸ rfl⟩
  | acknowledged hs =>
      rw [Session.touchSent_eq] at hu
      exact .inr ⟨_, hs, Option.some.inj hu ▸ rfl⟩
  | consumed _ _ _ htakes => exact absurd htakes ht
  | queued hs | upgraded hs | closeQueued hs | beganClose hs | flushed hs =>
      exact .inr ⟨_, hs, Option.some.inj hu ▸ rfl⟩
  | ended | dropped => cases hu
  | handed => exact .inr ⟨u, hu.symm, rfl⟩

variable [DecidableEq κ] [Transport τ κ]

theorem Step.fragments (hs : Step lic e e') (r : e.registry.Regular) (ht : ¬lic.takes)
    (f : e.registry.FragmentsWithin limit) : e'.registry.FragmentsWithin limit := by
  intro u hu
  have hsession : e'.session? u.handle = some u := (hs.regular r).wellFormed.get?_eq_some.mpr ⟨hu, rfl⟩
  rcases hs.on_session u.handle with ⟨hsame, -⟩ | ha
  · exact f u (Registry.mem_of_get? (hsame.symm.trans hsession))
  · obtain ⟨gained, -, heff⟩ := ha.effect
    rw [hsession] at heff
    rcases heff.fragment ht with hnone | ⟨t, ht, hfragment⟩
    · simp [hnone]
    · exact hfragment ▸ f t (Registry.mem_of_get? ht)

/-- Where no message is taken off, nothing is held of a message of which nothing was held. -/
theorem Step.fragment_none (hs : Step lic e e') (ht : ¬lic.takes) (a : e.registry.At h fun t => t.fragment = none) :
    e'.registry.At h fun t => t.fragment = none := by
  intro u hu
  rcases hs.on_session h with ⟨hsame, -⟩ | ha
  · exact a u (hsame.symm.trans hu)
  · obtain ⟨gained, -, heff⟩ := ha.effect
    rw [show e'.session? h = some u from hu] at heff
    rcases heff.fragment ht with hnone | ⟨t, hs, hfragment⟩
    · exact hnone
    · exact hfragment.trans (a t hs)

theorem Acts.fragment_none (ha : Acts lic e e') (r : e.registry.Regular) (ht : ¬lic.takes)
    (a : e.registry.At h fun t => t.fragment = none) : e'.registry.At h fun t => t.fragment = none :=
  ha.keep r (I := fun m => m.registry.At h fun t => t.fragment = none) (fun _ _ _ hs a => hs.fragment_none ht a) a

theorem Acts.fragments (ha : Acts lic e e') (r : e.registry.Regular) (ht : ¬lic.takes)
    (f : e.registry.FragmentsWithin limit) : e'.registry.FragmentsWithin limit :=
  ha.keep r (I := fun m => m.registry.FragmentsWithin limit) (fun _ _ r' hs f' => hs.fragments r' ht f') f

/-- What may be done about a message that was taken off. -/
def License.answering (τ : Type) : License τ where
  upgrades := True
  answers := True

namespace Engine

theorem fragments_of_acts (ha : Acts (.answering τ) e e') (r : e.registry.Regular)
    (f : e.registry.FragmentsWithin limit) : e'.registry.FragmentsWithin limit :=
  ha.fragments r id f

omit [DecidableEq κ] [Transport τ κ] in
theorem dropInbound_fragments (f : e.registry.FragmentsWithin limit) (h : Handle) (count : Nat) :
    (e.dropInbound h count).registry.FragmentsWithin limit :=
  f.update fun _ => .inl rfl

theorem dropInbound_regular (r : e.registry.Regular) (h : Handle) (count : Nat) :
    (e.dropInbound h count).registry.Regular := by
  have ha : Acts { takes := True } e (e.dropInbound h count) := dropInbound_acts trivial trivial count
  exact ha.regular r

omit [DecidableEq κ] [Transport τ κ] in
theorem clearInbound_fragments (f : e.registry.FragmentsWithin limit) (h : Handle) :
    (e.clearInbound h).registry.FragmentsWithin limit :=
  f.update fun _ => .inl rfl

theorem clearInbound_regular (r : e.registry.Regular) (h : Handle) : (e.clearInbound h).registry.Regular := by
  have ha : Acts { takes := True } e (e.clearInbound h) := clearInbound_acts trivial trivial
  exact ha.regular r

theorem setFragment_regular (r : e.registry.Regular) (h : Handle) (fragment : Option Fragment) :
    (e.update h fun t => { t with fragment }).registry.Regular := by
  have ha : Acts { takes := True } e (e.update h fun t => { t with fragment }) :=
    setFragment_acts trivial trivial fragment
  exact ha.regular r

theorem nextRequest_fragments (r : e.registry.Regular) (hm : e.registry.At h fun t => t.mode = .http)
    (ho : e.registry.At h fun t => t.closing = false) (f : e.registry.FragmentsWithin limit) (t : Session κ) :
    (e.nextRequest h t).2.registry.FragmentsWithin limit := by
  have hclosed {response : Bytes} (hr : ¬WebSocket.IsClose response) :
      ((e.clearInbound h).replyAndClose h response).registry.FragmentsWithin limit :=
    fragments_of_acts (replyAndClose_acts trivial (.inl trivial) hr) (clearInbound_regular r h)
      (clearInbound_fragments f h)
  rw [nextRequest]
  dsimp only
  split
  · split
    · exact hclosed Http.Response.not_isClose_payloadTooLarge
    · exact f
  · exact hclosed Http.Response.not_isClose_payloadTooLarge
  · exact hclosed Http.Response.not_isClose_badRequest
  · rename_i head _
    have hdrop := dropInbound_fragments f h head.totalLength
    split
    · have hopen := dropInbound_at (isEnding_of_http r hm ho) head.totalLength fun _ ho => ho
      exact fragments_of_acts (upgrade_acts trivial trivial (dropInbound_at hm _ fun _ hm => hm) hopen _)
        (dropInbound_regular r h _) hdrop
    · exact hdrop

/-! Whatever comes in a frame, no more than the limit is kept of it. -/

section

variable (r : e.registry.Regular) (hm : e.registry.At h fun t => t.mode = .webSocket)
  (ho : e.registry.At h fun t => t.closing = false) (f : e.registry.FragmentsWithin limit)
include r hm ho f

theorem failWebSocket_fragments (code : WebSocket.CloseCode) (reason : String) :
    (e.failWebSocket h code reason).registry.FragmentsWithin limit :=
  fragments_of_acts (failWebSocket_acts trivial hm ho code reason) r f

theorem deliver_fragments (kind : MessageKind) (data : Bytes) :
    (e.deliver h kind data).2.registry.FragmentsWithin limit :=
  fragments_of_acts (deliver_acts trivial hm ho kind data) r f

theorem beginMessage_fragments (t : Session κ) (kind : MessageKind) (fin : Bool) {payload : Bytes}
    (hp : payload.length ≤ limit) : (e.beginMessage h t kind fin payload).2.registry.FragmentsWithin limit := by
  rw [beginMessage]
  split
  · exact failWebSocket_fragments r hm ho f _ _
  · split
    · exact deliver_fragments r hm ho f _ _
    · exact f.update fun _ => .inr fun _ hf => Option.some.inj hf ▸ hp

theorem continueMessage_fragments (hl : e.config.maxRequestBytes = limit) (t : Session κ) (fin : Bool)
    (payload : Bytes) : (e.continueMessage h t fin payload).2.registry.FragmentsWithin limit := by
  have r' := setFragment_regular r h none
  have hm' : (e.update h fun t => { t with fragment := none }).registry.At h fun t => t.mode = .webSocket :=
    hm.update (fun _ => rfl) fun _ hm => hm
  have ho' : (e.update h fun t => { t with fragment := none }).registry.At h fun t => t.closing = false :=
    ho.update (fun _ => rfl) fun _ ho => ho
  have f' : (e.update h fun t => { t with fragment := none }).registry.FragmentsWithin limit :=
    f.update fun _ => .inr fun _ hf => nomatch hf
  rw [continueMessage]
  split
  · exact failWebSocket_fragments r hm ho f _ _
  · dsimp only
    split
    · exact failWebSocket_fragments r' hm' ho' f' _ _
    · rename_i hle
      split
      · exact deliver_fragments r' hm' ho' f' _ _
      · refine f.update fun _ => .inr fun _ hf => ?_
        rw [← Option.some.inj hf, ← hl]
        exact Nat.le_of_not_lt hle

theorem dispatchFrame_fragments (hl : e.config.maxRequestBytes = limit) (t : Session κ)
    (header : WebSocket.FrameHeader) {payload : Bytes} (hp : payload.length ≤ limit) :
    (e.dispatchFrame h t header payload).2.registry.FragmentsWithin limit := by
  rw [dispatchFrame]
  split
  · exact failWebSocket_fragments r hm ho f _ _
  · split
    · exact beginMessage_fragments r hm ho f _ _ _ hp
    · exact beginMessage_fragments r hm ho f _ _ _ hp
    · exact continueMessage_fragments r hm ho f hl _ _ _
    · split
      · exact fragments_of_acts ((enqueue_acts trivial (.inl trivial) (.inr (WebSocket.not_isClose_pong payload))).trans
          (flush_acts trivial)) r f
      · exact f
    · exact f
    · exact fragments_of_acts ((sendClose_acts trivial hm ho _ _).trans (beginClose_acts trivial)) r f
    · exact failWebSocket_fragments r hm ho f _ _

theorem nextFrame_fragments (hl : e.config.maxRequestBytes = limit) (t : Session κ) :
    (e.nextFrame h t).2.registry.FragmentsWithin limit := by
  rw [nextFrame]
  split
  · exact f
  · exact f
  · exact failWebSocket_fragments (clearInbound_regular r h) (clearInbound_at hm fun _ hm => hm)
      (clearInbound_at ho fun _ ho => ho) (clearInbound_fragments f h) _ _
  · rename_i header unmasked hread
    have hpayload : (header.payload unmasked).length ≤ limit :=
      Nat.le_trans (List.length_take_le _ _) (hl ▸ WebSocket.payloadLength_le_of_decode hread)
    exact dispatchFrame_fragments (dropInbound_regular r h _) (dropInbound_at hm _ fun _ hm => hm)
      (dropInbound_at ho _ fun _ ho => ho) (dropInbound_fragments f h _) hl t header hpayload

end

/-- Taking a message off keeps what has come of an unfinished message within the limit. -/
theorem next_fragments (r : e.registry.Regular) (hl : e.config.maxRequestBytes = limit)
    (f : e.registry.FragmentsWithin limit) : (e.next h).2.registry.FragmentsWithin limit := by
  rw [next]
  split
  · exact f
  · rename_i t hs
    split
    · exact f
    · rename_i hopen
      simp only [Bool.or_eq_true, not_or, Bool.not_eq_true] at hopen
      split
      · exact nextRequest_fragments r (.of_get? hs ‹_›) (.of_get? hs hopen.1) f t
      · exact nextFrame_fragments r (.of_get? hs ‹_›) (.of_get? hs hopen.1) f hl t

end Engine

end

end WebServer
