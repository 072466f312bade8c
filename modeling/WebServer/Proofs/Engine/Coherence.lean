import WebServer.Proofs.Engine.Strides

/-! # Coherent sessions

The flags of a session, its protocol, its received bytes and its queue go together, whatever the engine does. -/

namespace WebServer

variable {τ κ σ : Type}

/-- The flags of a session agree with its protocol and its received bytes. -/
structure Session.Steady (t : Session κ) : Prop where
  closed : t.closed = false
  inbound : t.closing = true → t.inbound = []
  closeSent : t.closeSent = true → t.mode = .webSocket
  closing : t.mode = .webSocket → t.closing = true → t.closeSent = true
  fragment : t.fragment.isSome = true → t.mode = .webSocket

/-- A closing session has something left to send or to be acknowledged. -/
def Session.Settled (t : Session κ) : Prop :=
  t.closing = true → t.outbound.buffers ≠ []

theorem Session.steady_accepted (h : Handle) (conn : κ) (now : Nat) : (accepted h conn now).Steady :=
  ⟨rfl, by simp [accepted], by simp [accepted], by simp [accepted], by simp [accepted]⟩

/-- What a frame amounts to: a message for the application, or something the engine dealt with. -/
def Delivery.OfFrame : Delivery → Prop
  | .again | .text _ | .binary _ => True
  | .wait | .request _ => False

namespace Registry

/-- Every session is steady, and every session but the one with the handle `h` is settled. -/
structure CoherentBut (h : Handle) (r : Registry κ) : Prop where
  wellFormed : r.WellFormed
  steady : ∀ t ∈ r.sessions, t.Steady
  settled : ∀ t ∈ r.sessions, t.handle ≠ h → t.Settled

/-- Every session is steady and settled. -/
structure Coherent (r : Registry κ) : Prop where
  wellFormed : r.WellFormed
  steady : ∀ t ∈ r.sessions, t.Steady
  settled : ∀ t ∈ r.sessions, t.Settled

variable {r : Registry κ} {h : Handle}

theorem coherent_new (limit : Nat) : (new limit : Registry κ).Coherent :=
  ⟨wellFormed_new limit, by simp [new], by simp [new]⟩

theorem Coherent.but (c : r.Coherent) (h : Handle) : r.CoherentBut h :=
  ⟨c.wellFormed, c.steady, fun t ht _ => c.settled t ht⟩

/-- The session that was left out may be settled, too. -/
theorem CoherentBut.coherent (c : r.CoherentBut h) (a : r.At h Session.Settled) : r.Coherent where
  wellFormed := c.wellFormed
  steady := c.steady
  settled t ht := by
    by_cases he : t.handle = h
    · exact a.of_mem c.wellFormed ht he
    · exact c.settled t ht he

theorem CoherentBut.update (c : r.CoherentBut h) {f : Session κ → Session κ}
    (hh : ∀ t, (f t).handle = t.handle) (hc : ∀ t, (f t).conn = t.conn)
    (hf : ∀ t, r.get? h = some t → t.Steady → (f t).Steady) : (r.update h f).CoherentBut h where
  wellFormed := c.wellFormed.update hh hc
  steady t ht := by
    obtain ⟨u, hu, rfl⟩ := mem_update.mp ht
    split
    · rename_i he
      exact hf u (c.wellFormed.get?_eq_some.mpr ⟨hu, he⟩) (c.steady u hu)
    · exact c.steady u hu
  settled t ht hne := by
    obtain ⟨u, hu, rfl⟩ := mem_update.mp ht
    split at hne
    · rename_i he
      exact absurd ((hh u).trans he) hne
    · rename_i he
      rw [if_neg he]
      exact c.settled u hu he

theorem Coherent.update (c : r.Coherent) {f : Session κ → Session κ}
    (hh : ∀ t, (f t).handle = t.handle) (hc : ∀ t, (f t).conn = t.conn)
    (hf : ∀ t, r.get? h = some t → t.Steady → (f t).Steady)
    (hs : ∀ t, r.get? h = some t → t.Settled → (f t).Settled) : (r.update h f).Coherent := by
  refine ((c.but h).update hh hc hf).coherent fun t ht => ?_
  rw [get?_update_self hh, Option.map_eq_some_iff] at ht
  obtain ⟨u, hu, rfl⟩ := ht
  exact hs u hu (c.settled u (mem_of_get? hu))

theorem CoherentBut.remove [DecidableEq κ] (c : r.CoherentBut h) : (r.remove h).2.Coherent where
  wellFormed := c.wellFormed.remove h
  steady t ht := c.steady t (c.wellFormed.mem_remove.mp ht).1
  settled t ht := by
    obtain ⟨ht, hne⟩ := c.wellFormed.mem_remove.mp ht
    exact c.settled t ht hne

end Registry

namespace Engine

variable {e : Engine τ κ σ} {h : Handle}

theorem notify_registry (e : Engine τ κ σ) (h : Handle) (n : Notice) : (e.notify h n).registry = e.registry := by
  rw [notify]
  split <;> rfl

/-! ## Output -/

theorem flush_coherentBut [Transport τ κ] (c : e.registry.CoherentBut h) : (e.flush h).registry.CoherentBut h := by
  cases hs : e.session? h with
  | none => exact (flush_of_none hs).symm ▸ c
  | some t =>
      obtain ⟨queue, -, hr⟩ := flush_registry hs
      rw [hr]
      exact c.update (fun _ => rfl) (fun _ => rfl) fun _ _ s => ⟨s.closed, s.inbound, s.closeSent, s.closing, s.fragment⟩

theorem flush_coherent [Transport τ κ] (c : e.registry.Coherent) (h : Handle) : (e.flush h).registry.Coherent := by
  cases hs : e.session? h with
  | none => exact (flush_of_none hs).symm ▸ c
  | some t =>
      obtain ⟨queue, hlen, hr⟩ := flush_registry hs
      rw [hr]
      refine c.update (fun _ => rfl) (fun _ => rfl)
        (fun _ _ s => ⟨s.closed, s.inbound, s.closeSent, s.closing, s.fragment⟩) fun u hu s hclosing => ?_
      have hut : u = t := Option.some.inj (hu.symm.trans hs)
      have hne : u.outbound.buffers ≠ [] := s hclosing
      rw [hut, ← List.length_pos_iff, ← hlen] at hne
      exact List.length_pos_iff.mp hne

theorem flush_at [Transport τ κ] {P : Session κ → Prop} (hP : ∀ t queue, P t → P { t with outbound := queue })
    (a : e.registry.At h P) : (e.flush h).registry.At h P := by
  cases hs : e.session? h with
  | none => exact (flush_of_none hs).symm ▸ a
  | some t =>
      obtain ⟨queue, -, hr⟩ := flush_registry hs
      rw [hr]
      exact a.update (fun _ => rfl) fun t ht => hP t queue ht

theorem enqueue_of_session {t : Session κ} (hs : e.session? h = some t) {data : Bytes} (hd : data ≠ []) :
    e.enqueue h data = (.ok (), (e.record (.queued h data)).update h fun u =>
      { u with outbound := { t.outbound with buffers := t.outbound.buffers ++ [⟨data, 0, 0⟩] } }) := by
  have hempty : data.isEmpty = false := by simpa using hd
  rw [enqueue, hs]
  dsimp only
  rw [OutboundQueue.enqueue, hempty]
  rfl

theorem enqueue_refused {data : Bytes} (hs : e.session? h = none ∨ data = []) : (e.enqueue h data).2 = e := by
  rw [enqueue]
  rcases hs with hs | rfl
  · rw [hs]
  · split
    · rfl
    · rfl

theorem enqueue_coherent (c : e.registry.Coherent) (h : Handle) (data : Bytes) :
    (e.enqueue h data).2.registry.Coherent := by
  cases hs : e.session? h with
  | none => exact (enqueue_refused (.inl hs)).symm ▸ c
  | some t =>
      by_cases hd : data = []
      · exact (enqueue_refused (.inr hd)).symm ▸ c
      · rw [enqueue_of_session hs hd]
        exact c.update (fun _ => rfl) (fun _ => rfl)
          (fun _ _ s => ⟨s.closed, s.inbound, s.closeSent, s.closing, s.fragment⟩) fun _ _ _ _ => by simp

theorem enqueue_at {P : Session κ → Prop} (hP : ∀ t queue, P t → P { t with outbound := queue })
    (a : e.registry.At h P) (data : Bytes) : (e.enqueue h data).2.registry.At h P := by
  cases hs : e.session? h with
  | none => exact (enqueue_refused (.inl hs)).symm ▸ a
  | some t =>
      by_cases hd : data = []
      · exact (enqueue_refused (.inr hd)).symm ▸ a
      · rw [enqueue_of_session hs hd]
        exact a.update (fun _ => rfl) fun u hu => hP u _ hu

/-! ## Closing -/

variable [DecidableEq κ] [Transport τ κ]

omit [Transport τ κ] in
theorem retire_coherent (c : e.registry.CoherentBut h) : (e.retire h).registry.Coherent := by
  have hr := c.remove
  rw [retire]
  split
  · rename_i he
    rwa [he] at hr
  · rename_i he
    rw [notify_registry]
    rwa [he] at hr

theorem forceClose_coherent (c : e.registry.CoherentBut h) : (e.forceClose h).registry.Coherent := by
  rw [forceClose]
  split
  · rename_i hs
    exact c.coherent (.of_none hs)
  · exact retire_coherent c

theorem finishClose_coherent (c : e.registry.CoherentBut h) : (e.finishClose h).registry.Coherent := by
  rw [finishClose]
  split
  · rename_i hs
    exact c.coherent (.of_none hs)
  · rename_i t hs
    split
    · exact forceClose_coherent c
    · rename_i hfinished
      refine c.coherent fun u hu hclosing hempty => hfinished ?_
      have hut : u = t := Option.some.inj (hu.symm.trans hs)
      subst hut
      simp [hclosing, OutboundQueue.isEmpty, hempty]

/-- A WebSocket session may begin to close once its closing frame is queued. -/
theorem beginClose_coherent (c : e.registry.Coherent)
    (a : e.registry.At h fun t => t.mode = .webSocket → t.closeSent = true) :
    (e.beginClose h).registry.Coherent := by
  rw [beginClose]
  split
  · exact c
  · dsimp only
    refine finishClose_coherent (flush_coherentBut ?_)
    split
    · exact c.but h
    · exact (c.but h).update (fun _ => rfl) (fun _ => rfl) fun t ht s =>
        ⟨s.closed, fun _ => rfl, s.closeSent, fun hm _ => a t ht hm, s.fragment⟩

theorem encode_ne_nil (opcode : WebSocket.Opcode) (payload : Bytes) (key : Option WebSocket.MaskKey) :
    WebSocket.encode opcode payload key ≠ [] := by
  cases key <;> exact List.cons_ne_nil _ _

omit [DecidableEq κ] in
/-- The closing frame of a WebSocket session is always queued. -/
theorem sendClose_coherent (c : e.registry.Coherent) (a : e.registry.At h fun t => t.mode = .webSocket)
    (code : WebSocket.CloseCode) (reason : String) :
    (e.sendClose h code reason).registry.Coherent ∧
      (e.sendClose h code reason).registry.At h fun t => t.closeSent = true := by
  rw [sendClose]
  split
  · rename_i hs
    exact ⟨c, .of_none hs⟩
  · rename_i t hs
    split
    · rename_i hsent
      exact ⟨c, .of_get? hs hsent⟩
    · have hne := encode_ne_nil .close (WebSocket.closePayload code reason) none
      have hq := enqueue_coherent c h (WebSocket.encode .close (WebSocket.closePayload code reason) none)
      have ha := enqueue_at (fun _ _ hm => hm) a (WebSocket.encode .close (WebSocket.closePayload code reason) none)
      rw [enqueue_of_session hs hne] at hq ha ⊢
      dsimp only at hq ha ⊢
      refine ⟨flush_coherent ?_ h, flush_at (fun _ _ hm => hm) ?_⟩
      · exact hq.update (fun _ => rfl) (fun _ => rfl)
          (fun u hu s => ⟨s.closed, s.inbound, fun _ => ha u hu, fun _ _ => rfl, s.fragment⟩) fun _ _ s => s
      · exact ha.update (fun _ => rfl) fun _ _ => rfl

theorem failWebSocket_coherent (c : e.registry.Coherent) (a : e.registry.At h fun t => t.mode = .webSocket)
    (code : WebSocket.CloseCode) (reason : String) : (e.failWebSocket h code reason).registry.Coherent := by
  obtain ⟨c', a'⟩ := sendClose_coherent c a code reason
  exact beginClose_coherent c' fun t ht _ => a' t ht

theorem replyAndClose_coherent (c : e.registry.Coherent) (a : e.registry.At h fun t => t.mode = .http)
    (response : Bytes) : (e.replyAndClose h response).registry.Coherent := by
  have a' := enqueue_at (fun _ _ hm => hm) a response
  refine beginClose_coherent (enqueue_coherent c h response) fun t ht hm => ?_
  simp [a' t ht] at hm

theorem close_coherent (c : e.registry.Coherent) (h : Handle) : (e.close h).2.registry.Coherent := by
  rw [close]
  split
  · exact c
  · rename_i t hs
    split
    · rename_i hm
      dsimp only
      split
      · exact c
      · exact (sendClose_coherent c (.of_get? hs hm) .normal "").1
    · rename_i hm
      refine beginClose_coherent c fun u hu hws => ?_
      have hut : u = t := Option.some.inj (hu.symm.trans hs)
      simp [hut, hm] at hws

/-! ## Calls -/

omit [DecidableEq κ] in
theorem send_coherent (c : e.registry.Coherent) (h : Handle) (data : Bytes) :
    (e.send h data).2.registry.Coherent := by
  rw [send]
  split
  · exact c
  · split
    · exact c
    · have hq := enqueue_coherent c h data
      split
      · rename_i he
        rwa [he] at hq
      · rename_i he
        rw [he] at hq
        exact flush_coherent hq h

omit [DecidableEq κ] in
theorem sendFrame_coherent (c : e.registry.Coherent) (h : Handle) (opcode : WebSocket.Opcode)
    (payload : Bytes) : (e.sendFrame h opcode payload).2.registry.Coherent := by
  rw [sendFrame]
  split
  · exact c
  · exact c
  · exact send_coherent c _ _

omit [DecidableEq κ] in
theorem sendToAll_coherent (text : String) (hs : List Handle) (c : e.registry.Coherent) :
    (sendToAll text hs e).2.registry.Coherent := by
  induction hs generalizing e with
  | nil => exact c
  | cons h hs ih => exact ih (sendFrame_coherent c h .text (Text.utf8 text))

theorem serve_coherent (c : e.registry.Coherent) (files : StaticFiles) (h : Handle) (r : Http.Request) :
    (e.serve files h r).2.registry.Coherent := by
  rw [serve]
  split
  · exact c
  · rename_i file _
    dsimp only
    have hhead := send_coherent c h
      (Text.utf8 (Http.Response.headText "200 OK" file.contentType file.body.length))
    split
    · rename_i he
      rwa [he] at hhead
    · rename_i e₁ he
      rw [he] at hhead
      split
      · exact hhead
      · have hbody := send_coherent hhead h file.body
        split
        · rename_i he₁
          rwa [he₁] at hbody
        · rename_i he₁
          rwa [he₁] at hbody

omit [Transport τ κ] in
theorem accept_coherent (c : e.registry.Coherent) (conn : κ) : (e.accept conn).2.registry.Coherent := by
  rw [accept]
  split
  · rename_i h registry hc
    dsimp only
    have hr := Registry.registered_of_create hc
    rw [notify_registry]
    refine ⟨hr.wellFormed c.wellFormed, fun t ht => ?_, fun t ht => ?_⟩
    · rcases hr.mem_sessions.mp ht with rfl | ht
      · exact Session.steady_accepted h conn e.now
      · exact c.steady t ht
    · rcases hr.mem_sessions.mp ht with rfl | ht
      · simp [Session.Settled, Session.accepted]
      · exact c.settled t ht
  · rename_i hc
    exact (Registry.eq_of_create_error hc).symm ▸ c

theorem sent_coherent (c : e.registry.Coherent) (conn : κ) (count : Nat) :
    (e.sent conn count).registry.Coherent := by
  rw [sent]
  split
  · exact c
  · rename_i t _
    dsimp only
    refine finishClose_coherent (flush_coherentBut ((c.but t.handle).update ?_ ?_ ?_))
    · intro u
      rw [Session.touchSent]
      split <;> rfl
    · intro u
      rw [Session.touchSent]
      split <;> rfl
    · intro u _ s
      rw [Session.touchSent]
      split <;> exact ⟨s.closed, s.inbound, s.closeSent, s.closing, s.fragment⟩

theorem remoteClosed_coherent (c : e.registry.Coherent) (conn : κ) :
    (e.remoteClosed conn).registry.Coherent := by
  rw [remoteClosed]
  split
  · exact c
  · exact forceClose_coherent (c.but _)

omit [Transport τ κ] in
theorem failed_coherent (c : e.registry.Coherent) (conn : κ) : (e.failed conn).registry.Coherent := by
  rw [failed]
  split
  · exact c
  · exact retire_coherent (c.but _)

omit [DecidableEq κ] in
theorem start_coherent (c : e.registry.Coherent) : e.start.2.registry.Coherent := by
  rw [start]
  split <;> exact c

omit [DecidableEq κ] [Transport τ κ] in
theorem foldl_coherent {step : Engine τ κ σ → Handle → Engine τ κ σ}
    (hstep : ∀ e h, e.registry.Coherent → (step e h).registry.Coherent) (hs : List Handle)
    (c : e.registry.Coherent) : (hs.foldl step e).registry.Coherent := by
  induction hs generalizing e with
  | nil => exact c
  | cons h hs ih => exact ih (hstep e h c)

theorem stop_coherent (c : e.registry.Coherent) : e.stop.registry.Coherent := by
  rw [stop]
  refine foldl_coherent (fun _ h c => forceClose_coherent (c.but h)) _ ?_
  split <;> exact c

omit [DecidableEq κ] in
/-- Only WebSocket sessions are asked to send a closing frame. -/
theorem mode_of_decide_sendClose {t : Session κ} {config : Config} {now : Nat}
    (hd : IdleAction.decide t config now = .sendClose) : t.mode = .webSocket := by
  rw [IdleAction.decide] at hd
  split at hd
  · split at hd <;> simp at hd
  · split at hd
    · split at hd <;> simp at hd
    · assumption

theorem pollSession_coherent (c : e.registry.Coherent) (h : Handle) : (e.pollSession h).registry.Coherent := by
  rw [pollSession]
  dsimp only
  have c' := flush_coherent c h
  generalize e.flush h = e' at c' ⊢
  split
  · exact c'
  · rename_i t hs
    split
    · exact finishClose_coherent (c'.but h)
    · rename_i hd
      have hm : (e'.notify h .idle).registry.At h fun t => t.mode = .webSocket := by
        rw [notify_registry]
        exact .of_get? hs (mode_of_decide_sendClose hd)
      have hn : (e'.notify h .idle).registry.Coherent := (notify_registry e' h .idle).symm ▸ c'
      exact finishClose_coherent ((sendClose_coherent hn hm .goingAway "idle").1.but h)
    · refine forceClose_coherent (Registry.Coherent.but ?_ h)
      split
      · exact c'
      · exact (notify_registry e' h .idle).symm ▸ c'

theorem pollConn_coherent (c : e.registry.Coherent) (conn : κ) : (e.pollConn conn).registry.Coherent := by
  rw [pollConn]
  split
  · exact c
  · exact pollSession_coherent c _

/-- Every call leaves all sessions coherent. -/
theorem perform_coherent (c : e.registry.Coherent) (call : Call τ κ σ) :
    (e.perform call).2.registry.Coherent := by
  cases call with
  | accept conn => exact accept_coherent c conn
  | sent conn count => exact sent_coherent c conn count
  | remoteClosed conn => exact remoteClosed_coherent c conn
  | failed conn => exact failed_coherent c conn
  | pollConn conn => exact pollConn_coherent c conn
  | poll => exact foldl_coherent (fun _ h c => pollSession_coherent c h) _ c
  | send h data => exact send_coherent c h data
  | sendMessage h text => exact sendFrame_coherent c h .text (Text.utf8 text)
  | sendBinary h data => exact sendFrame_coherent c h .binary data
  | broadcast text => exact sendToAll_coherent text e.audience c
  | serve files h r => exact serve_coherent c files h r
  | close h => exact close_coherent c h
  | start => exact start_coherent c
  | stop => exact stop_coherent c
  | advance | watch | inspect | setTransport | setApp => exact c

/-! ## Frames -/

theorem deliver_ofFrame (e : Engine τ κ σ) (h : Handle) (kind : MessageKind) (data : Bytes) :
    (e.deliver h kind data).1.OfFrame := by
  cases kind with
  | binary => trivial
  | text =>
      rw [deliver]
      split <;> trivial

theorem beginMessage_ofFrame (e : Engine τ κ σ) (h : Handle) (t : Session κ) (kind : MessageKind) (fin : Bool)
    (payload : Bytes) : (e.beginMessage h t kind fin payload).1.OfFrame := by
  rw [beginMessage]
  split
  · trivial
  · split
    · exact deliver_ofFrame _ _ _ _
    · trivial

theorem continueMessage_ofFrame (e : Engine τ κ σ) (h : Handle) (t : Session κ) (fin : Bool) (payload : Bytes) :
    (e.continueMessage h t fin payload).1.OfFrame := by
  rw [continueMessage]
  split
  · trivial
  · dsimp only
    split
    · trivial
    · split
      · exact deliver_ofFrame _ _ _ _
      · trivial

theorem dispatchFrame_ofFrame (e : Engine τ κ σ) (h : Handle) (t : Session κ) (header : WebSocket.FrameHeader)
    (payload : Bytes) : (e.dispatchFrame h t header payload).1.OfFrame := by
  rw [dispatchFrame]
  split
  · trivial
  · split
    · exact beginMessage_ofFrame _ _ _ _ _ _
    · exact beginMessage_ofFrame _ _ _ _ _ _
    · exact continueMessage_ofFrame _ _ _ _ _
    · split <;> trivial
    · trivial
    · trivial
    · trivial

end Engine
end WebServer
