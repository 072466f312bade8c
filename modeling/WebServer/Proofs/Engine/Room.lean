import WebServer.Proofs.Engine.Coherence
import WebServer.Proofs.Output.Room

/-! # Sessions with nothing to send or no room

Whatever the engine queues on a session it offers to the transport before it is done, so that it leaves every session
without unsent bytes or without room. -/

namespace WebServer.Engine

variable {τ κ σ : Type} [Transport τ κ]

omit [Transport τ κ] in
theorem enqueue_error {e e' : Engine τ κ σ} {h : Handle} {data : Bytes} {error : ServerError}
    (hq : e.enqueue h data = (.error error, e')) : e' = e := by
  rw [enqueue] at hq
  split at hq
  · exact (Prod.mk.inj hq).2.symm
  · split at hq
    · exact (Prod.mk.inj hq).2.symm
    · cases (Prod.mk.inj hq).1

/-- Every session, but one perhaps, has used up its bytes or its room. -/
structure SpentBut (P : τ → Prop) (but : Option Handle) (e : Engine τ κ σ) : Prop where
  transport : P e.transport
  segment : 0 < e.config.maxSegmentSize
  wellFormed : e.registry.WellFormed
  spent : ∀ t ∈ e.registry.sessions, some t.handle ≠ but → t.Spent e.transport

/-- Every session has used up its bytes or its room. -/
abbrev Spent (P : τ → Prop) (e : Engine τ κ σ) : Prop :=
  e.SpentBut P none

namespace SpentBut

variable {P : τ → Prop} {but : Option Handle} {e e' : Engine τ κ σ} {h : Handle}

theorem of_spent (s : e.Spent P) (but : Option Handle) : e.SpentBut P but :=
  ⟨s.transport, s.segment, s.wellFormed, fun t ht _ => s.spent t ht (by simp)⟩

/-- The session that was left out may be spent, too. -/
theorem spent_of_at (s : e.SpentBut P (some h)) (a : e.registry.At h fun t => t.Spent e.transport) : e.Spent P where
  transport := s.transport
  segment := s.segment
  wellFormed := s.wellFormed
  spent t ht _ := by
    by_cases he : t.handle = h
    · exact a.of_mem s.wellFormed ht he
    · exact s.spent t ht (by simpa using he)

theorem congr (s : e.SpentBut P but) (hr : e'.registry = e.registry) (ht : e'.transport = e.transport)
    (hc : e'.config = e.config) : e'.SpentBut P but :=
  ⟨ht ▸ s.transport, hc ▸ s.segment, hr ▸ s.wellFormed, hr ▸ ht ▸ s.spent⟩

theorem withTransport (s : e.SpentBut P but) {transport : τ} (ht : P transport)
    (hroom : ∀ t ∈ e.registry.sessions, Transport.capacity transport t.conn ≤ Transport.capacity e.transport t.conn) :
    SpentBut P but { e with transport } :=
  ⟨ht, s.segment, s.wellFormed, fun t hmem hne => (s.spent t hmem hne).of_le (hroom t hmem)⟩

/-- A change of one session, after which it may have unsent bytes and room. -/
theorem change (s : e.SpentBut P (some h)) {f : Session κ → Session κ} (hh : ∀ t, (f t).handle = t.handle)
    (hc : ∀ t, (f t).conn = t.conn) : (e.update h f).SpentBut P (some h) where
  transport := s.transport
  segment := s.segment
  wellFormed := s.wellFormed.update hh hc
  spent t ht hne := by
    obtain ⟨u, hu, rfl⟩ := Registry.mem_update.mp ht
    by_cases he : u.handle = h
    · rw [if_pos he, hh, he] at hne
      exact absurd rfl hne
    · rw [if_neg he] at hne ⊢
      exact s.spent u hu hne

/-- A change of one session that leaves its queue alone. -/
theorem update (s : e.SpentBut P but) {f : Session κ → Session κ} (hh : ∀ t, (f t).handle = t.handle)
    (hc : ∀ t, (f t).conn = t.conn) (hq : ∀ t, (f t).outbound = t.outbound) : (e.update h f).SpentBut P but where
  transport := s.transport
  segment := s.segment
  wellFormed := s.wellFormed.update hh hc
  spent t ht hne := by
    obtain ⟨u, hu, rfl⟩ := Registry.mem_update.mp ht
    split at hne
    · rename_i he
      rw [if_pos he]
      have hu := s.spent u hu (hh u ▸ hne)
      rwa [Session.Spent, hc, hq]
    · rename_i he
      rw [if_neg he]
      exact s.spent u hu hne

theorem notify (s : e.SpentBut P but) (h : Handle) (n : Notice) : (e.notify h n).SpentBut P but := by
  refine s.congr (notify_registry e h n) (notify_transport e h n) ?_
  rw [Engine.notify]
  split <;> rfl

theorem enqueue (s : e.Spent P) (h : Handle) (data : Bytes) : (e.enqueue h data).2.SpentBut P (some h) := by
  rw [Engine.enqueue]
  split
  · exact s.of_spent _
  · split
    · exact s.of_spent _
    · exact change (e := e.record _) ((s.of_spent (some h)).congr rfl rfl rfl) (fun _ => rfl) fun _ => rfl

end SpentBut

variable {P : τ → Prop} (k : Transport.Ample P) {e : Engine τ κ σ} {h : Handle}
include k

/-! ## Output -/

/-- A flush pays what a session owes. -/
theorem flush_spent (s : e.SpentBut P (some h)) : (e.flush h).Spent P := by
  cases hs : e.session? h with
  | none =>
      rw [flush_of_none hs]
      exact s.spent_of_at (.of_none hs)
  | some t =>
      let o : Outflow τ κ := { transport := e.transport, queue := t.outbound, journal := e.journal }
      obtain ⟨htransport, hroom⟩ := Outflow.drain_transport k h t.conn e.config.maxSegmentSize (o := o) s.transport
      have hspent := Outflow.offerLoop_spent k h t.conn s.segment (o := o) s.transport (Nat.le_refl _)
      rw [flush, hs]
      refine ⟨htransport, s.segment, s.wellFormed.update (fun _ => rfl) fun _ => rfl, fun u hu _ => ?_⟩
      obtain ⟨v, hv, rfl⟩ := Registry.mem_update.mp hu
      by_cases he : v.handle = h
      · obtain rfl : v = t := Option.some.inj ((s.wellFormed.get?_eq_some.mpr ⟨hv, he⟩).symm.trans hs)
        rw [if_pos he]
        exact hspent
      · rw [if_neg he]
        exact (s.spent v hv (by simpa using he)).of_le (hroom v.conn)

theorem send_spent (s : e.Spent P) (h : Handle) (data : Bytes) : (e.send h data).2.Spent P := by
  rw [send]
  split
  · exact s
  · split
    · exact s
    · have hq := s.enqueue h data
      cases he : e.enqueue h data with
      | mk outcome e' =>
          rw [he] at hq
          cases outcome with
          | ok _ => exact flush_spent k hq
          | error error => exact (enqueue_error he).symm ▸ s

theorem sendFrame_spent (s : e.Spent P) (h : Handle) (opcode : WebSocket.Opcode) (payload : Bytes) :
    (e.sendFrame h opcode payload).2.Spent P := by
  rw [sendFrame]
  split
  · exact s
  · exact s
  · exact send_spent k s _ _

theorem sendToAll_spent (text : String) (hs : List Handle) (s : e.Spent P) : (sendToAll text hs e).2.Spent P := by
  induction hs generalizing e with
  | nil => exact s
  | cons h hs ih => exact ih (sendFrame_spent k s h .text (Text.utf8 text))

variable [DecidableEq κ]

theorem serve_spent (s : e.Spent P) (files : StaticFiles) (h : Handle) (r : Http.Request) :
    (e.serve files h r).2.Spent P := by
  rw [serve]
  split
  · exact s
  · rename_i file _
    dsimp only
    have hhead := send_spent k s h
      (Text.utf8 (Http.Response.headText "200 OK" file.contentType file.body.length))
    split
    · rename_i he
      rwa [he] at hhead
    · rename_i e₁ he
      rw [he] at hhead
      split
      · exact hhead
      · have hbody := send_spent k hhead h file.body
        split
        · rename_i he₁
          rwa [he₁] at hbody
        · rename_i he₁
          rwa [he₁] at hbody

/-! ## Closing -/

omit k in
theorem retire_spent (s : e.SpentBut P (some h)) : (e.retire h).Spent P := by
  have hr : Spent P { e with registry := (e.registry.remove h).2 } :=
    ⟨s.transport, s.segment, s.wellFormed.remove h, fun t ht _ => by
      obtain ⟨ht, hne⟩ := s.wellFormed.mem_remove.mp ht
      exact s.spent t ht (by simpa using hne)⟩
  rw [retire]
  split
  · rename_i he
    rwa [he] at hr
  · rename_i he
    rw [he] at hr
    exact hr.notify h .closed

theorem forceClose_spent (s : e.SpentBut P (some h)) : (e.forceClose h).Spent P := by
  rw [forceClose]
  split
  · rename_i hs
    exact s.spent_of_at (.of_none hs)
  · rename_i t _
    have hc := s.withTransport (k.close e.transport t.conn s.transport) fun u _ =>
      k.room_close e.transport t.conn s.transport u.conn
    exact retire_spent (hc.congr rfl rfl rfl)

theorem finishClose_spent (s : e.Spent P) (h : Handle) : (e.finishClose h).Spent P := by
  rw [finishClose]
  split
  · exact s
  · split
    · exact forceClose_spent k (s.of_spent _)
    · exact s

theorem beginClose_spent (s : e.SpentBut P (some h)) : (e.beginClose h).Spent P := by
  rw [beginClose]
  split
  · rename_i hs
    exact s.spent_of_at (.of_none hs)
  · dsimp only
    refine finishClose_spent k (flush_spent k ?_) h
    split
    · exact s
    · exact s.update (fun _ => rfl) (fun _ => rfl) fun _ => rfl

omit [DecidableEq κ] in
theorem sendClose_spent (s : e.Spent P) (h : Handle) (code : WebSocket.CloseCode) (reason : String) :
    (e.sendClose h code reason).Spent P := by
  rw [sendClose]
  split
  · exact s
  · split
    · exact s
    · have hq := s.enqueue h (WebSocket.encode .close (WebSocket.closePayload code reason) none)
      split
      · rename_i he
        exact (enqueue_error he).symm ▸ s
      · rename_i he
        rw [he] at hq
        exact flush_spent k (hq.update (fun _ => rfl) (fun _ => rfl) fun _ => rfl)

theorem failWebSocket_spent (s : e.Spent P) (h : Handle) (code : WebSocket.CloseCode) (reason : String) :
    (e.failWebSocket h code reason).Spent P :=
  beginClose_spent k ((sendClose_spent k s h code reason).of_spent _)

theorem replyAndClose_spent (s : e.Spent P) (h : Handle) (response : Bytes) :
    (e.replyAndClose h response).Spent P :=
  beginClose_spent k (s.enqueue h response)

theorem close_spent (s : e.Spent P) (h : Handle) : (e.close h).2.Spent P := by
  rw [close]
  split
  · exact s
  · split
    · dsimp only
      split
      · exact s
      · exact sendClose_spent k s h .normal ""
    · exact beginClose_spent k (s.of_spent _)

/-! ## Events and polls -/

omit k in
theorem accept_spent (s : e.Spent P) (conn : κ) : (e.accept conn).2.Spent P := by
  rw [accept]
  split
  · rename_i h registry hc
    have hr := Registry.registered_of_create hc
    refine SpentBut.notify (e := { e with registry }.record (.accepted h conn))
      ⟨s.transport, s.segment, hr.wellFormed s.wellFormed, fun t ht _ => ?_⟩ h .opened
    rcases hr.mem_sessions.mp ht with rfl | ht
    · exact .inl rfl
    · exact s.spent t ht (by simp)
  · rename_i hc
    exact s.congr (Registry.eq_of_create_error hc) rfl rfl

/-- Room that was made for a connection before its bytes are acknowledged is used at once. -/
theorem sent_spent {conn : κ} (s : ∀ t, e.registry.ofConn? conn = some t → e.SpentBut P (some t.handle))
    (hn : e.registry.ofConn? conn = none → e.Spent P) (count : Nat) : (e.sent conn count).Spent P := by
  rw [sent]
  split
  · exact hn ‹_›
  · rename_i t hc
    dsimp only
    refine finishClose_spent k (flush_spent k ((s t hc).change ?_ ?_)) t.handle
    · intro u
      rw [Session.touchSent]
      split <;> rfl
    · intro u
      rw [Session.touchSent]
      split <;> rfl

theorem remoteClosed_spent (s : e.Spent P) (conn : κ) : (e.remoteClosed conn).Spent P := by
  rw [remoteClosed]
  split
  · exact s
  · exact forceClose_spent k (s.of_spent _)

omit k in
theorem failed_spent (s : e.Spent P) (conn : κ) : (e.failed conn).Spent P := by
  rw [failed]
  split
  · exact s
  · exact retire_spent (s.of_spent _)

omit [DecidableEq κ] in
theorem start_spent (s : e.Spent P) : e.start.2.Spent P := by
  have hl := s.withTransport (k.listen e.transport e.config.port s.transport) fun t _ =>
    k.room_listen e.transport e.config.port s.transport t.conn
  rw [start]
  split
  · rename_i he
    rwa [he] at hl
  · rename_i he
    rw [he] at hl
    exact hl.congr rfl rfl rfl

omit [DecidableEq κ] k in
theorem foldl_spent {step : Engine τ κ σ → Handle → Engine τ κ σ}
    (hstep : ∀ e h, e.Spent P → (step e h).Spent P) (hs : List Handle) (s : e.Spent P) : (hs.foldl step e).Spent P := by
  induction hs generalizing e with
  | nil => exact s
  | cons h hs ih => exact ih (hstep e h s)

theorem stop_spent (s : e.Spent P) : e.stop.Spent P := by
  rw [stop]
  refine foldl_spent (fun _ h s => forceClose_spent k (s.of_spent (some h))) _ ?_
  split
  · have hl := s.withTransport (k.stopListening e.transport s.transport) fun t _ =>
      k.room_stopListening e.transport s.transport t.conn
    exact hl.congr rfl rfl rfl
  · exact s

theorem pollSession_spent (s : e.Spent P) (h : Handle) : (e.pollSession h).Spent P := by
  have hflushed := flush_spent k (s.of_spent (some h))
  rw [pollSession]
  dsimp only
  split
  · exact hflushed
  · split
    · exact finishClose_spent k hflushed h
    · exact finishClose_spent k (sendClose_spent k (hflushed.notify h .idle) h .goingAway "idle") h
    · refine forceClose_spent k (SpentBut.of_spent ?_ _)
      split
      · exact hflushed
      · exact hflushed.notify h .idle

theorem pollConn_spent (s : e.Spent P) (conn : κ) : (e.pollConn conn).Spent P := by
  rw [pollConn]
  split
  · exact s
  · exact pollSession_spent k s _

/-- Every call leaves all sessions spent, as long as the surroundings make no room. -/
theorem perform_spent (s : e.Spent P) (c : Call τ κ σ)
    (hc : ∀ transport, c = .setTransport transport → P transport ∧
      ∀ t ∈ e.registry.sessions, Transport.capacity transport t.conn ≤ Transport.capacity e.transport t.conn) :
    (e.perform c).2.Spent P := by
  cases c with
  | accept conn => exact accept_spent s conn
  | sent conn count => exact sent_spent k (fun t _ => s.of_spent _) (fun _ => s) count
  | remoteClosed conn => exact remoteClosed_spent k s conn
  | failed conn => exact failed_spent s conn
  | pollConn conn => exact pollConn_spent k s conn
  | poll => exact foldl_spent (fun _ h s => pollSession_spent k s h) _ s
  | send h data => exact send_spent k s h data
  | sendMessage h text => exact sendFrame_spent k s h .text (Text.utf8 text)
  | sendBinary h data => exact sendFrame_spent k s h .binary data
  | broadcast text => exact sendToAll_spent k text e.audience s
  | serve files h r => exact serve_spent k s files h r
  | close h => exact close_spent k s h
  | start => exact start_spent k s
  | stop => exact stop_spent k s
  | setTransport transport => exact s.withTransport (hc transport rfl).1 (hc transport rfl).2
  | advance | watch | inspect | setApp => exact s.congr rfl rfl rfl

/-! ## Inbound messages -/

theorem upgrade_spent (s : e.Spent P) (h : Handle) (r : Http.Request) : (e.upgrade h r).Spent P := by
  rw [upgrade]
  split
  · exact replyAndClose_spent k s _ _
  · rename_i response _
    have hq := s.enqueue h response
    split
    · rename_i he
      exact (enqueue_error he).symm ▸ s
    · rename_i e' he
      rw [he] at hq
      have hmode : (e'.update h fun t => { t with mode := .webSocket }).SpentBut P (some h) :=
        SpentBut.update hq (fun _ => rfl) (fun _ => rfl) fun _ => rfl
      exact flush_spent k (hmode.notify h .upgraded)

omit [DecidableEq κ] k in
theorem clearInbound_spent (s : e.Spent P) (h : Handle) : (e.clearInbound h).Spent P :=
  s.update (fun _ => rfl) (fun _ => rfl) fun _ => rfl

omit [DecidableEq κ] k in
theorem dropInbound_spent (s : e.Spent P) (h : Handle) (count : Nat) : (e.dropInbound h count).Spent P :=
  s.update (fun _ => rfl) (fun _ => rfl) fun _ => rfl

theorem nextRequest_spent (s : e.Spent P) (h : Handle) (t : Session κ) : (e.nextRequest h t).2.Spent P := by
  rw [nextRequest]
  dsimp only
  split
  · split
    · exact replyAndClose_spent k (clearInbound_spent s h) _ _
    · exact s
  · exact replyAndClose_spent k (clearInbound_spent s h) _ _
  · exact replyAndClose_spent k (clearInbound_spent s h) _ _
  · split
    · exact upgrade_spent k (dropInbound_spent s h _) _ _
    · exact dropInbound_spent s h _

theorem deliver_spent (s : e.Spent P) (h : Handle) (kind : MessageKind) (data : Bytes) :
    (e.deliver h kind data).2.Spent P := by
  cases kind with
  | binary => exact s
  | text =>
      rw [deliver]
      split
      · exact s
      · exact failWebSocket_spent k s _ _ _

omit [DecidableEq κ] k in
theorem setFragment_spent (s : e.Spent P) (h : Handle) (fragment : Option Fragment) :
    (e.update h fun t => { t with fragment }).Spent P :=
  s.update (fun _ => rfl) (fun _ => rfl) fun _ => rfl

theorem beginMessage_spent (s : e.Spent P) (h : Handle) (t : Session κ) (kind : MessageKind) (fin : Bool)
    (payload : Bytes) : (e.beginMessage h t kind fin payload).2.Spent P := by
  rw [beginMessage]
  split
  · exact failWebSocket_spent k s _ _ _
  · split
    · exact deliver_spent k s _ _ _
    · exact setFragment_spent s h _

theorem continueMessage_spent (s : e.Spent P) (h : Handle) (t : Session κ) (fin : Bool) (payload : Bytes) :
    (e.continueMessage h t fin payload).2.Spent P := by
  rw [continueMessage]
  split
  · exact failWebSocket_spent k s _ _ _
  · dsimp only
    split
    · exact failWebSocket_spent k (setFragment_spent s h _) _ _ _
    · split
      · exact deliver_spent k (setFragment_spent s h _) _ _ _
      · exact setFragment_spent s h _

theorem dispatchFrame_spent (s : e.Spent P) (h : Handle) (t : Session κ) (header : WebSocket.FrameHeader)
    (payload : Bytes) : (e.dispatchFrame h t header payload).2.Spent P := by
  rw [dispatchFrame]
  split
  · exact failWebSocket_spent k s _ _ _
  · split
    · exact beginMessage_spent k s _ _ _ _ _
    · exact beginMessage_spent k s _ _ _ _ _
    · exact continueMessage_spent k s _ _ _ _
    · split
      · exact flush_spent k (s.enqueue h _)
      · exact s
    · exact s
    · exact beginClose_spent k ((sendClose_spent k s _ _ _).of_spent _)
    · exact failWebSocket_spent k s _ _ _

theorem nextFrame_spent (s : e.Spent P) (h : Handle) (t : Session κ) : (e.nextFrame h t).2.Spent P := by
  rw [nextFrame]
  split
  · exact s
  · exact s
  · exact failWebSocket_spent k (clearInbound_spent s h) _ _ _
  · exact dispatchFrame_spent k (dropInbound_spent s h _) _ _ _ _

/-- Taking off a message leaves all sessions spent. -/
theorem next_spent (s : e.Spent P) (h : Handle) : (e.next h).2.Spent P := by
  rw [next]
  split
  · exact s
  · split
    · exact s
    · split
      · exact nextRequest_spent k s _ _
      · exact nextFrame_spent k s _ _

end WebServer.Engine
