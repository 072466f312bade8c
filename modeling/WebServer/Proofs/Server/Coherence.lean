import WebServer.Proofs.Engine.Coherence
import WebServer.Proofs.Server.Runs
import WebServer.Transport.InMemory

/-! # Coherence between operations

Whatever is done to a server, its sessions are coherent when it is done, and none has given up the WebSocket
protocol. -/

namespace WebServer

variable {τ κ σ : Type} [DecidableEq κ] [Transport τ κ]

namespace Engine

variable {e : Engine τ κ σ} {h : Handle}

/-! ## Inbound messages -/

omit [DecidableEq κ] [Transport τ κ] in
theorem clearInbound_coherent (c : e.registry.Coherent) (h : Handle) : (e.clearInbound h).registry.Coherent :=
  c.update (fun _ => rfl) (fun _ => rfl)
    (fun _ _ s => ⟨s.closed, fun _ => rfl, s.closeSent, s.closing, s.fragment⟩) fun _ _ s => s

omit [DecidableEq κ] [Transport τ κ] in
theorem dropInbound_coherent (c : e.registry.Coherent) (h : Handle) (count : Nat) :
    (e.dropInbound h count).registry.Coherent := by
  refine c.update (fun _ => rfl) (fun _ => rfl) (fun t _ s => ?_) fun _ _ s => s
  refine ⟨s.closed, fun hc => ?_, s.closeSent, s.closing, s.fragment⟩
  change t.inbound.drop count = []
  rw [s.inbound hc, List.drop_nil]

omit [DecidableEq κ] [Transport τ κ] in
theorem gather_coherent (c : e.registry.Coherent) {t : Session κ} (hs : e.session? h = some t)
    (ho : t.closing = false) (data : Bytes) : (e.gather h data).registry.Coherent := by
  refine c.update (fun _ => Session.touch_handle _ _) (fun _ => Session.touch_conn _ _) (fun u hu s => ?_)
    fun u _ s => ?_
  · have hclosing : ¬u.closing = true := by simp [Option.some.inj (hu.symm.trans hs), ho]
    rw [Session.touch]
    split <;> exact ⟨s.closed, fun hc => absurd hc hclosing, s.closeSent, s.closing, s.fragment⟩
  · rw [Session.touch]
    split <;> exact s

/-- An open session may begin to speak the WebSocket protocol. -/
theorem upgrade_coherent (c : e.registry.Coherent) (hm : e.registry.At h fun t => t.mode = .http)
    (ho : e.registry.At h fun t => t.closing = false) (r : Http.Request) :
    (e.upgrade h r).registry.Coherent := by
  rw [upgrade]
  split
  · exact replyAndClose_coherent c hm _
  · rename_i response _
    have hq := enqueue_coherent c h response
    have ho' := enqueue_at (fun _ _ ho => ho) ho response
    split
    · rename_i he
      rwa [he] at hq
    · rename_i he
      rw [he] at hq ho'
      refine flush_coherent ?_ h
      rw [notify_registry]
      refine hq.update (fun _ => rfl) (fun _ => rfl) (fun t ht s => ?_) fun _ _ s => s
      exact ⟨s.closed, s.inbound, fun _ => rfl, fun _ hc => absurd hc (by simp [ho' t ht]), fun _ => rfl⟩

theorem nextRequest_coherent (c : e.registry.Coherent) (hm : e.registry.At h fun t => t.mode = .http)
    (ho : e.registry.At h fun t => t.closing = false) (t : Session κ) :
    (e.nextRequest h t).2.registry.Coherent := by
  have hm' : (e.clearInbound h).registry.At h fun t => t.mode = .http := hm.update (fun _ => rfl) fun _ hm => hm
  rw [nextRequest]
  dsimp only
  split
  · split
    · exact replyAndClose_coherent (clearInbound_coherent c h) hm' _
    · exact c
  · exact replyAndClose_coherent (clearInbound_coherent c h) hm' _
  · exact replyAndClose_coherent (clearInbound_coherent c h) hm' _
  · rename_i head _
    have c' := dropInbound_coherent c h head.totalLength
    split
    · exact upgrade_coherent c' (hm.update (fun _ => rfl) fun _ hm => hm) (ho.update (fun _ => rfl) fun _ ho => ho) _
    · exact c'

/-- A session hands over requests only while it speaks HTTP. -/
theorem mode_of_nextRequest {t : Session κ} {r : Http.Request} (hm : e.registry.At h fun t => t.mode = .http)
    (hr : (e.nextRequest h t).1 = .request r) : (e.nextRequest h t).2.registry.At h fun t => t.mode = .http := by
  rw [nextRequest] at hr ⊢
  dsimp only at hr ⊢
  split at hr
  · split at hr <;> simp at hr
  · simp at hr
  · simp at hr
  · split at hr
    · simp at hr
    · rename_i hup
      rw [if_neg hup]
      exact hm.update (fun _ => rfl) fun _ hm => hm

section

variable (hm : e.registry.At h fun t => t.mode = .webSocket)
include hm

theorem deliver_coherent (c : e.registry.Coherent) (kind : MessageKind) (data : Bytes) :
    (e.deliver h kind data).2.registry.Coherent := by
  cases kind with
  | binary => exact c
  | text =>
    rw [deliver]
    split
    · exact c
    · exact failWebSocket_coherent c hm _ _

omit [DecidableEq κ] [Transport τ κ] in
theorem setFragment_coherent (c : e.registry.Coherent) (fragment : Option Fragment) :
    (e.update h fun t => { t with fragment }).registry.Coherent :=
  c.update (fun _ => rfl) (fun _ => rfl)
    (fun t ht s => ⟨s.closed, s.inbound, s.closeSent, s.closing, fun _ => hm t ht⟩) fun _ _ s => s

theorem beginMessage_coherent (c : e.registry.Coherent) (t : Session κ) (kind : MessageKind) (fin : Bool)
    (payload : Bytes) : (e.beginMessage h t kind fin payload).2.registry.Coherent := by
  rw [beginMessage]
  split
  · exact failWebSocket_coherent c hm _ _
  · split
    · exact deliver_coherent hm c _ _
    · exact setFragment_coherent hm c _

theorem continueMessage_coherent (c : e.registry.Coherent) (t : Session κ) (fin : Bool) (payload : Bytes) :
    (e.continueMessage h t fin payload).2.registry.Coherent := by
  have c' := setFragment_coherent hm c none
  have hm' : (e.update h fun t => { t with fragment := none }).registry.At h fun t => t.mode = .webSocket :=
    hm.update (fun _ => rfl) fun _ hm => hm
  rw [continueMessage]
  split
  · exact failWebSocket_coherent c hm _ _
  · dsimp only
    split
    · exact failWebSocket_coherent c' hm' _ _
    · split
      · exact deliver_coherent hm' c' _ _
      · exact setFragment_coherent hm c _

theorem dispatchFrame_coherent (c : e.registry.Coherent) (t : Session κ) (header : WebSocket.FrameHeader)
    (payload : Bytes) : (e.dispatchFrame h t header payload).2.registry.Coherent := by
  rw [dispatchFrame]
  split
  · exact failWebSocket_coherent c hm _ _
  · split
    · exact beginMessage_coherent hm c _ _ _ _
    · exact beginMessage_coherent hm c _ _ _ _
    · exact continueMessage_coherent hm c _ _ _
    · split
      · exact flush_coherent (enqueue_coherent c h _) h
      · exact c
    · exact c
    · obtain ⟨c', a'⟩ := sendClose_coherent c hm (answerCode payload) ""
      exact beginClose_coherent c' fun t ht _ => a' t ht
    · exact failWebSocket_coherent c hm _ _

theorem nextFrame_coherent (c : e.registry.Coherent) (t : Session κ) :
    (e.nextFrame h t).2.registry.Coherent := by
  rw [nextFrame]
  split
  · exact c
  · exact c
  · exact failWebSocket_coherent (clearInbound_coherent c h) (hm.update (fun _ => rfl) fun _ hm => hm) _ _
  · rename_i header _ _
    have c' := dropInbound_coherent c h header.frameLength
    have hm' : (e.dropInbound h header.frameLength).registry.At h fun t => t.mode = .webSocket :=
      hm.update (fun _ => rfl) fun _ hm => hm
    exact dispatchFrame_coherent hm' c' _ _ _

end

theorem nextFrame_ne_request (e : Engine τ κ σ) (h : Handle) (t : Session κ) (r : Http.Request) :
    (e.nextFrame h t).1 ≠ .request r := by
  rw [nextFrame]
  split
  · simp
  · simp
  · simp
  · rename_i header unmasked _
    have hframe := dispatchFrame_ofFrame (e.dropInbound h header.frameLength) h t header (header.payload unmasked)
    intro he
    rw [he] at hframe
    exact hframe

/-- Taking a message leaves all sessions coherent, and a session that hands over a request speaks HTTP. -/
theorem next_coherent (c : e.registry.Coherent) (h : Handle) :
    (e.next h).2.registry.Coherent ∧
      ∀ r, (e.next h).1 = .request r → (e.next h).2.registry.At h fun t => t.mode = .http := by
  rw [next]
  split
  · exact ⟨c, fun r hr => by simp at hr⟩
  · rename_i t hs
    have hat {P : Session κ → Prop} (hP : P t) : e.registry.At h P := .of_get? hs hP
    split
    · exact ⟨c, fun r hr => by simp at hr⟩
    · rename_i hopen
      simp only [Bool.or_eq_true, not_or, Bool.not_eq_true] at hopen
      split
      · rename_i hm
        exact ⟨nextRequest_coherent c (hat hm) (hat hopen.1) t, fun r hr => mode_of_nextRequest (hat hm) hr⟩
      · rename_i hm
        exact ⟨nextFrame_coherent (hat hm) c t, fun r hr => absurd hr (nextFrame_ne_request e h t r)⟩

end Engine

/-! ## Runs -/

/-- Programs that make any calls but to accept connections, and neither hand over bytes nor install handlers. -/
def Permit.applicationCalls (τ κ σ : Type) : Permit τ κ σ where
  call c := ∀ conn, c ≠ .accept conn
  reenter := False

/-- Anything may happen to the transport, but no connection is accepted. -/
def Surroundings.closed (τ : Type) (upgrades : Prop) : Surroundings τ where
  accepts := False
  upgrades := upgrades

omit [DecidableEq κ] [Transport τ κ] in
theorem Surroundings.closed_allows {upgrades : Prop} (e : Engine τ κ σ) {c : Call τ κ σ}
    (hc : ∀ conn, c ≠ .accept conn) : Engine.Allows (.closed τ upgrades) e c := by
  cases c with
  | accept conn => exact absurd rfl (hc conn)
  | _ => trivial

namespace Server

theorem at_http_of_moves {e e' : Engine τ κ σ} (hm : Engine.Moves (.closed τ False) e e')
    (w : e.registry.WellFormed) {h : Handle} (a : e.registry.At h fun t => t.mode = .http) :
    e'.registry.At h fun t => t.mode = .http := by
  refine hm.at id w a fun t u hc ht => ?_
  rcases hc.mode with hmode | ⟨hfalse, -⟩
  · exact hmode.trans ht
  · exact hfalse.elim

/-- `s'` came from `s` by the program of a handler. -/
structure Answered (s s' : Server τ κ σ) : Prop where
  coherent : s'.engine.registry.Coherent
  /-- No session has changed its protocol. -/
  http : ∀ h, s.engine.registry.At h (fun t => t.mode = .http) → s'.engine.registry.At h fun t => t.mode = .http

theorem runBy_answered {receive : κ → Bytes → Server τ κ σ → Nat × Server τ κ σ} {program : Program τ κ σ}
    (hprogram : program.Within (.applicationCalls τ κ σ)) {s : Server τ κ σ}
    (hs : s.handlers.Within (.applicationCalls τ κ σ)) (c : s.engine.registry.Coherent) :
    Answered s (runBy receive program s).2 := by
  have h := runBy_preserves
    (I := fun e => e.registry.Coherent ∧ Engine.Moves (.closed τ False) s.engine e) receive
    (fun e call hcall ⟨ce, hm⟩ => ⟨Engine.perform_coherent ce call,
      hm.trans (Engine.perform_moves e call (Surroundings.closed_allows e hcall))⟩)
    (fun hp => False.elim hp) hprogram hs ⟨c, .refl⟩
  exact ⟨h.1.1, fun _ a => at_http_of_moves h.1.2 c.wellFormed a⟩

theorem runBy_leads_closed (receive : κ → Bytes → Server τ κ σ → Nat × Server τ κ σ) (program : Program τ κ σ)
    (s : Server τ κ σ) (hprogram : program.Within (.applicationCalls τ κ σ))
    (hs : s.handlers.Within (.applicationCalls τ κ σ)) :
    Leads (.closed τ True) (.applicationCalls τ κ σ) s (runBy receive program s).2 :=
  runBy_leads (fun e _ hc => Surroundings.closed_allows e hc) (fun hr => False.elim hr) program s hprogram hs

theorem conclude_coherent {s : Server τ κ σ} (c : s.engine.registry.Coherent) {h : Handle}
    (a : s.engine.registry.At h fun t => t.mode = .http) (reply : Reply) :
    (s.conclude h reply).engine.registry.Coherent := by
  rw [conclude]
  split
  · exact c
  · split
    · split
      · exact c
      · exact Engine.replyAndClose_coherent c a _
    · split
      · exact Engine.flush_coherent c h
      · refine Engine.beginClose_coherent c fun t ht hm => ?_
        simp [a t ht] at hm

section

variable {run : Runner τ κ σ} {env : Surroundings τ}
  (hleads : ∀ program s, program.Within (.applicationCalls τ κ σ) →
    s.handlers.Within (.applicationCalls τ κ σ) → Leads env (.applicationCalls τ κ σ) s (run program s).2)
  (hanswered : ∀ program s, program.Within (.applicationCalls τ κ σ) →
    s.handlers.Within (.applicationCalls τ κ σ) → s.engine.registry.Coherent → Answered s (run program s).2)
include hanswered

theorem handleRequest_coherent {s : Server τ κ σ} (hs : s.handlers.Within (.applicationCalls τ κ σ))
    (c : s.engine.registry.Coherent) {h : Handle} (a : s.engine.registry.At h fun t => t.mode = .http)
    (r : Http.Request) : (handleRequest run h r s).engine.registry.Coherent := by
  rw [handleRequest]
  split
  · exact conclude_coherent c a {}
  · rename_i handler hslot
    dsimp only
    have ha := hanswered (handler h r) { s with
      engine := s.engine.record (.request h r), handlers := { s.handlers with request := none } }
      (hs.request handler hslot h r) (hs.withRequest (by simp)) c
    generalize run (handler h r) _ = result at ha ⊢
    exact conclude_coherent (s := { result.2 with
      handlers := { result.2.handlers with request := result.2.handlers.request.or (some handler) } })
      ha.coherent (ha.http h a) _

omit [DecidableEq κ] [Transport τ κ] in
theorem handleMessage_coherent {s : Server τ κ σ} (hs : s.handlers.Within (.applicationCalls τ κ σ))
    (c : s.engine.registry.Coherent) (h : Handle) (text : String) :
    (handleMessage run h text s).engine.registry.Coherent := by
  rw [handleMessage]
  split
  · exact c
  · rename_i handler hslot
    have ha := hanswered (handler h text) { s with
      engine := s.engine.record (.text h text), handlers := { s.handlers with message := none } }
      (hs.message handler hslot h text) (hs.withMessage (by simp)) c
    exact ha.coherent

omit [DecidableEq κ] [Transport τ κ] in
theorem handleBinary_coherent {s : Server τ κ σ} (hs : s.handlers.Within (.applicationCalls τ κ σ))
    (c : s.engine.registry.Coherent) (h : Handle) (data : Bytes) :
    (handleBinary run h data s).engine.registry.Coherent := by
  rw [handleBinary]
  split
  · exact c
  · rename_i handler hslot
    have ha := hanswered (handler h data) { s with
      engine := s.engine.record (.binary h data), handlers := { s.handlers with binary := none } }
      (hs.binary handler hslot h data) (hs.withBinary (by simp)) c
    exact ha.coherent

theorem handOver_coherent {s : Server τ κ σ} (hs : s.handlers.Within (.applicationCalls τ κ σ)) {h : Handle}
    {d : Delivery} {engine : Engine τ κ σ} (hn : s.engine.next h = (d, engine)) (c : s.engine.registry.Coherent) :
    (handOver run h d { s with engine }).engine.registry.Coherent := by
  obtain ⟨c', a'⟩ := Engine.next_coherent c h
  rw [hn] at c' a'
  cases d with
  | wait | again => exact c'
  | request r => exact handleRequest_coherent (s := { s with engine }) hanswered hs c' (a' r rfl) r
  | text text => exact handleMessage_coherent (s := { s with engine }) hanswered hs c' h text
  | binary data => exact handleBinary_coherent (s := { s with engine }) hanswered hs c' h data

include hleads

theorem dispatchLoop_coherent (h : Handle) (fuel : Nat) {s : Server τ κ σ}
    (hs : s.handlers.Within (.applicationCalls τ κ σ)) (c : s.engine.registry.Coherent) :
    (dispatchLoop run h fuel s).engine.registry.Coherent := by
  induction fuel generalizing s with
  | zero => exact c
  | succ fuel ih =>
      cases hn : s.engine.next h with
      | mk d engine =>
          by_cases hd : d = .wait
          · subst hd
            have c' := (Engine.next_coherent c h).1
            rw [hn] at c'
            rwa [dispatchLoop_of_wait hn]
          · rw [dispatchLoop_of_next hd hn]
            exact ih (handOver_leads hleads h d (s := { s with engine }) hs).handlers (handOver_coherent hanswered hs hn c)

theorem receiveBy_coherent (conn : κ) (data : Bytes) {s : Server τ κ σ}
    (hs : s.handlers.Within (.applicationCalls τ κ σ)) (c : s.engine.registry.Coherent) :
    (receiveBy run conn data s).2.engine.registry.Coherent := by
  rw [receiveBy]
  split
  · exact c
  · rename_i t ht
    split
    · exact c
    · rename_i hopen
      exact dispatchLoop_coherent hleads hanswered _ _ hs 
        (Engine.gather_coherent c (c.wellFormed.get?_of_ofConn? ht) (by simpa using hopen) data)

end

/-- The servers that a new server may become when the programs of its handlers make no more than calls. -/
abbrev ReachesByCalls (start s : Server τ κ σ) : Prop :=
  Reaches (fun _ o => o.Installs (.applicationCalls τ κ σ)) start s

theorem receiveWithin_coherent (depth : Nat) (conn : κ) (data : Bytes) {s : Server τ κ σ}
    (hs : s.handlers.Within (.applicationCalls τ κ σ)) (c : s.engine.registry.Coherent) :
    (receiveWithin depth conn data s).2.engine.registry.Coherent := by
  cases depth with
  | zero => exact c
  | succ depth =>
      exact receiveBy_coherent (runBy_leads_closed _) (fun _ _ hp hs c => runBy_answered hp hs c) conn data hs c

theorem apply_coherent {s : Server τ κ σ} (hs : s.handlers.Within (.applicationCalls τ κ σ))
    (c : s.engine.registry.Coherent) (o : Operation τ κ σ) : (s.apply o).engine.registry.Coherent := by
  cases o with
  | call call => exact Engine.perform_coherent c call
  | receive conn data => exact receiveWithin_coherent receiveDepth conn data hs c
  | onRequest | onMessage | onBinary => exact c

/-! ## Calls of handlers -/

theorem programLeaves_coherent {program : Program τ κ σ} {e e' : Engine τ κ σ} (hl : program.Leaves e e')
    (hp : program.Within (.applicationCalls τ κ σ)) (c : e.registry.Coherent) :
    e'.registry.Coherent ∧ Engine.Moves (.closed τ True) e e' := by
  induction hl with
  | call =>
      cases hp with
      | call hc => exact ⟨Engine.perform_coherent c _, Engine.perform_moves _ _ (Surroundings.closed_allows _ hc)⟩
  | later _ ih =>
      cases hp with
      | call hc _ hn =>
          obtain ⟨c', hm⟩ := ih (hn _) (Engine.perform_coherent c _)
          exact ⟨c', (Engine.perform_moves _ _ (Surroundings.closed_allows _ hc)).trans hm⟩

theorem dispatchLeaves_coherent {receive : κ → Bytes → Server τ κ σ → Nat × Server τ κ σ} {h : Handle}
    {s : Server τ κ σ} {e : Engine τ κ σ} (hl : DispatchLeaves (runBy receive) h s e)
    (hs : s.handlers.Within (.applicationCalls τ κ σ)) (c : s.engine.registry.Coherent) :
    e.registry.Coherent ∧ Engine.Moves (.closed τ True) s.engine e := by
  have taken {s : Server τ κ σ} (c : s.engine.registry.Coherent) {d : Delivery} {engine : Engine τ κ σ}
      (hn : s.engine.next h = (d, engine)) :
      engine.registry.Coherent ∧ Engine.Moves (.closed τ True) s.engine engine := by
    have hm : Engine.Moves (.closed τ True) s.engine (s.engine.next h).2 :=
      Engine.next_moves trivial trivial s.engine h
    have c' := (Engine.next_coherent c h).1
    rw [hn] at hm c'
    exact ⟨c', hm⟩
  -- A handler is called once its message is in the journal.
  have called {s : Server τ κ σ} (c : s.engine.registry.Coherent) {d : Delivery} {engine e : Engine τ κ σ}
      (hn : s.engine.next h = (d, engine)) {entry : Entry κ} {program : Program τ κ σ}
      (hl : program.Leaves (engine.record entry) e) (hp : program.Within (.applicationCalls τ κ σ))
      (hi : entry.IsNote) :
      e.registry.Coherent ∧ Engine.Moves (.closed τ True) s.engine e := by
    obtain ⟨c', hm⟩ := taken c hn
    obtain ⟨c'', hm'⟩ := programLeaves_coherent hl hp c'
    exact ⟨c'', hm.trans (.head (.noted hi) hm')⟩
  induction hl with
  | request hn hh hl => exact called c hn hl (hs.request _ hh h _) trivial
  | text hn hh hl => exact called c hn hl (hs.message _ hh h _) trivial
  | binary hn hh hl => exact called c hn hl (hs.binary _ hh h _) trivial
  | @later s engine e d hd hn _ ih =>
      have hover : Leads (.closed τ True) (.applicationCalls τ κ σ) { s with engine }
          (handOver (runBy receive) h d { s with engine }) :=
        handOver_leads (runBy_leads_closed receive) h d hs
      obtain ⟨c', hm⟩ := ih hover.handlers (handOver_coherent (fun _ _ hp hs c => runBy_answered hp hs c) hs hn c)
      exact ⟨c', (taken c hn).2.trans (hover.moves.trans hm)⟩

/-- Whatever an operation or a call made meanwhile leaves, its sessions are coherent, and those that were there before
have gone on. -/
theorem leaves_coherent {s : Server τ κ σ} (hs : s.handlers.Within (.applicationCalls τ κ σ))
    (c : s.engine.registry.Coherent) {o : Operation τ κ σ} (ho : o.Installs (.applicationCalls τ κ σ))
    {e : Engine τ κ σ} (he : s.Leaves o e) :
    e.registry.Coherent ∧ ((∀ conn, o ≠ .call (.accept conn)) → Engine.Moves (.closed τ True) s.engine e) := by
  cases he with
  | apply =>
      refine ⟨apply_coherent hs c o, fun haccept => ?_⟩
      have hl : Leads (.closed τ True) (.applicationCalls τ κ σ) s (s.apply o) :=
        apply_leads trivial trivial trivial (fun e _ hc => Surroundings.closed_allows e hc) hs ho fun call hcall =>
          Surroundings.closed_allows _ fun conn hc => haccept conn (hc ▸ hcall)
      exact hl.moves
  | @dispatch conn data t e hc hopen hl =>
      have c' := Engine.gather_coherent c (c.wellFormed.get?_of_ofConn? hc) hopen data
      obtain ⟨ce, hm⟩ := dispatchLeaves_coherent hl hs c'
      exact ⟨ce, fun _ => (Engine.gather_moves trivial s.engine t.handle data).trans hm⟩

omit [Transport τ κ] in
/-- An accepted connection leaves every other session as it is. -/
theorem mem_of_accept {e : Engine τ κ σ} {conn : κ} {u : Session κ}
    (hu : u ∈ (e.accept conn).2.registry.sessions) :
    u ∈ e.registry.sessions ∨ e.registry.get? u.handle = none := by
  rw [Engine.accept] at hu
  split at hu
  · rename_i hc
    have hr := Registry.registered_of_create hc
    dsimp only at hu
    rw [Engine.notify_registry] at hu
    rcases hr.mem_sessions.mp hu with rfl | hu
    · exact .inr hr.handle_free
    · exact .inl hu
  · rename_i hc
    exact .inl (Registry.eq_of_create_error hc ▸ hu)

/-- No session ever gives up the WebSocket protocol. -/
theorem webSocket_of_leaves {s : Server τ κ σ} (hs : s.handlers.Within (.applicationCalls τ κ σ))
    (c : s.engine.registry.Coherent) {o : Operation τ κ σ} (ho : o.Installs (.applicationCalls τ κ σ))
    {e : Engine τ κ σ} (he : s.Leaves o e) {t u : Session κ} (ht : t ∈ s.engine.registry.sessions)
    (hu : u ∈ e.registry.sessions) (hh : u.handle = t.handle) (hm : t.mode = .webSocket) : u.mode = .webSocket := by
  by_cases haccept : ∃ conn, o = .call (.accept conn)
  · obtain ⟨conn, rfl⟩ := haccept
    cases he with
    | apply =>
        rcases mem_of_accept hu with hu | hfree
        · rwa [c.wellFormed.eq_of_handle hu ht hh]
        · exact absurd hh.symm (Registry.get?_eq_none.mp hfree t ht)
  · have hmoves := (leaves_coherent hs c ho he).2 fun conn hc => haccept ⟨conn, hc⟩
    obtain ⟨v, hv, hc⟩ := hmoves.continues id c.wellFormed hu
    have hvt : v = t := c.wellFormed.eq_of_handle hv ht (hc.handle.symm.trans hh)
    rcases hc.mode with hmode | ⟨-, hmode⟩
    · rw [hmode, hvt, hm]
    · exact hmode

/-- Whenever an operation on a server has returned, or one that a handler called meanwhile, the flags, protocol,
received bytes and queue of every session go together, and no session has given up the WebSocket protocol. -/
theorem coherent_of_reaches {config : Config} {transport : τ} {app : σ} {s : Server τ κ σ}
    (hr : ReachesByCalls (new config transport app) s) :
    (∀ t ∈ s.engine.registry.sessions, t.Steady ∧ t.Settled) ∧
      ∀ o : Operation τ κ σ, o.Installs (.applicationCalls τ κ σ) → ∀ e, s.Leaves o e →
        (∀ u ∈ e.registry.sessions, u.Steady ∧ u.Settled) ∧
          ∀ t ∈ s.engine.registry.sessions, ∀ u ∈ e.registry.sessions,
            u.handle = t.handle → t.mode = .webSocket → u.mode = .webSocket := by
  have hc : s.handlers.Within (.applicationCalls τ κ σ) ∧ s.engine.registry.Coherent := by
    induction hr with
    | start => exact ⟨Handlers.within_none _, Registry.coherent_new _⟩
    | step _ ho ih =>
        obtain ⟨hs, c⟩ := ih
        exact ⟨apply_within hs ho, apply_coherent hs c _⟩
  obtain ⟨hs, c⟩ := hc
  refine ⟨fun t ht => ⟨c.steady t ht, c.settled t ht⟩, fun o ho e he => ⟨fun u hu => ?_, ?_⟩⟩
  · have ce := (leaves_coherent hs c ho he).1
    exact ⟨ce.steady u hu, ce.settled u hu⟩
  · exact fun t ht u hu hh hm => webSocket_of_leaves hs c ho he ht hu hh hm

/-- A handler that answers and closes leaves a session that waits for the answer to be acknowledged. -/
theorem coherent_of_close_in_handler :
    let answer : Handle → Http.Request → Program (Transport.InMemory Nat) Nat Unit := fun h _ =>
      .call (.send h [111, 107]) fun _ => .call (.close h) fun _ => .done { handled := true }
    let s : Server (Transport.InMemory Nat) Nat Unit :=
      [.call (.accept 7), .onRequest answer].foldl apply (new {} {} ())
    ∃ e, s.Leaves (.receive 7 (Text.utf8 "GET / HTTP/1.1\r\n\r\n")) e ∧
      (∀ u ∈ e.registry.sessions, u.Steady ∧ u.Settled) ∧
        e.registry.sessions.map (fun t => (t.closing, t.outbound.inFlight)) = [(true, 2)] := by
  intro answer s
  have hreaches : ReachesByCalls (new {} {} ()) s := by
    refine (Reaches.start.step (o := .call (.accept 7)) trivial).step (o := .onRequest answer) fun h r => ?_
    exact .call nofun (fun _ _ hf => hf.elim) fun _ =>
      .call nofun (fun _ _ hf => hf.elim) fun _ => .done _
  have hleaves : s.Leaves (.receive 7 (Text.utf8 "GET / HTTP/1.1\r\n\r\n")) _ :=
    .dispatch (t := .accepted .first 7 0) rfl rfl (.request rfl rfl (.later .call))
  exact ⟨_, hleaves, ((coherent_of_reaches hreaches).2 (.receive 7 _) trivial _ hleaves).1, by decide⟩

end Server
end WebServer
