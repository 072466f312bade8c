import WebServer.Proofs.Engine.Moves

/-! # Strides of an engine

What an engine does by itself it does in strides, each of which keeps its sessions in step with its transport:
queueing, writing, and ending a session together with its connection are one stride each. Accepting a connection,
giving up a broken one and acknowledging bytes are no strides, because the transport has a part of its own in them. -/

namespace WebServer

/-- The live connections with what is queued on them. -/
def Registry.outputs {κ : Type} (r : Registry κ) : List (κ × OutboundQueue) :=
  r.sessions.map fun t => (t.conn, t.outbound)

namespace Engine

variable {τ κ σ : Type}

/-- Nothing changed that a transport is concerned with. -/
structure Beside (e e' : Engine τ κ σ) : Prop where
  transport : e'.transport = e.transport
  outputs : e'.registry.outputs = e.registry.outputs

theorem Beside.update (e : Engine τ κ σ) (h : Handle) {f : Session κ → Session κ} (hc : ∀ t, (f t).conn = t.conn)
    (hq : ∀ t, (f t).outbound = t.outbound) : Beside e (e.update h f) := by
  refine ⟨rfl, ?_⟩
  simp only [Registry.outputs, Engine.update, Registry.update, List.map_map]
  refine List.map_congr_left fun t _ => ?_
  rw [Function.comp_apply]
  split
  · rw [hc, hq]
  · rfl

variable [DecidableEq κ] [Transport τ κ] {env : Surroundings τ}

inductive Stride (env : Surroundings τ) (e : Engine τ κ σ) : Engine τ κ σ → Prop where
  | beside {e' : Engine τ κ σ} (hm : Moves env e e') (hb : Beside e e') : Stride env e e'
  | queued {h : Handle} {t : Session κ} {data : Bytes} {queue : OutboundQueue}
      (hs : e.session? h = some t) (hq : t.outbound.enqueue data = .ok queue) :
      Stride env e ((e.record (.queued h data)).update h fun t => { t with outbound := queue })
  | flushed (h : Handle) : Stride env e (e.flush h)
  | ended (h : Handle) : Stride env e (e.forceClose h)
  | listened (port : Nat) : Stride env e { e with transport := (Transport.listen e.transport port).2 }
  | stoppedListening : Stride env e { e with transport := Transport.stopListening e.transport }

/-- A chain of strides. -/
abbrev Strides (env : Surroundings τ) : Engine τ κ σ → Engine τ κ σ → Prop :=
  Relation.ReflTransGen (Stride env)

theorem Stride.moves {e e' : Engine τ κ σ} (hs : Stride env e e') : Moves env e e' := by
  cases hs with
  | beside hm => exact hm
  | queued hs hq => exact .single (.queued hs hq)
  | flushed h => exact flush_moves e h
  | ended h => exact forceClose_moves e h
  | listened port => exact .single (.listened port)
  | stoppedListening => exact .single .stoppedListening

theorem Strides.moves {e e' : Engine τ κ σ} (hs : Strides env e e') : Moves env e e' := by
  induction hs with
  | refl => exact .refl
  | tail _ hstride ih => exact ih.trans hstride.moves

omit [DecidableEq κ] [Transport τ κ] in
theorem notify_transport (e : Engine τ κ σ) (h : Handle) (n : Notice) : (e.notify h n).transport = e.transport := by
  rw [notify]
  split <;> rfl

omit [Transport τ κ] in
theorem retire_transport (e : Engine τ κ σ) (h : Handle) : (e.retire h).transport = e.transport := by
  rw [retire]
  split
  · rfl
  · exact notify_transport _ h .closed

theorem update_strides {e : Engine τ κ σ} {h : Handle} {f : Session κ → Session κ}
    (hm : Moves env e (e.update h f)) (hc : ∀ t, (f t).conn = t.conn) (hq : ∀ t, (f t).outbound = t.outbound) :
    Strides env e (e.update h f) :=
  .single (.beside hm (.update e h hc hq))

theorem adjusted_strides (e : Engine τ κ σ) (h : Handle) {f : Session κ → Session κ}
    (hf : ∀ t, Session.Adjusted e.now t (f t)) : Strides env e (e.update h f) :=
  update_strides (adjusted_moves e h hf) (fun t => (hf t).conn) fun t => (hf t).outbound

theorem arranged_strides {e e' : Engine τ κ σ} (hr : e'.registry = e.registry) (ht : e'.transport = e.transport)
    (hj : e'.journal = e.journal) (hc : e'.config = e.config) (hn : e'.clock = e.clock)
    (ha : env.arranges ∨ e'.app = e.app ∧ e'.watcher = e.watcher) : Strides env e e' :=
  .single (.beside (.single (.arranged hr ht hj hc hn ha)) ⟨ht, congrArg Registry.outputs hr⟩)

theorem noted_strides (e : Engine τ κ σ) {entry : Entry κ} (hn : entry.IsNote) : Strides env e (e.record entry) :=
  .single (.beside (.single (.noted hn)) ⟨rfl, rfl⟩)

theorem notify_strides (e : Engine τ κ σ) (h : Handle) (n : Notice) : Strides env e (e.notify h n) := by
  have hb : Beside e (e.notify h n) := by
    refine ⟨notify_transport e h n, ?_⟩
    rw [notify]
    split <;> rfl
  exact .single (.beside (notify_moves e h n) hb)

/-! ## Output -/

theorem flush_strides (e : Engine τ κ σ) (h : Handle) : Strides env e (e.flush h) :=
  .single (.flushed h)

theorem enqueue_strides (e : Engine τ κ σ) (h : Handle) (data : Bytes) :
    Strides env e (e.enqueue h data).2 := by
  rw [enqueue]
  split
  · exact .refl
  · rename_i t hs
    split
    · exact .refl
    · rename_i queue hq
      exact .single (.queued hs hq)

theorem send_strides (e : Engine τ κ σ) (h : Handle) (data : Bytes) : Strides env e (e.send h data).2 := by
  rw [send]
  split
  · exact .refl
  · split
    · exact .refl
    · have hq : Strides env e (e.enqueue h data).2 := enqueue_strides e h data
      split
      · rename_i he
        rwa [he] at hq
      · rename_i he
        rw [he] at hq
        exact hq.trans (flush_strides _ _)

theorem sendFrame_strides (e : Engine τ κ σ) (h : Handle) (opcode : WebSocket.Opcode) (payload : Bytes) :
    Strides env e (e.sendFrame h opcode payload).2 := by
  rw [sendFrame]
  split
  · exact .refl
  · exact .refl
  · exact send_strides _ _ _

theorem sendToAll_strides (text : String) (hs : List Handle) (e : Engine τ κ σ) :
    Strides env e (sendToAll text hs e).2 := by
  induction hs generalizing e with
  | nil => exact .refl
  | cons h hs ih => exact (sendFrame_strides e h .text (Text.utf8 text)).trans (ih _)

theorem serve_strides (e : Engine τ κ σ) (files : StaticFiles) (h : Handle) (r : Http.Request) :
    Strides env e (e.serve files h r).2 := by
  rw [serve]
  split
  · exact .refl
  · rename_i file _
    dsimp only
    have hhead : Strides env e (e.send h _).2 := send_strides e h
      (Text.utf8 (Http.Response.headText "200 OK" file.contentType file.body.length))
    split
    · rename_i he
      rwa [he] at hhead
    · rename_i e₁ he
      rw [he] at hhead
      split
      · exact hhead
      · have hbody : Strides env e₁ (e₁.send h file.body).2 := send_strides e₁ h file.body
        split
        · rename_i he₁
          rw [he₁] at hbody
          exact hhead.trans hbody
        · rename_i he₁
          rw [he₁] at hbody
          exact hhead.trans hbody


/-! ## Closing -/

theorem forceClose_strides (e : Engine τ κ σ) (h : Handle) : Strides env e (e.forceClose h) :=
  .single (.ended h)

theorem finishClose_strides (e : Engine τ κ σ) (h : Handle) : Strides env e (e.finishClose h) := by
  rw [finishClose]
  split
  · exact .refl
  · split
    · exact forceClose_strides _ _
    · exact .refl

theorem beginClose_strides (e : Engine τ κ σ) (h : Handle) : Strides env e (e.beginClose h) := by
  rw [beginClose]
  split
  · exact .refl
  · dsimp only
    refine .trans ?_ ((flush_strides _ _).trans (finishClose_strides _ _))
    split
    · exact .refl
    · exact adjusted_strides _ _ fun _ =>
        ⟨rfl, rfl, rfl, rfl, fun _ => rfl, .inr ⟨rfl, rfl⟩, fun _ => .inl (Bool.or_true _)⟩

theorem sendClose_strides (e : Engine τ κ σ) (h : Handle) (code : WebSocket.CloseCode) (reason : String) :
    Strides env e (e.sendClose h code reason) := by
  rw [sendClose]
  split
  · exact .refl
  · split
    · exact .refl
    · have hq : Strides env e (e.enqueue h _).2 := enqueue_strides e h
        (WebSocket.encode .close (WebSocket.closePayload code reason) none)
      split
      · rename_i he
        rwa [he] at hq
      · rename_i he
        rw [he] at hq
        refine .trans ?_ (flush_strides _ _)
        exact hq.trans (adjusted_strides _ _ fun _ =>
          ⟨rfl, rfl, rfl, rfl, id, .inl rfl, fun _ => .inl (Bool.true_or _)⟩)

theorem failWebSocket_strides (e : Engine τ κ σ) (h : Handle) (code : WebSocket.CloseCode)
    (reason : String) : Strides env e (e.failWebSocket h code reason) :=
  (sendClose_strides _ _ _ _).trans (beginClose_strides _ _)

theorem replyAndClose_strides (e : Engine τ κ σ) (h : Handle) (response : Bytes) :
    Strides env e (e.replyAndClose h response) :=
  (enqueue_strides _ _ _).trans (beginClose_strides _ _)

theorem close_strides (e : Engine τ κ σ) (h : Handle) : Strides env e (e.close h).2 := by
  rw [close]
  split
  · exact .refl
  · split
    · dsimp only
      split
      · exact .refl
      · exact sendClose_strides _ _ _ _
    · exact beginClose_strides _ _

/-! ## Events and polls -/


theorem remoteClosed_strides (e : Engine τ κ σ) (conn : κ) : Strides env e (e.remoteClosed conn) := by
  rw [remoteClosed]
  split
  · exact .refl
  · exact forceClose_strides _ _


/-- What is acknowledged is taken off the queue, which is no stride; the rest of it is strides. -/
theorem sent_cases (e : Engine τ κ σ) (conn : κ) (count : Nat) :
    (e.registry.ofConn? conn = none ∧ e.sent conn count = e) ∨
      ∃ t, e.registry.ofConn? conn = some t ∧
        Strides env (e.update t.handle fun u => (u.acknowledge count).touchSent e.now) (e.sent conn count) := by
  rw [sent]
  split
  · rename_i hs
    exact .inl ⟨hs, rfl⟩
  · rename_i t hs
    exact .inr ⟨t, hs, (flush_strides _ _).trans (finishClose_strides _ _)⟩

theorem start_strides (e : Engine τ κ σ) : Strides env e e.start.2 := by
  have hl : Stride env e { e with transport := (Transport.listen e.transport e.config.port).2 } :=
    .listened e.config.port
  rw [start]
  split
  · rename_i he
    rw [he] at hl
    exact .single hl
  · rename_i he
    rw [he] at hl
    exact .head hl (arranged_strides rfl rfl rfl rfl rfl (.inr ⟨rfl, rfl⟩))

theorem foldl_strides {step : Engine τ κ σ → Handle → Engine τ κ σ}
    (hstep : ∀ e h, Strides env e (step e h)) (hs : List Handle) (e : Engine τ κ σ) :
    Strides env e (hs.foldl step e) := by
  induction hs generalizing e with
  | nil => exact .refl
  | cons h hs ih => exact (hstep e h).trans (ih _)

theorem stop_strides (e : Engine τ κ σ) : Strides env e e.stop := by
  rw [stop]
  refine .trans ?_ (foldl_strides forceClose_strides _ _)
  split
  · exact .head .stoppedListening (arranged_strides rfl rfl rfl rfl rfl (.inr ⟨rfl, rfl⟩))
  · exact .refl

theorem pollSession_strides (e : Engine τ κ σ) (h : Handle) : Strides env e (e.pollSession h) := by
  rw [pollSession]
  dsimp only
  refine .trans (flush_strides e h) ?_
  split
  · exact .refl
  · split
    · exact finishClose_strides _ _
    · exact (notify_strides _ _ _).trans ((sendClose_strides _ _ _ _).trans (finishClose_strides _ _))
    · refine .trans ?_ (forceClose_strides _ _)
      split
      · exact .refl
      · exact notify_strides _ _ _

theorem pollConn_strides (e : Engine τ κ σ) (conn : κ) : Strides env e (e.pollConn conn) := by
  rw [pollConn]
  split
  · exact .refl
  · exact pollSession_strides _ _

theorem poll_strides (e : Engine τ κ σ) : Strides env e e.poll :=
  foldl_strides pollSession_strides _ _

/-- What the surroundings must allow for a call to be made. -/
def Allows (env : Surroundings τ) (e : Engine τ κ σ) : Call τ κ σ → Prop
  | .accept _ => env.accepts
  | .setTransport transport => env.drift e.transport transport
  | .advance _ => env.advances
  | .watch _ | .setApp _ => env.arranges
  | _ => True

/-- A call that tells the engine what has become of its transport. -/
def IsReport : Call τ κ σ → Prop
  | .accept _ | .sent .. | .failed _ | .setTransport _ => True
  | _ => False

theorem perform_strides (e : Engine τ κ σ) (c : Call τ κ σ) (hr : ¬IsReport c) (hc : Allows env e c) :
    Strides env e (e.perform c).2 := by
  cases c with
  | accept | sent | failed | setTransport => exact absurd trivial hr
  | remoteClosed conn => exact remoteClosed_strides e conn
  | pollConn conn => exact pollConn_strides e conn
  | poll => exact poll_strides e
  | send h data => exact send_strides e h data
  | sendMessage h text => exact sendFrame_strides e h .text (Text.utf8 text)
  | sendBinary h data => exact sendFrame_strides e h .binary data
  | broadcast text => exact sendToAll_strides text e.audience e
  | serve files h r => exact serve_strides e files h r
  | close h => exact close_strides e h
  | start => exact start_strides e
  | stop => exact stop_strides e
  | advance millis => exact .single (.beside (.single (.advanced millis hc)) ⟨rfl, rfl⟩)
  | watch watcher => exact arranged_strides rfl rfl rfl rfl rfl (.inl hc)
  | inspect => exact .refl
  | setApp app => exact arranged_strides rfl rfl rfl rfl rfl (.inl hc)

/-! ## Inbound messages -/

def gather (e : Engine τ κ σ) (h : Handle) (data : Bytes) : Engine τ κ σ :=
  e.update h fun t => { t with inbound := t.inbound ++ data }.touch e.now

theorem gather_moves (hr : env.receives) (e : Engine τ κ σ) (h : Handle) (data : Bytes) :
    Moves env e (e.gather h data) := by
  have htouch : Moves env _ _ := adjusted_moves (e.update h fun t => { t with inbound := t.inbound ++ data }) h
    (Session.touch_adjusted e.now)
  rw [update_update e (f := fun t => { t with inbound := t.inbound ++ data }) fun _ => rfl] at htouch
  exact .head (.received h data hr) htouch

theorem gather_strides (hr : env.receives) (e : Engine τ κ σ) (h : Handle) (data : Bytes) :
    Strides env e (e.gather h data) :=
  update_strides (gather_moves hr e h data) (fun _ => Session.touch_conn ..) fun _ => Session.touch_outbound ..

section

variable (ht : env.takes)
include ht

theorem clearInbound_moves (e : Engine τ κ σ) (h : Handle) : Moves env e (e.clearInbound h) := by
  have htook : Move env e (e.update h fun t => { t with inbound := t.inbound.drop t.inbound.length }) :=
    .took h ht
  simp only [List.drop_length] at htook
  exact .single htook

theorem clearInbound_strides (e : Engine τ κ σ) (h : Handle) : Strides env e (e.clearInbound h) :=
  update_strides (clearInbound_moves ht e h) (fun _ => rfl) fun _ => rfl

theorem dropInbound_strides (e : Engine τ κ σ) (h : Handle) (count : Nat) :
    Strides env e (e.dropInbound h count) :=
  update_strides (.single (.took h ht)) (fun _ => rfl) fun _ => rfl

end

theorem upgrade_strides (hu : env.upgrades) (e : Engine τ κ σ) (h : Handle) (r : Http.Request) :
    Strides env e (e.upgrade h r) := by
  rw [upgrade]
  split
  · exact replyAndClose_strides _ _ _
  · rename_i response _
    have hq : Strides env e (e.enqueue h response).2 := enqueue_strides e h response
    split
    · rename_i he
      rwa [he] at hq
    · rename_i he
      rw [he] at hq
      refine .trans ?_ ((notify_strides _ _ _).trans (flush_strides _ _))
      exact hq.trans (update_strides (.single (.upgraded h hu)) (fun _ => rfl) fun _ => rfl)

theorem nextRequest_strides (hu : env.upgrades) (ht : env.takes) (e : Engine τ κ σ) (h : Handle) (t : Session κ) :
    Strides env e (e.nextRequest h t).2 := by
  rw [nextRequest]
  dsimp only
  split
  · split
    · exact (clearInbound_strides ht _ _).trans (replyAndClose_strides _ _ _)
    · exact .refl
  · exact (clearInbound_strides ht _ _).trans (replyAndClose_strides _ _ _)
  · exact (clearInbound_strides ht _ _).trans (replyAndClose_strides _ _ _)
  · split
    · exact (dropInbound_strides ht _ _ _).trans (upgrade_strides hu _ _ _)
    · exact dropInbound_strides ht _ _ _

theorem deliver_strides (e : Engine τ κ σ) (h : Handle) (kind : MessageKind) (data : Bytes) :
    Strides env e (e.deliver h kind data).2 := by
  cases kind with
  | binary => exact .refl
  | text =>
    rw [deliver]
    split
    · exact .refl
    · exact failWebSocket_strides _ _ _ _

theorem setFragment_strides (e : Engine τ κ σ) (h : Handle) (fragment : Option Fragment) :
    Strides env e (e.update h fun t => { t with fragment }) :=
  adjusted_strides e h fun _ => ⟨rfl, rfl, rfl, rfl, id, .inl rfl, id⟩

theorem beginMessage_strides (e : Engine τ κ σ) (h : Handle) (t : Session κ) (kind : MessageKind)
    (fin : Bool) (payload : Bytes) : Strides env e (e.beginMessage h t kind fin payload).2 := by
  rw [beginMessage]
  split
  · exact failWebSocket_strides _ _ _ _
  · split
    · exact deliver_strides _ _ _ _
    · exact setFragment_strides _ _ _

theorem continueMessage_strides (e : Engine τ κ σ) (h : Handle) (t : Session κ) (fin : Bool)
    (payload : Bytes) : Strides env e (e.continueMessage h t fin payload).2 := by
  rw [continueMessage]
  split
  · exact failWebSocket_strides _ _ _ _
  · dsimp only
    split
    · exact (setFragment_strides _ _ _).trans (failWebSocket_strides _ _ _ _)
    · split
      · exact (setFragment_strides _ _ _).trans (deliver_strides _ _ _ _)
      · exact setFragment_strides _ _ _

theorem dispatchFrame_strides (e : Engine τ κ σ) (h : Handle) (t : Session κ)
    (header : WebSocket.FrameHeader) (payload : Bytes) :
    Strides env e (e.dispatchFrame h t header payload).2 := by
  rw [dispatchFrame]
  split
  · exact failWebSocket_strides _ _ _ _
  · split
    · exact beginMessage_strides _ _ _ _ _ _
    · exact beginMessage_strides _ _ _ _ _ _
    · exact continueMessage_strides _ _ _ _ _
    · split
      · exact (enqueue_strides _ _ _).trans (flush_strides _ _)
      · exact .refl
    · exact .refl
    · exact (sendClose_strides _ _ _ _).trans (beginClose_strides _ _)
    · exact failWebSocket_strides _ _ _ _

theorem nextFrame_strides (ht : env.takes) (e : Engine τ κ σ) (h : Handle) (t : Session κ) :
    Strides env e (e.nextFrame h t).2 := by
  rw [nextFrame]
  split
  · exact .refl
  · exact .refl
  · exact (clearInbound_strides ht _ _).trans (failWebSocket_strides _ _ _ _)
  · exact (dropInbound_strides ht _ _ _).trans (dispatchFrame_strides _ _ _ _ _)

theorem next_strides (hu : env.upgrades) (ht : env.takes) (e : Engine τ κ σ) (h : Handle) :
    Strides env e (e.next h).2 := by
  rw [next]
  split
  · exact .refl
  · split
    · exact .refl
    · split
      · exact nextRequest_strides hu ht _ _ _
      · exact nextFrame_strides ht _ _ _


/-! ## Operations as chains of moves -/

theorem enqueue_moves (e : Engine τ κ σ) (h : Handle) (data : Bytes) : Moves env e (e.enqueue h data).2 :=
  (enqueue_strides e h data).moves

theorem finishClose_moves (e : Engine τ κ σ) (h : Handle) : Moves env e (e.finishClose h) :=
  (finishClose_strides e h).moves

theorem beginClose_moves (e : Engine τ κ σ) (h : Handle) : Moves env e (e.beginClose h) :=
  (beginClose_strides e h).moves

theorem sendClose_moves (e : Engine τ κ σ) (h : Handle) (code : WebSocket.CloseCode) (reason : String) :
    Moves env e (e.sendClose h code reason) :=
  (sendClose_strides e h code reason).moves

theorem replyAndClose_moves (e : Engine τ κ σ) (h : Handle) (response : Bytes) :
    Moves env e (e.replyAndClose h response) :=
  (replyAndClose_strides e h response).moves

theorem sent_moves (e : Engine τ κ σ) (conn : κ) (count : Nat) : Moves env e (e.sent conn count) := by
  obtain ⟨-, he⟩ | ⟨t, -, (hs : Strides env _ _)⟩ := sent_cases e conn count
  · rw [he]
  · have htouch : Moves env _ _ := adjusted_moves (e.update t.handle (.acknowledge count)) t.handle
      (Session.touchSent_adjusted e.now)
    rw [update_update e (f := .acknowledge count) fun _ => rfl] at htouch
    exact .head (.acknowledged t.handle count) (htouch.trans hs.moves)

theorem failed_moves (e : Engine τ κ σ) (conn : κ) : Moves env e (e.failed conn) := by
  rw [failed]
  split
  · exact .refl
  · exact retire_moves _ _

theorem start_moves (e : Engine τ κ σ) : Moves env e e.start.2 :=
  (start_strides e).moves

theorem perform_moves (e : Engine τ κ σ) (c : Call τ κ σ) (hc : Allows env e c) :
    Moves env e (e.perform c).2 := by
  cases c with
  | accept conn => exact accept_moves hc e conn
  | sent conn count => exact sent_moves e conn count
  | failed conn => exact failed_moves e conn
  | setTransport transport => exact .single (.drifted hc)
  | _ => exact (perform_strides e _ id hc).moves

theorem dropInbound_moves (ht : env.takes) (e : Engine τ κ σ) (h : Handle) (count : Nat) :
    Moves env e (e.dropInbound h count) :=
  (dropInbound_strides ht e h count).moves

theorem upgrade_moves (hu : env.upgrades) (e : Engine τ κ σ) (h : Handle) (r : Http.Request) :
    Moves env e (e.upgrade h r) :=
  (upgrade_strides hu e h r).moves

theorem deliver_moves (e : Engine τ κ σ) (h : Handle) (kind : MessageKind) (data : Bytes) :
    Moves env e (e.deliver h kind data).2 :=
  (deliver_strides e h kind data).moves

theorem setFragment_moves (e : Engine τ κ σ) (h : Handle) (fragment : Option Fragment) :
    Moves env e (e.update h fun t => { t with fragment }) :=
  (setFragment_strides e h fragment).moves

theorem dispatchFrame_moves (e : Engine τ κ σ) (h : Handle) (t : Session κ) (header : WebSocket.FrameHeader)
    (payload : Bytes) : Moves env e (e.dispatchFrame h t header payload).2 :=
  (dispatchFrame_strides e h t header payload).moves

theorem next_moves (hu : env.upgrades) (ht : env.takes) (e : Engine τ κ σ) (h : Handle) : Moves env e (e.next h).2 :=
  (next_strides hu ht e h).moves

/-! ## What becomes of the transport -/

end Engine

section

variable {τ κ σ : Type} [DecidableEq κ] [Transport τ κ]

/-- A property that a transport keeps, whatever an engine asks of it. -/
structure Transport.Keeps (P : τ → Prop) : Prop where
  write : ∀ t conn chunk, P t → P (Transport.write t conn chunk).2
  close : ∀ t conn, P t → P (Transport.close t conn).2
  listen : ∀ t port, P t → P (Transport.listen t port).2
  stopListening : ∀ t, P t → P (Transport.stopListening t)

variable {P : τ → Prop} (k : Transport.Keeps P)
include k

omit [DecidableEq κ] in
theorem Outflow.offer_keeps (h : Handle) (conn : κ) (segment : Nat) {o : Outflow τ κ} (ho : P o.transport) :
    P (o.offer h conn segment).2.transport := by
  obtain ht | ⟨chunk, ht⟩ := o.offer_transport h conn segment
  · exact ht.symm ▸ ho
  · exact ht.symm ▸ k.write o.transport conn chunk ho

omit [DecidableEq κ] in
theorem Outflow.offerLoop_keeps (h : Handle) (conn : κ) (segment fuel : Nat) {o : Outflow τ κ} (ho : P o.transport) :
    P (o.offerLoop h conn segment fuel).transport :=
  offerLoop_keep (I := fun o => P o.transport) (fun _ ho => offer_keeps k h conn segment ho) fuel ho

namespace Engine

variable {env : Surroundings τ} {e e' : Engine τ κ σ}

theorem Stride.keeps (hs : Stride env e e') (he : P e.transport) : P e'.transport := by
  cases hs with
  | beside _ hb => exact hb.transport ▸ he
  | queued => exact he
  | flushed h =>
      rw [flush]
      split
      · exact he
      · exact Outflow.offerLoop_keeps k h _ _ _ he
  | ended h =>
      rw [forceClose]
      split
      · exact he
      · rw [retire_transport]
        exact k.close _ _ he
  | listened port => exact k.listen _ port he
  | stoppedListening => exact k.stopListening _ he

theorem Strides.keeps (hs : Strides env e e') (he : P e.transport) : P e'.transport := by
  induction hs with
  | refl => exact he
  | tail _ hstride ih => exact hstride.keeps k ih

theorem sent_keeps (conn : κ) (count : Nat) (he : P e.transport) : P (e.sent conn count).transport := by
  obtain ⟨-, hsent⟩ | ⟨t, -, (hs : Strides {} _ _)⟩ := sent_cases e conn count
  · rwa [hsent]
  · exact hs.keeps k he

end Engine

end

end WebServer
