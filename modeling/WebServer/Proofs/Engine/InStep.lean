import WebServer.Proofs.Engine.Effects
import WebServer.Proofs.Output.InStep
import WebServer.Proofs.Registry.Replacing

/-! # Engines in step

An operation on one session reads nothing but that session, its connection, the configuration and the clock, and changes
nothing but that session and its connection. Two engines that agree on all this therefore go in step: the session
becomes the same, and both journals gain the same entries. -/

namespace WebServer

open Transport (Separate)

variable {τ κ σ : Type}

/-- Two engines that show the same to the session `h`. -/
structure Engine.Alike (h : Handle) (e e' : Engine τ κ σ) : Prop where
  config : e.config = e'.config
  clock : e.clock = e'.clock
  heard : e.watcher.isSome = e'.watcher.isSome
  session : e.session? h = e'.session? h

/-- `e` has come from `b` by dealings with the session `h` of `conn` alone. -/
structure Engine.Keeps [DecidableEq κ] (h : Handle) (conn : κ) (b e : Engine τ κ σ) : Prop where
  config : e.config = b.config
  clock : e.clock = b.clock
  watcher : e.watcher = b.watcher
  handle : b.registry.handleOf? conn = some h
  registry : e.registry = b.registry.replace h conn (e.session? h)
  conn : ∀ t, e.session? h = some t → t.conn = conn

/-- From `b` and `b'` on, two engines dealt alike with the session `h` of `conn`, and with no other. -/
structure Engine.InStep [DecidableEq κ] [Transport τ κ] [Separate τ κ] (h : Handle) (conn : κ)
    (b b' e e' : Engine τ κ σ) : Prop where
  alike : e.Alike h e'
  wire : Wire.InStep h conn b.wire b'.wire e.wire e'.wire
  keeps : Keeps h conn b e
  keeps' : Keeps h conn b' e'

/-- Two engines in step that gave the same answer. -/
inductive Engine.Agree [DecidableEq κ] [Transport τ κ] [Separate τ κ] (h : Handle) (conn : κ)
    (b b' : Engine τ κ σ) {α : Type} : α × Engine τ κ σ → α × Engine τ κ σ → Prop where
  | intro (answer : α) {e e' : Engine τ κ σ} (s : InStep h conn b b' e e') :
      Agree h conn b b' (answer, e) (answer, e')

namespace Engine

theorem Agree.inStep [DecidableEq κ] [Transport τ κ] [Separate τ κ] {h : Handle} {conn : κ} {b b' : Engine τ κ σ}
    {α : Type} {x x' : α × Engine τ κ σ} (a : Agree h conn b b' x x') : InStep h conn b b' x.2 x'.2 := by
  cases a with
  | intro answer s => exact s

variable [DecidableEq κ]

section

variable {h : Handle} {conn : κ} {b e : Engine τ κ σ} {t : Session κ}

theorem Keeps.refl (w : e.registry.WellFormed) (hs : e.session? h = some t) (hc : t.conn = conn) :
    Keeps h conn e e where
  config := rfl
  clock := rfl
  watcher := rfl
  handle := w.handleOf?_eq_some.mpr ⟨t, Registry.mem_of_get? hs, hc, Registry.handle_of_get? hs⟩
  registry := by rw [hs, Registry.replace_self w hs]
  conn u hu := by rwa [← Option.some.inj (hs.symm.trans hu)]

theorem Keeps.update_eq (k : Keeps h conn b e) (f : Session κ → Session κ) :
    e.registry.update h f = b.registry.replace h conn ((e.session? h).map f) := by
  rw [k.registry]
  exact Registry.update_replace fun t ht => Registry.handle_of_get? ht

theorem Keeps.remove_eq (k : Keeps h conn b e) (hs : e.session? h = some t) :
    e.registry.remove h = (some t, b.registry.replace h conn none) := by
  have hr : e.registry = b.registry.replace h conn (some t) := hs ▸ k.registry
  have hs' : (b.registry.replace h conn (some t)).get? h = some t := hr ▸ hs
  rw [hr]
  exact Registry.remove_replace k.handle hs' (k.conn t hs)

theorem Keeps.handleOf?_self (k : Keeps h conn b e) : e.registry.handleOf? conn = (e.session? h).map fun _ => h := by
  conv_lhs => rw [k.registry]
  exact Registry.handleOf?_replace_self k.handle

theorem Keeps.ofConn?_self (k : Keeps h conn b e) : e.registry.ofConn? conn = e.session? h := by
  rw [Registry.ofConn?, k.handleOf?_self]
  cases hs : e.session? h with
  | none => rfl
  | some t => exact hs

theorem Keeps.session?_of_ne (k : Keeps h conn b e) {g : Handle} (hg : g ≠ h) : e.session? g = b.session? g := by
  change e.registry.get? g = b.registry.get? g
  rw [k.registry]
  exact Registry.get?_replace_of_ne (fun t ht => Registry.handle_of_get? ht) hg

end

variable [Transport τ κ] [Separate τ κ] {h : Handle} {conn : κ} {b b' e e' : Engine τ κ σ}

namespace InStep

theorem session (s : InStep h conn b b' e e') : e'.session? h = e.session? h :=
  s.alike.session.symm

theorem now (s : InStep h conn b b' e e') : e'.now = e.now :=
  congrArg Clock.millis s.alike.clock.symm

theorem config (s : InStep h conn b b' e e') : e'.config = e.config :=
  s.alike.config.symm

theorem gained (s : InStep h conn b b' e e') : ∃ gained, e.journal = gained ++ b.journal ∧
    e'.journal = gained ++ b'.journal ∧ ∀ entry ∈ gained, entry.About h conn :=
  s.wire.gained

/-- The wires of both engines were used alike; no session sees the applications. -/
theorem withWire (s : InStep h conn b b' e e') {w w' : Wire τ κ} (hw : Wire.InStep h conn b.wire b'.wire w w')
    (app app' : σ) :
    InStep h conn b b' { e with transport := w.transport, journal := w.journal, app }
      { e' with transport := w'.transport, journal := w'.journal, app := app' } :=
  ⟨⟨s.alike.config, s.alike.clock, s.alike.heard, s.alike.session⟩, hw,
    ⟨s.keeps.config, s.keeps.clock, s.keeps.watcher, s.keeps.handle, s.keeps.registry, s.keeps.conn⟩,
    ⟨s.keeps'.config, s.keeps'.clock, s.keeps'.watcher, s.keeps'.handle, s.keeps'.registry, s.keeps'.conn⟩⟩

/-- The session of both engines became the same one, or ended. -/
theorem withSession (s : InStep h conn b b' e e') {r r' : Registry κ} {t? : Option (Session κ)}
    (hr : r = b.registry.replace h conn t?) (hr' : r' = b'.registry.replace h conn t?) (hg : r.get? h = t?)
    (hg' : r'.get? h = t?) (hc : ∀ t, t? = some t → t.conn = conn) :
    InStep h conn b b' { e with registry := r } { e' with registry := r' } := by
  refine ⟨⟨s.alike.config, s.alike.clock, s.alike.heard, hg.trans hg'.symm⟩, s.wire,
    ⟨s.keeps.config, s.keeps.clock, s.keeps.watcher, s.keeps.handle, ?_, fun t ht => hc t (hg.symm.trans ht)⟩,
    ⟨s.keeps'.config, s.keeps'.clock, s.keeps'.watcher, s.keeps'.handle, ?_, fun t ht => hc t (hg'.symm.trans ht)⟩⟩
  · exact hr.trans (congrArg _ hg.symm)
  · exact hr'.trans (congrArg _ hg'.symm)

theorem update (s : InStep h conn b b' e e') {f : Session κ → Session κ} (hh : ∀ t, (f t).handle = t.handle)
    (hc : ∀ t, (f t).conn = t.conn) : InStep h conn b b' (e.update h f) (e'.update h f) := by
  have hr' : e'.registry.update h f = b'.registry.replace h conn ((e.session? h).map f) :=
    s.session ▸ s.keeps'.update_eq f
  have hg' : (e'.update h f).session? h = (e.session? h).map f := s.session ▸ update_session? hh
  refine s.withSession (s.keeps.update_eq f) hr' (update_session? hh) hg' fun u hu => ?_
  obtain ⟨t, ht, rfl⟩ := Option.map_eq_some_iff.mp hu
  exact (hc t).trans (s.keeps.conn t ht)

theorem record (s : InStep h conn b b' e e') {entry : Entry κ} (he : entry.About h conn) :
    InStep h conn b b' (e.record entry) (e'.record entry) :=
  s.withWire (s.wire.cons he) e.app e'.app

theorem notify (s : InStep h conn b b' e e') (n : Notice) : InStep h conn b b' (e.notify h n) (e'.notify h n) := by
  have hnotice : (Entry.notice h n).About h conn := ⟨rfl, by simp [Entry.request?]⟩
  have hheard := s.alike.heard
  cases hw : e.watcher with
  | none =>
      have hw' : e'.watcher = none := by simpa [hw] using hheard.symm
      rw [Engine.notify, Engine.notify, hw, hw']
      exact s
  | some watch =>
      obtain ⟨watch', hw'⟩ := Option.isSome_iff_exists.mp (hheard.symm.trans (hw ▸ rfl))
      rw [Engine.notify, Engine.notify, hw, hw']
      exact s.withWire (s.wire.cons hnotice) _ _

end InStep

/-! ## Output -/

theorem flush_inStep (s : InStep h conn b b' e e') : InStep h conn b b' (e.flush h) (e'.flush h) := by
  have hsegment : e'.config.maxSegmentSize = e.config.maxSegmentSize := congrArg _ s.config
  rw [flush, flush, s.session, hsegment]
  cases hs : e.session? h with
  | none => exact s
  | some t =>
      dsimp only
      have hstart : Outflow.InStep h conn b.wire b'.wire
          { transport := e.transport, queue := t.outbound, journal := e.journal }
          { transport := e'.transport, queue := t.outbound, journal := e'.journal } := ⟨rfl, s.wire⟩
      have hdrain := Outflow.drain_inStep hstart e.config.maxSegmentSize
      rw [s.keeps.conn t hs, ← hdrain.queue]
      exact (s.withWire hdrain.wire e.app e'.app).update (fun _ => rfl) fun _ => rfl

theorem enqueue_agree (s : InStep h conn b b' e e') (data : Bytes) :
    Agree h conn b b' (e.enqueue h data) (e'.enqueue h data) := by
  rw [enqueue, enqueue, s.session]
  cases e.session? h with
  | none => exact .intro _ s
  | some t =>
      dsimp only
      cases t.outbound.enqueue data with
      | error error => exact .intro _ s
      | ok queue =>
          have hqueued : (Entry.queued h data).About h conn := ⟨rfl, by simp [Entry.request?]⟩
          exact .intro _ ((s.record hqueued).update (fun _ => rfl) fun _ => rfl)

theorem enqueue_inStep (s : InStep h conn b b' e e') (data : Bytes) :
    InStep h conn b b' (e.enqueue h data).2 (e'.enqueue h data).2 :=
  (enqueue_agree s data).inStep

theorem send_agree (s : InStep h conn b b' e e') (data : Bytes) :
    Agree h conn b b' (e.send h data) (e'.send h data) := by
  rw [send, send, s.session]
  cases e.session? h with
  | none => exact .intro _ s
  | some t =>
      dsimp only
      split
      · exact .intro _ s
      · have hq := enqueue_agree s data
        generalize e.enqueue h data = result at hq ⊢
        generalize e'.enqueue h data = result' at hq ⊢
        obtain ⟨answer, sq⟩ := hq
        cases answer with
        | error error => exact .intro _ sq
        | ok => exact .intro _ (flush_inStep sq)

theorem sendFrame_agree (s : InStep h conn b b' e e') (opcode : WebSocket.Opcode) (payload : Bytes) :
    Agree h conn b b' (e.sendFrame h opcode payload) (e'.sendFrame h opcode payload) := by
  rw [sendFrame, sendFrame, s.session]
  split
  · exact .intro _ s
  · exact .intro _ s
  · exact send_agree s _

theorem serve_agree (s : InStep h conn b b' e e') (files : StaticFiles) (r : Http.Request) :
    Agree h conn b b' (e.serve files h r) (e'.serve files h r) := by
  rw [serve, serve]
  cases files.get? r.path with
  | none => exact .intro _ s
  | some file =>
      dsimp only
      have hhead := send_agree s (Text.utf8 (Http.Response.headText "200 OK" file.contentType file.body.length))
      generalize e.send h _ = result at hhead ⊢
      generalize e'.send h _ = result' at hhead ⊢
      obtain @⟨answer, e₁, e₁', shead⟩ := hhead
      cases answer with
      | error error => exact .intro _ shead
      | ok =>
          dsimp only
          split
          · exact .intro _ shead
          · have hbody := send_agree shead file.body
            generalize e₁.send h file.body = result at hbody ⊢
            generalize e₁'.send h file.body = result' at hbody ⊢
            obtain ⟨answer, sbody⟩ := hbody
            cases answer with
            | error error => exact .intro _ sbody
            | ok => exact .intro _ sbody

/-! ## Closing -/

theorem retire_inStep (s : InStep h conn b b' e e') : InStep h conn b b' (e.retire h) (e'.retire h) := by
  cases hs : e.session? h with
  | none =>
      rw [retire, retire, Registry.remove_eq_none hs, Registry.remove_eq_none (s.session.trans hs)]
      exact s
  | some t =>
      rw [retire, retire, s.keeps.remove_eq hs, s.keeps'.remove_eq (s.session.trans hs)]
      exact (s.withSession rfl rfl Registry.get?_replace_none Registry.get?_replace_none (by simp)).notify .closed

theorem forceClose_inStep (s : InStep h conn b b' e e') : InStep h conn b b' (e.forceClose h) (e'.forceClose h) := by
  rw [forceClose, forceClose, s.session]
  cases hs : e.session? h with
  | none => exact s
  | some t =>
      have hclosed : (Entry.closed h conn).About h conn := ⟨rfl, by simp [Entry.request?, Transport.Request.conn]⟩
      dsimp only
      rw [s.keeps.conn t hs]
      exact retire_inStep ((s.withWire s.wire.close e.app e'.app).record hclosed)

theorem finishClose_inStep (s : InStep h conn b b' e e') :
    InStep h conn b b' (e.finishClose h) (e'.finishClose h) := by
  rw [finishClose, finishClose, s.session]
  cases e.session? h with
  | none => exact s
  | some t =>
      dsimp only
      split
      · exact forceClose_inStep s
      · exact s

theorem beginClose_inStep (s : InStep h conn b b' e e') : InStep h conn b b' (e.beginClose h) (e'.beginClose h) := by
  rw [beginClose, beginClose, s.session, s.now]
  cases e.session? h with
  | none => exact s
  | some t =>
      dsimp only
      split
      · exact finishClose_inStep (flush_inStep s)
      · exact finishClose_inStep (flush_inStep (s.update (fun _ => rfl) fun _ => rfl))

theorem sendClose_inStep (s : InStep h conn b b' e e') (code : WebSocket.CloseCode) (reason : String) :
    InStep h conn b b' (e.sendClose h code reason) (e'.sendClose h code reason) := by
  rw [sendClose, sendClose, s.session]
  cases e.session? h with
  | none => exact s
  | some t =>
      dsimp only
      split
      · exact s
      · have hq := enqueue_agree s (WebSocket.encode .close (WebSocket.closePayload code reason) none)
        generalize e.enqueue h _ = result at hq ⊢
        generalize e'.enqueue h _ = result' at hq ⊢
        obtain ⟨answer, sq⟩ := hq
        cases answer with
        | error error => exact sq
        | ok =>
            dsimp only
            rw [sq.now]
            exact flush_inStep (sq.update (fun _ => rfl) fun _ => rfl)

theorem failWebSocket_inStep (s : InStep h conn b b' e e') (code : WebSocket.CloseCode) (reason : String) :
    InStep h conn b b' (e.failWebSocket h code reason) (e'.failWebSocket h code reason) :=
  beginClose_inStep (sendClose_inStep s code reason)

theorem replyAndClose_inStep (s : InStep h conn b b' e e') (response : Bytes) :
    InStep h conn b b' (e.replyAndClose h response) (e'.replyAndClose h response) :=
  beginClose_inStep (enqueue_inStep s response)

theorem close_agree (s : InStep h conn b b' e e') : Agree h conn b b' (e.close h) (e'.close h) := by
  rw [close, close, s.session]
  cases e.session? h with
  | none => exact .intro _ s
  | some t =>
      dsimp only
      split
      · split
        · exact .intro _ s
        · exact .intro _ (sendClose_inStep s _ _)
      · exact .intro _ (beginClose_inStep s)

/-! ## Events and polls -/

theorem sent_inStep (s : InStep h conn b b' e e') (count : Nat) :
    InStep h conn b b' (e.sent conn count) (e'.sent conn count) := by
  rw [sent, sent, s.keeps.ofConn?_self, s.keeps'.ofConn?_self, s.session, s.now]
  cases hs : e.session? h with
  | none => exact s
  | some t =>
      have hh : t.handle = h := Registry.handle_of_get? hs
      dsimp only
      rw [hh]
      exact finishClose_inStep (flush_inStep (s.update (fun _ => (Session.touchSent_adjusted e.now _).handle) fun _ =>
        (Session.touchSent_adjusted e.now _).conn))

theorem remoteClosed_inStep (s : InStep h conn b b' e e') :
    InStep h conn b b' (e.remoteClosed conn) (e'.remoteClosed conn) := by
  rw [remoteClosed, remoteClosed, s.keeps.handleOf?_self, s.keeps'.handleOf?_self, s.session]
  cases e.session? h with
  | none => exact s
  | some t => exact forceClose_inStep s

theorem failed_inStep (s : InStep h conn b b' e e') : InStep h conn b b' (e.failed conn) (e'.failed conn) := by
  rw [failed, failed, s.keeps.handleOf?_self, s.keeps'.handleOf?_self, s.session]
  cases e.session? h with
  | none => exact s
  | some t => exact retire_inStep s

theorem pollSession_inStep (s : InStep h conn b b' e e') :
    InStep h conn b b' (e.pollSession h) (e'.pollSession h) := by
  have sflush := flush_inStep s
  rw [pollSession, pollSession]
  dsimp only
  generalize e.flush h = m at sflush ⊢
  generalize e'.flush h = m' at sflush ⊢
  rw [sflush.session, sflush.config, sflush.now]
  cases m.session? h with
  | none => exact sflush
  | some t =>
      dsimp only
      split
      · exact finishClose_inStep sflush
      · exact finishClose_inStep (sendClose_inStep (sflush.notify .idle) .goingAway "idle")
      · split
        · exact forceClose_inStep sflush
        · exact forceClose_inStep (sflush.notify .idle)

theorem pollConn_inStep (s : InStep h conn b b' e e') :
    InStep h conn b b' (e.pollConn conn) (e'.pollConn conn) := by
  rw [pollConn, pollConn, s.keeps.handleOf?_self, s.keeps'.handleOf?_self, s.session]
  cases e.session? h with
  | none => exact s
  | some t => exact pollSession_inStep s

/-! ## Inbound messages -/

theorem upgrade_inStep (s : InStep h conn b b' e e') (r : Http.Request) :
    InStep h conn b b' (e.upgrade h r) (e'.upgrade h r) := by
  rw [upgrade, upgrade]
  cases WebSocket.upgradeResponse r with
  | error error => exact replyAndClose_inStep s _
  | ok response =>
      have hq := enqueue_agree s response
      dsimp only
      generalize e.enqueue h response = result at hq ⊢
      generalize e'.enqueue h response = result' at hq ⊢
      obtain ⟨answer, sq⟩ := hq
      cases answer with
      | error error => exact sq
      | ok =>
          refine flush_inStep (.notify (.update sq ?_ ?_) .upgraded)
          · exact fun _ => rfl
          · exact fun _ => rfl

theorem gather_inStep (s : InStep h conn b b' e e') (data : Bytes) :
    InStep h conn b b' (e.gather h data) (e'.gather h data) := by
  rw [gather, gather, s.now]
  exact s.update (fun _ => Session.touch_handle ..) fun _ => Session.touch_conn ..

theorem clearInbound_inStep (s : InStep h conn b b' e e') :
    InStep h conn b b' (e.clearInbound h) (e'.clearInbound h) :=
  s.update (fun _ => rfl) fun _ => rfl

theorem dropInbound_inStep (s : InStep h conn b b' e e') (count : Nat) :
    InStep h conn b b' (e.dropInbound h count) (e'.dropInbound h count) :=
  s.update (fun _ => rfl) fun _ => rfl

theorem setFragment_inStep (s : InStep h conn b b' e e') (fragment : Option Fragment) :
    InStep h conn b b' (e.update h fun t => { t with fragment }) (e'.update h fun t => { t with fragment }) :=
  s.update (fun _ => rfl) fun _ => rfl

theorem nextRequest_agree (s : InStep h conn b b' e e') (t : Session κ) :
    Agree h conn b b' (e.nextRequest h t) (e'.nextRequest h t) := by
  rw [nextRequest, nextRequest, s.config]
  dsimp only
  split
  · split
    · exact .intro _ (replyAndClose_inStep (clearInbound_inStep s) _)
    · exact .intro _ s
  · exact .intro _ (replyAndClose_inStep (clearInbound_inStep s) _)
  · exact .intro _ (replyAndClose_inStep (clearInbound_inStep s) _)
  · split
    · exact .intro _ (upgrade_inStep (dropInbound_inStep s _) _)
    · exact .intro _ (dropInbound_inStep s _)

theorem deliver_agree (s : InStep h conn b b' e e') (kind : MessageKind) (data : Bytes) :
    Agree h conn b b' (e.deliver h kind data) (e'.deliver h kind data) := by
  cases kind with
  | binary => exact .intro _ s
  | text =>
      rw [deliver, deliver]
      split
      · exact .intro _ s
      · exact .intro _ (failWebSocket_inStep s _ _)

theorem beginMessage_agree (s : InStep h conn b b' e e') (t : Session κ) (kind : MessageKind) (fin : Bool)
    (payload : Bytes) : Agree h conn b b' (e.beginMessage h t kind fin payload) (e'.beginMessage h t kind fin payload) := by
  rw [beginMessage, beginMessage]
  split
  · exact .intro _ (failWebSocket_inStep s _ _)
  · split
    · exact deliver_agree s _ _
    · exact .intro _ (setFragment_inStep s _)

theorem continueMessage_agree (s : InStep h conn b b' e e') (t : Session κ) (fin : Bool) (payload : Bytes) :
    Agree h conn b b' (e.continueMessage h t fin payload) (e'.continueMessage h t fin payload) := by
  rw [continueMessage, continueMessage, s.config]
  cases t.fragment with
  | none => exact .intro _ (failWebSocket_inStep s _ _)
  | some fragment =>
      dsimp only
      split
      · exact .intro _ (failWebSocket_inStep (setFragment_inStep s _) _ _)
      · split
        · exact deliver_agree (setFragment_inStep s _) _ _
        · exact .intro _ (setFragment_inStep s _)

theorem dispatchFrame_agree (s : InStep h conn b b' e e') (t : Session κ) (header : WebSocket.FrameHeader)
    (payload : Bytes) : Agree h conn b b' (e.dispatchFrame h t header payload) (e'.dispatchFrame h t header payload) := by
  rw [dispatchFrame, dispatchFrame]
  split
  · exact .intro _ (failWebSocket_inStep s _ _)
  · cases header.opcode with
    | text => exact beginMessage_agree s t .text header.fin payload
    | binary => exact beginMessage_agree s t .binary header.fin payload
    | continuation => exact continueMessage_agree s t header.fin payload
    | ping =>
        dsimp only
        split
        · exact .intro _ (flush_inStep (enqueue_inStep s _))
        · exact .intro _ s
    | pong => exact .intro _ s
    | close => exact .intro _ (beginClose_inStep (sendClose_inStep s _ _))
    | reserved => exact .intro _ (failWebSocket_inStep s _ _)

theorem nextFrame_agree (s : InStep h conn b b' e e') (t : Session κ) :
    Agree h conn b b' (e.nextFrame h t) (e'.nextFrame h t) := by
  rw [nextFrame, nextFrame, s.config]
  split
  · exact .intro _ s
  · exact .intro _ s
  · exact .intro _ (failWebSocket_inStep (clearInbound_inStep s) _ _)
  · exact dispatchFrame_agree (dropInbound_inStep s _) _ _ _

/-- The next message is taken off alike. -/
theorem next_agree (s : InStep h conn b b' e e') : Agree h conn b b' (e.next h) (e'.next h) := by
  rw [next, next, s.session]
  cases e.session? h with
  | none => exact .intro _ s
  | some t =>
      dsimp only
      split
      · exact .intro _ s
      · split
        · exact nextRequest_agree s t
        · exact nextFrame_agree s t

end Engine
end WebServer
