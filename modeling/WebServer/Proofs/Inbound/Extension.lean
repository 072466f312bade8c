import WebServer.Proofs.Engine.Strides

/-! # Bytes that came later

`extend` gives a session more received bytes, behind those it has. No operation but those that take messages off
looks at the bytes received, so it makes no difference whether the bytes come before the operation or after it. A
closing session takes no more bytes. -/

namespace WebServer

variable {τ κ σ : Type}

/-- A session with more received bytes, if it has the given handle and takes them. -/
def Session.extend (h : Handle) (more : Bytes) (t : Session κ) : Session κ :=
  if t.handle = h ∧ t.closing = false then { t with inbound := t.inbound ++ more } else t

namespace Session

variable (h : Handle) (more : Bytes) (t : Session κ)

@[simp] theorem extend_handle : (t.extend h more).handle = t.handle := by
  rw [extend]
  split <;> rfl

@[simp] theorem extend_conn : (t.extend h more).conn = t.conn := by
  rw [extend]
  split <;> rfl

@[simp] theorem extend_mode : (t.extend h more).mode = t.mode := by
  rw [extend]
  split <;> rfl

@[simp] theorem extend_outbound : (t.extend h more).outbound = t.outbound := by
  rw [extend]
  split <;> rfl

@[simp] theorem extend_closing : (t.extend h more).closing = t.closing := by
  rw [extend]
  split <;> rfl

@[simp] theorem extend_closeSent : (t.extend h more).closeSent = t.closeSent := by
  rw [extend]
  split <;> rfl

@[simp] theorem extend_fragment : (t.extend h more).fragment = t.fragment := by
  rw [extend]
  split <;> rfl

@[simp] theorem extend_isEnding : (t.extend h more).isEnding = t.isEnding := by
  rw [extend]
  split <;> rfl

@[simp] theorem extend_acceptsOutput : (t.extend h more).acceptsOutput = t.acceptsOutput := by
  rw [extend]
  split <;> rfl

theorem extend_inbound {t : Session κ} (hh : t.handle = h) (ho : t.closing = false) :
    (t.extend h more).inbound = t.inbound ++ more := by
  rw [extend, if_pos ⟨hh, ho⟩]

theorem extend_of_closing {t : Session κ} (hc : t.handle = h → t.closing = true) : t.extend h more = t := by
  rw [extend, if_neg]
  rintro ⟨hh, hopen⟩
  simp [hc hh] at hopen

/-- Bytes that come with others count as one sign of activity. -/
theorem touch_extend {t : Session κ} (hh : t.handle = h) (ho : t.closing = false) (now : Nat) :
    (t.touch now).extend h more = Session.touch now { t with inbound := t.inbound ++ more } := by
  rw [extend, if_pos ⟨(touch_handle now t).trans hh, (touch_closing now t).trans ho⟩, touch_inbound, touch, touch]
  change _ = if t.isEnding = true then _ else _
  split <;> rfl

end Session

namespace Registry

def extend (h : Handle) (more : Bytes) (r : Registry κ) : Registry κ :=
  { r with sessions := r.sessions.map (Session.extend h more) }

variable (h : Handle) (more : Bytes) (r : Registry κ)

theorem get?_extend (k : Handle) : (r.extend h more).get? k = (r.get? k).map (Session.extend h more) := by
  rw [get?, get?, extend, List.find?_map]
  have hp : (fun s : Session κ => decide (s.handle = k)) ∘ Session.extend h more = fun s => decide (s.handle = k) := by
    funext t
    simp
  rw [hp]

variable {r} in
/-- A change that leaves the bytes received alone may come before or after them. -/
theorem update_extend {k : Handle} {f : Session κ → Session κ}
    (hf : ∀ t ∈ r.sessions, t.handle = k → f (t.extend h more) = (f t).extend h more) :
    (r.extend h more).update k f = (r.update k f).extend h more := by
  simp only [update, extend, List.map_map, Registry.mk.injEq, true_and, and_true]
  refine List.map_congr_left fun t ht => ?_
  simp only [Function.comp_apply, Session.extend_handle]
  split
  · exact hf t ht ‹_›
  · rfl

theorem withOutbound_extend (k : Handle) (queue : OutboundQueue) :
    (r.extend h more).update k (fun t => { t with outbound := queue }) =
      (r.update k fun t => { t with outbound := queue }).extend h more := by
  refine update_extend h more fun t _ _ => ?_
  simp only [Session.extend]
  split <;> rfl

theorem remove_extend [DecidableEq κ] (k : Handle) :
    (r.extend h more).remove k = Prod.map (Option.map (Session.extend h more)) (extend h more) (r.remove k) := by
  rw [remove, remove, get?_extend]
  cases hg : r.get? k with
  | none => rfl
  | some t =>
      dsimp only [Option.map_some]
      have hh : (r.extend h more).handleOf? t.conn = r.handleOf? t.conn := rfl
      rw [removeConn, removeConn, Session.extend_conn, hh]
      cases r.handleOf? t.conn with
      | none => rfl
      | some k' =>
          dsimp only
          rw [get?_extend]
          have hp : (fun s : Session κ => decide (s.handle ≠ k')) ∘ Session.extend h more =
              fun s => decide (s.handle ≠ k') := by
            funext t
            simp
          simp only [extend, Prod.map_apply, List.filter_map, hp]

end Registry

namespace Engine

def extend (h : Handle) (more : Bytes) (e : Engine τ κ σ) : Engine τ κ σ :=
  { e with registry := e.registry.extend h more }

variable (h : Handle) (more : Bytes) (e : Engine τ κ σ)

theorem session?_extend (k : Handle) : (e.extend h more).session? k = (e.session? k).map (Session.extend h more) :=
  e.registry.get?_extend h more k

variable {e} in
theorem update_extend {k : Handle} {f : Session κ → Session κ}
    (hf : ∀ t ∈ e.registry.sessions, t.handle = k → f (t.extend h more) = (f t).extend h more) :
    (e.extend h more).update k f = (e.update k f).extend h more := by
  simp only [update, extend, Registry.update_extend h more hf]

theorem notify_extend (k : Handle) (n : Notice) :
    (e.extend h more).notify k n = (e.notify k n).extend h more := by
  have hw : (e.extend h more).watcher = e.watcher := rfl
  rw [notify, notify, hw]
  cases e.watcher <;> rfl

/-! ## Output -/

theorem enqueue_extend (k : Handle) (data : Bytes) :
    (e.extend h more).enqueue k data = Prod.map id (extend h more) (e.enqueue k data) := by
  rw [enqueue, enqueue, session?_extend]
  cases e.session? k with
  | none => rfl
  | some t =>
      dsimp only [Option.map_some]
      rw [Session.extend_outbound]
      cases t.outbound.enqueue data with
      | error err => rfl
      | ok queue => simp only [extend, update, record, Registry.withOutbound_extend, Prod.map_apply, id]

section

variable [Transport τ κ]

theorem flush_extend (k : Handle) : (e.extend h more).flush k = (e.flush k).extend h more := by
  rw [flush, flush, session?_extend]
  cases e.session? k with
  | none => rfl
  | some t =>
      dsimp only [Option.map_some]
      rw [Session.extend_outbound, Session.extend_conn]
      simp only [extend, Registry.withOutbound_extend]

theorem send_extend (k : Handle) (data : Bytes) :
    (e.extend h more).send k data = Prod.map id (extend h more) (e.send k data) := by
  rw [send, send, session?_extend]
  cases e.session? k with
  | none => rfl
  | some t =>
      dsimp only [Option.map_some]
      rw [Session.extend_acceptsOutput, enqueue_extend]
      split
      · rfl
      · obtain ⟨outcome, e'⟩ := e.enqueue k data
        cases outcome with
        | error err => rfl
        | ok _ => exact Prod.ext rfl (flush_extend h more e' k)

theorem sendFrame_extend (k : Handle) (opcode : WebSocket.Opcode) (payload : Bytes) :
    (e.extend h more).sendFrame k opcode payload = Prod.map id (extend h more) (e.sendFrame k opcode payload) := by
  rw [sendFrame, sendFrame, session?_extend]
  cases e.session? k with
  | none => rfl
  | some t =>
      simp only [Option.map_some, Session.extend_mode]
      cases t.mode with
      | http => rfl
      | webSocket => exact send_extend h more e k _

theorem sendToAll_extend (text : String) (ks : List Handle) :
    sendToAll text ks (e.extend h more) = Prod.map id (extend h more) (sendToAll text ks e) := by
  induction ks generalizing e with
  | nil => rfl
  | cons k ks ih =>
      rw [sendToAll, sendToAll, sendMessage, sendMessage, sendFrame_extend]
      obtain ⟨outcome, e'⟩ := e.sendFrame k .text (Text.utf8 text)
      dsimp only [Prod.map_apply]
      rw [ih e']
      rfl

omit [Transport τ κ] in
theorem audience_extend : (e.extend h more).audience = e.audience := by
  simp only [audience, extend, Registry.extend, List.filter_map, List.map_map]
  have hp : (fun s : Session κ => decide (s.mode = .webSocket) && s.acceptsOutput) ∘ Session.extend h more =
      fun s => decide (s.mode = .webSocket) && s.acceptsOutput := by
    funext t
    simp
  have hh : Session.handle ∘ Session.extend h more = Session.handle (κ := κ) := by
    funext t
    simp
  rw [hp, hh]

theorem broadcast_extend (text : String) :
    (e.extend h more).broadcast text = Prod.map id (extend h more) (e.broadcast text) := by
  rw [broadcast, audience_extend, sendToAll_extend]
  rfl

theorem serve_extend [DecidableEq κ] (files : StaticFiles) (k : Handle) (r : Http.Request) :
    (e.extend h more).serve files k r = Prod.map id (extend h more) (e.serve files k r) := by
  rw [serve, serve]
  split
  · rfl
  · rename_i file _
    dsimp only
    rw [send_extend]
    generalize e.send k _ = sent
    obtain ⟨outcome, e'⟩ := sent
    cases outcome with
    | error err => rfl
    | ok _ =>
        dsimp only [Prod.map_apply, id]
        by_cases hb : file.body.isEmpty = true
        · simp only [hb, if_true]
          rfl
        · simp only [hb]
          rw [send_extend]
          generalize e'.send k file.body = sent
          obtain ⟨outcome, e''⟩ := sent
          cases outcome <;> rfl

/-! ## Closing -/

variable [DecidableEq κ]

omit [Transport τ κ] in
theorem retire_extend (k : Handle) : (e.extend h more).retire k = (e.retire k).extend h more := by
  have hr : (e.extend h more).registry = e.registry.extend h more := rfl
  rw [retire, retire, hr, Registry.remove_extend]
  obtain ⟨removed, registry⟩ := e.registry.remove k
  cases removed with
  | none => rfl
  | some t => exact notify_extend h more { e with registry } k .closed

theorem forceClose_extend (k : Handle) : (e.extend h more).forceClose k = (e.forceClose k).extend h more := by
  rw [forceClose, forceClose, session?_extend]
  cases e.session? k with
  | none => rfl
  | some t =>
      dsimp only [Option.map_some]
      rw [Session.extend_conn]
      exact retire_extend h more
        ({ e with transport := (Transport.close e.transport t.conn).2 }.record (.closed k t.conn)) k

theorem finishClose_extend (k : Handle) : (e.extend h more).finishClose k = (e.finishClose k).extend h more := by
  rw [finishClose, finishClose, session?_extend]
  cases e.session? k with
  | none => rfl
  | some t =>
      dsimp only [Option.map_some]
      rw [Session.extend_closing, Session.extend_outbound]
      split
      · exact forceClose_extend h more e k
      · rfl

theorem beginClose_extend (k : Handle) : (e.extend h more).beginClose k = (e.beginClose k).extend h more := by
  rw [beginClose, beginClose, session?_extend]
  cases e.session? k with
  | none => rfl
  | some t =>
      dsimp only [Option.map_some]
      rw [Session.extend_closing]
      split
      · rw [flush_extend, finishClose_extend]
      · -- Closing forgets the bytes received, those that came later among them.
        have hclose := update_extend h more (e := e) (k := k)
          (f := fun t => { t with
            closing := true, inbound := [], lastActivity := if t.closeSent then t.lastActivity else e.now })
          fun t _ _ => by
            simp only [Session.extend, reduceCtorEq, and_false, if_false]
            split <;> rfl
        have hnow : (e.extend h more).now = e.now := rfl
        rw [hnow, hclose, flush_extend, finishClose_extend]

omit [DecidableEq κ] in
theorem sendClose_extend (k : Handle) (code : WebSocket.CloseCode) (reason : String) :
    (e.extend h more).sendClose k code reason = (e.sendClose k code reason).extend h more := by
  rw [sendClose, sendClose, session?_extend]
  cases e.session? k with
  | none => rfl
  | some t =>
      dsimp only [Option.map_some]
      rw [Session.extend_closeSent, enqueue_extend]
      split
      · rfl
      · generalize e.enqueue k _ = queued
        obtain ⟨outcome, e'⟩ := queued
        cases outcome with
        | error err => rfl
        | ok _ =>
            have hsent := update_extend h more (e := e') (k := k)
              (f := fun t => { t with closeSent := true, lastActivity := e'.now }) fun t _ _ => by
                simp only [Session.extend]
                split <;> rfl
            have hnow : (e'.extend h more).now = e'.now := rfl
            dsimp only [Prod.map_apply, id]
            rw [hnow, hsent, flush_extend]

theorem failWebSocket_extend (k : Handle) (code : WebSocket.CloseCode) (reason : String) :
    (e.extend h more).failWebSocket k code reason = (e.failWebSocket k code reason).extend h more := by
  rw [failWebSocket, failWebSocket, sendClose_extend, beginClose_extend]

theorem replyAndClose_extend (k : Handle) (response : Bytes) :
    (e.extend h more).replyAndClose k response = (e.replyAndClose k response).extend h more := by
  rw [replyAndClose, replyAndClose, enqueue_extend, Prod.map_snd, beginClose_extend]

theorem close_extend (k : Handle) : (e.extend h more).close k = Prod.map id (extend h more) (e.close k) := by
  rw [close, close, session?_extend]
  cases e.session? k with
  | none => rfl
  | some t =>
      simp only [Option.map_some, Session.extend_mode, Session.extend_isEnding]
      cases t.mode with
      | http => exact Prod.ext rfl (beginClose_extend h more e k)
      | webSocket =>
          refine Prod.ext rfl ?_
          dsimp only [Prod.map_apply]
          split
          · rfl
          · exact sendClose_extend h more e k _ _

/-! ## Inbound messages -/

theorem upgrade_extend (k : Handle) (r : Http.Request) :
    (e.extend h more).upgrade k r = (e.upgrade k r).extend h more := by
  rw [upgrade, upgrade]
  split
  · exact replyAndClose_extend h more e k _
  · rename_i response _
    rw [enqueue_extend]
    obtain ⟨outcome, e'⟩ := e.enqueue k response
    cases outcome with
    | error err => rfl
    | ok _ =>
        have hmode := update_extend h more (e := e') (k := k) (f := fun t => { t with mode := .webSocket })
          fun t _ _ => by
            simp only [Session.extend]
            split <;> rfl
        dsimp only [Prod.map_apply, id]
        rw [hmode, notify_extend, flush_extend]

omit [Transport τ κ] [DecidableEq κ] in
theorem setFragment_extend (k : Handle) (fragment : Option Fragment) :
    (e.extend h more).update k (fun t => { t with fragment }) =
      (e.update k fun t => { t with fragment }).extend h more := by
  refine update_extend h more fun t _ _ => ?_
  simp only [Session.extend]
  split <;> rfl

theorem deliver_extend (k : Handle) (kind : MessageKind) (data : Bytes) :
    (e.extend h more).deliver k kind data = Prod.map id (extend h more) (e.deliver k kind data) := by
  cases kind with
  | binary => rfl
  | text =>
      rw [deliver, deliver]
      split
      · rfl
      · rw [failWebSocket_extend]
        rfl

theorem beginMessage_extend (k : Handle) (t : Session κ) (kind : MessageKind) (fin : Bool) (payload : Bytes) :
    (e.extend h more).beginMessage k (t.extend h more) kind fin payload =
      Prod.map id (extend h more) (e.beginMessage k t kind fin payload) := by
  rw [beginMessage, beginMessage, Session.extend_fragment]
  split
  · rw [failWebSocket_extend]
    rfl
  · split
    · exact deliver_extend h more e k kind payload
    · rw [setFragment_extend]
      rfl

theorem continueMessage_extend (k : Handle) (t : Session κ) (fin : Bool) (payload : Bytes) :
    (e.extend h more).continueMessage k (t.extend h more) fin payload =
      Prod.map id (extend h more) (e.continueMessage k t fin payload) := by
  rw [continueMessage, continueMessage, Session.extend_fragment]
  split
  · rw [failWebSocket_extend]
    rfl
  · rename_i fragment _
    have hconfig : (e.extend h more).config = e.config := rfl
    dsimp only
    rw [hconfig]
    by_cases hlimit : e.config.maxRequestBytes < (fragment.data ++ payload).length
    · rw [if_pos hlimit, if_pos hlimit, setFragment_extend, failWebSocket_extend]
      rfl
    · rw [if_neg hlimit, if_neg hlimit]
      cases fin with
      | true =>
          simp only [if_true]
          rw [setFragment_extend, deliver_extend]
      | false =>
          simp only [Bool.false_eq_true, if_false]
          rw [setFragment_extend]
          rfl

theorem dispatchFrame_extend (k : Handle) (t : Session κ) (header : WebSocket.FrameHeader) (payload : Bytes) :
    (e.extend h more).dispatchFrame k (t.extend h more) header payload =
      Prod.map id (extend h more) (e.dispatchFrame k t header payload) := by
  rw [dispatchFrame, dispatchFrame]
  split
  · rw [failWebSocket_extend]
    rfl
  · cases header.opcode with
    | text => exact beginMessage_extend h more e k t .text header.fin payload
    | binary => exact beginMessage_extend h more e k t .binary header.fin payload
    | continuation => exact continueMessage_extend h more e k t header.fin payload
    | ping =>
        dsimp only
        rw [Session.extend_acceptsOutput, enqueue_extend, Prod.map_snd, flush_extend]
        split <;> rfl
    | pong => rfl
    | close =>
        dsimp only
        rw [sendClose_extend, beginClose_extend]
        rfl
    | reserved _ =>
        dsimp only
        rw [failWebSocket_extend]
        rfl

end

end Engine
end WebServer
