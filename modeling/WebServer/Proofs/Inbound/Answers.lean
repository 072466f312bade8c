import WebServer.Proofs.Engine.Sending
import WebServer.Proofs.Inbound.Waiting
import WebServer.Proofs.WebSocket.Handshake

/-! # Answers to requests

What the engine itself makes of a request: it switches protocols, or it answers once and closes. -/

namespace WebServer

variable {τ κ σ : Type}

/-- Activity of the peer counts on an open session. -/
theorem Session.touch_of_open {t : Session κ} (ho : t.isEnding = false) (now : Nat) :
    t.touch now = { t with lastActivity := now } := by
  rw [touch, if_neg (by simp [ho])]

/-- The session when a last response was queued on it. -/
def Session.dismissed (t : Session κ) (now : Nat) (response : Bytes) : Session κ :=
  { t with outbound := t.outbound.append response, closing := true, inbound := [], lastActivity := now }

/-- The session when it has switched to frames, the first of which are among `rest`. -/
def Session.switched (t : Session κ) (response rest : Bytes) : Session κ :=
  { t with outbound := t.outbound.append response, mode := .webSocket, inbound := rest }

namespace Http

/-- The response to a request whose head is refused. -/
def HeadError.response : HeadError → Bytes
  | .tooLarge .. => Response.payloadTooLarge
  | _ => Response.badRequest

/-- Bytes that cannot become a request any more, and what is answered to them. -/
inductive Refused (limit : Nat) (buffer : Bytes) : Bytes → Prop where
  | long (hr : Head.read limit buffer = .notYet) (hl : limit < buffer.length) :
      Refused limit buffer Response.payloadTooLarge
  | failed {error : HeadError} (hr : Head.read limit buffer = .failed error) : Refused limit buffer error.response

theorem Refused.ne_nil {limit : Nat} {buffer response : Bytes} (hr : Refused limit buffer response) : buffer ≠ [] := by
  rintro rfl
  cases hr with
  | long hr hl => exact absurd hl (Nat.not_lt_zero limit)
  | failed hr =>
      rw [Head.read_nil] at hr
      cases hr

theorem Refused.response_ne_nil {limit : Nat} {buffer response : Bytes} (hr : Refused limit buffer response) :
    response ≠ [] := by
  cases hr with
  | long => decide
  | @failed error =>
      cases error with
      | tooLarge => exact (by decide : Response.payloadTooLarge ≠ [])
      | _ => exact (by decide : Response.badRequest ≠ [])

end Http

namespace Engine

variable [DecidableEq κ] [Transport τ κ] {e e' : Engine τ κ σ} {h : Handle} {t : Session κ} {response : Bytes}

/-- The engine `e'` came from `e` by answering the session `t` for the last time. -/
abbrev Dismisses (e : Engine τ κ σ) (h : Handle) (t : Session κ) (response : Bytes) (e' : Engine τ κ σ) : Prop :=
  Flushes (e.record (.queued h response)) h (t.dismissed e.now response) e'

/-- The engine `e'` came from `e` by switching the session `t` to frames. -/
abbrev Switches (e : Engine τ κ σ) (h : Handle) (t : Session κ) (response rest : Bytes) (e' : Engine τ κ σ) : Prop :=
  Flushes ((e.record (.queued h response)).notify h .upgraded) h (t.switched response rest) e'

theorem beginClose_eq (hs : e.session? h = some t) (hc : t.closing = false) :
    e.beginClose h = ((e.update h fun u => { u with
      closing := true, inbound := []
      lastActivity := if u.closeSent then u.lastActivity else e.now }).flush h).finishClose h := by
  rw [beginClose, hs]
  dsimp only
  rw [if_neg (by simp [hc])]

/-- An open session with something left to send is flushed when it begins to close. -/
theorem beginClose_flushes (hs : e.session? h = some t) (ho : t.isEnding = false) (hne : t.outbound.buffers ≠ []) :
    Flushes e h { t with closing := true, inbound := [], lastActivity := e.now } (e.beginClose h) := by
  obtain ⟨hsent, hclosing⟩ := Session.flags_of_open ho
  have hflush := flush_update hs (f := fun u => { u with
    closing := true, inbound := [], lastActivity := if u.closeSent then u.lastActivity else e.now }) fun _ => rfl
  have hnow : (if t.closeSent then t.lastActivity else e.now) = e.now := if_neg (by simp [hsent])
  rw [hnow] at hflush
  obtain ⟨queue, hcontents, hsession⟩ := hflush.session
  have hleft : queue.buffers ≠ [] := by
    rw [← List.length_pos_iff, hcontents.length_eq]
    exact List.length_pos_iff.mpr hne
  have hstays := finishClose_of_settled hsession fun _ => hleft
  rwa [beginClose_eq hs hclosing, hstays]

theorem replyAndClose_dismisses (hs : e.session? h = some t) (ho : t.isEnding = false) (hr : response ≠ []) :
    Dismisses e h t response (e.replyAndClose h response) := by
  have hqueued := update_session?_of_some (e := e.record (.queued h response)) hs
    (f := fun u => { u with outbound := t.outbound.append response }) fun _ => rfl
  have hflush := beginClose_flushes hqueued ho (by simp [OutboundQueue.append])
  rw [replyAndClose, enqueue_of_session hs hr]
  exact hflush.of_update (f := fun u => { u with outbound := t.outbound.append response }) fun _ => rfl

/-- What has been received does not matter to a session that is dismissed. -/
theorem dismisses_of_clear (hs : e.session? h = some t) (ho : t.isEnding = false) (hr : response ≠ []) :
    Dismisses e h t response ((e.clearInbound h).replyAndClose h response) := by
  have hclear : (e.clearInbound h).session? h = some { t with inbound := [] } :=
    update_session?_of_some hs (f := fun u => { u with inbound := [] }) fun _ => rfl
  exact (replyAndClose_dismisses hclear ho hr).of_update (m := e.record (.queued h response))
    (f := fun u => { u with inbound := [] }) fun _ => rfl

/-! ## Upgrades -/

theorem upgrade_switches (hs : e.session? h = some t) {r : Http.Request} {key : String}
    (hk : WebSocket.Handshake r key) :
    Switches e h t (WebSocket.switchingProtocols (WebSocket.acceptKey key)) t.inbound (e.upgrade h r) := by
  have hr := WebSocket.upgradeResponse_of_handshake hk
  generalize WebSocket.switchingProtocols (WebSocket.acceptKey key) = response at hr
  have hnoted : ((e.record (.queued h response)).notify h .upgraded).session? h = some t :=
    (notify_session? _ _ _ _).trans hs
  have hqueued := update_session?_of_some hnoted (f := fun u => { u with outbound := t.outbound.append response })
    fun _ => rfl
  have hflush := flush_update hqueued (f := fun u => { u with mode := .webSocket }) fun _ => rfl
  rw [upgrade, hr]
  dsimp only
  rw [enqueue_of_session hs (upgradeResponse_ne_nil hr)]
  dsimp only
  rw [notify_update, notify_update]
  exact hflush.of_update (f := fun u => { u with outbound := t.outbound.append response }) fun _ => rfl

theorem upgrade_dismisses (hs : e.session? h = some t) (ho : t.isEnding = false) {r : Http.Request}
    (hn : ∀ key, ¬WebSocket.Handshake r key) : Dismisses e h t Http.Response.badRequest (e.upgrade h r) := by
  obtain ⟨error, hr⟩ := WebSocket.upgradeResponse_of_not_handshake hn
  rw [upgrade, hr]
  exact replyAndClose_dismisses hs ho (by decide)

/-! ## What the journal shows -/

omit [DecidableEq κ] in
theorem Dismisses.queuedOn (hd : Dismisses e h t response e') :
    WebServer.queuedOn h e'.journal = WebServer.queuedOn h e.journal ++ [response] := by
  obtain ⟨offers, hj, hoffers⟩ := hd.journal
  rw [hj, queuedOn_append_silent fun entry hm => (hoffers entry hm).silent]
  exact queuedOn_queued h response e.journal

omit [DecidableEq κ] in
theorem Dismisses.handedOver (hd : Dismisses e h t response e') :
    WebServer.handedOver e'.journal = WebServer.handedOver e.journal := by
  obtain ⟨offers, hj, hoffers⟩ := hd.journal
  rw [hj, handedOver_append_of_not fun entry hm => (hoffers entry hm).not_handsOver]
  exact handedOver_cons_of_not rfl e.journal

omit [DecidableEq κ] in
theorem Switches.journal {rest : Bytes} (hs : Switches e h t response rest e') : Grown (Entry.Offers h t.conn)
    (e.heard h .upgraded ++ .queued h response :: e.journal) e'.journal := by
  have hgrown := Flushes.journal hs
  rwa [notify_journal] at hgrown

omit [DecidableEq κ] in
theorem Switches.queuedOn {rest : Bytes} (hs : Switches e h t response rest e') :
    WebServer.queuedOn h e'.journal = WebServer.queuedOn h e.journal ++ [response] := by
  obtain ⟨offers, hj, hoffers⟩ := hs.journal
  rw [hj, queuedOn_append_silent fun entry hm => (hoffers entry hm).silent,
    queuedOn_append_silent silent_of_mem_heard]
  exact queuedOn_queued h response e.journal

omit [DecidableEq κ] in
theorem Switches.handedOver {rest : Bytes} (hs : Switches e h t response rest e') :
    WebServer.handedOver e'.journal = WebServer.handedOver e.journal := by
  obtain ⟨offers, hj, hoffers⟩ := hs.journal
  rw [hj, handedOver_append_of_not fun entry hm => (hoffers entry hm).not_handsOver,
    handedOver_append_of_not fun entry hm => handle_of_mem_heard hm ▸ rfl]
  exact handedOver_cons_of_not rfl e.journal

/-! ## Taking a request off -/

omit [DecidableEq κ] [Transport τ κ] in
theorem dropInbound_session? (hs : e.session? h = some t) (n : Nat) :
    (e.dropInbound h n).session? h = some { t with inbound := t.inbound.drop n } :=
  update_session?_of_some hs (f := fun u => { u with inbound := u.inbound.drop n }) fun _ => rfl

section

variable (hs : e.session? h = some t) (hm : t.mode = .http) (ho : t.isEnding = false)
include hs hm ho

theorem next_of_http (hne : t.inbound ≠ []) : e.next h = e.nextRequest h t := by
  rw [next, hs]
  dsimp only
  rw [hm, (Session.flags_of_open ho).2, Bool.false_or, if_neg (by simpa using hne)]

/-- A beginning of a request that is not too long is kept. -/
theorem next_of_notYet (hr : Http.Head.read e.config.maxRequestBytes t.inbound = .notYet)
    (hle : t.inbound.length ≤ e.config.maxRequestBytes) : e.next h = (.wait, e) := by
  by_cases hne : t.inbound = []
  · exact next_of_pending (by rw [pending_of_session hs, hne, List.length_nil])
  · rw [next_of_http hs hm ho hne, nextRequest, hr]
    exact if_neg (Nat.not_lt.mpr hle)

/-- Bytes that cannot become a request are dropped, and the session is answered for the last time. -/
theorem next_of_refused {response : Bytes} (hr : Http.Refused e.config.maxRequestBytes t.inbound response) :
    e.next h = (.wait, (e.clearInbound h).replyAndClose h response) := by
  have hne : t.inbound ≠ [] := hr.ne_nil
  cases hr with
  | long hr hlt =>
      rw [next_of_http hs hm ho hne, nextRequest, hr]
      exact if_pos hlt
  | @failed error hr =>
      rw [next_of_http hs hm ho hne, nextRequest, hr]
      cases error <;> rfl

variable {head : Http.Head} (hr : Http.Head.read e.config.maxRequestBytes t.inbound = .ready head)
include hr

theorem next_of_ready : e.next h =
    if Http.Request.isUpgrade ⟨t.inbound.take head.totalLength, head, none⟩ then
      (.again, (e.dropInbound h head.totalLength).upgrade h ⟨t.inbound.take head.totalLength, head, none⟩)
    else (.request ⟨t.inbound.take head.totalLength, head, none⟩, e.dropInbound h head.totalLength) := by
  have hne : t.inbound ≠ [] := by
    intro hnil
    rw [hnil, Http.Head.read_nil] at hr
    cases hr
  rw [next_of_http hs hm ho hne, nextRequest, hr]

/-- A request that keeps to the handshake is answered by switching protocols; the bytes behind it are kept. -/
theorem next_of_handshake {key : String}
    (hk : WebSocket.Handshake ⟨t.inbound.take head.totalLength, head, none⟩ key) :
    ∃ e', e.next h = (.again, e') ∧
      Switches e h t (WebSocket.switchingProtocols (WebSocket.acceptKey key)) (t.inbound.drop head.totalLength) e' := by
  have hswitch := upgrade_switches (dropInbound_session? hs head.totalLength) hk
  generalize hresponse : WebSocket.switchingProtocols (WebSocket.acceptKey key) = response at hswitch ⊢
  have hnoted := notify_update (e.record (.queued h response)) h h .upgraded
    fun u => { u with inbound := u.inbound.drop head.totalLength }
  refine ⟨_, (next_of_ready hs hm ho hr).trans (if_pos hk.upgrade), ?_⟩
  exact Flushes.of_update (f := fun u => { u with inbound := u.inbound.drop head.totalLength }) (fun _ => rfl)
    (hnoted ▸ hswitch)

/-- A request for an upgrade that does not is refused; the bytes behind it are dropped. -/
theorem next_of_not_handshake (hu : Http.Request.isUpgrade ⟨t.inbound.take head.totalLength, head, none⟩ = true)
    (hn : ∀ key, ¬WebSocket.Handshake ⟨t.inbound.take head.totalLength, head, none⟩ key) :
    ∃ e', e.next h = (.again, e') ∧ Dismisses e h t Http.Response.badRequest e' := by
  refine ⟨_, (next_of_ready hs hm ho hr).trans (if_pos hu), ?_⟩
  exact (upgrade_dismisses (dropInbound_session? hs head.totalLength) ho hn).of_update
    (m := e.record (.queued h Http.Response.badRequest))
    (f := fun u => { u with inbound := u.inbound.drop head.totalLength }) fun _ => rfl

end

end Engine
end WebServer
