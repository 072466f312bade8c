import WebServer.Proofs.Engine.Effects

/-! # Operations as chains of effects

Every operation of an engine is a chain of effects that a licence allows. -/

namespace WebServer

variable {τ κ σ : Type}

namespace Engine

variable [DecidableEq κ] [Transport τ κ] {lic : License τ} {e : Engine τ κ σ} {h : Handle} {t : Session κ}

/-! ## Ends -/

/-- What becomes of an engine that gives up a session. -/
structure GivesUp (e : Engine τ κ σ) (h : Handle) (gained : List (Entry κ)) (e' : Engine τ κ σ) : Prop where
  session : e'.session? h = none
  others : ∀ g, g ≠ h → e'.session? g = e.session? g
  journal : e'.journal = gained ++ e.journal
  watcher : e'.watcher = e.watcher

omit [Transport τ κ] in
theorem retire_spec (w : e.registry.WellFormed) (hs : e.session? h = some t) :
    GivesUp e h (e.heard h .closed) (e.retire h) := by
  have hself := w.get?_remove_self (h := h)
  have hothers := fun g hg => w.get?_remove_of_ne (g := g) (h := h) hg
  rw [w.remove_eq hs] at hself hothers
  rw [retire, w.remove_eq hs]
  dsimp only
  exact ⟨(notify_session? _ _ _ _).trans hself, fun g hg => (notify_session? _ _ _ _).trans (hothers g hg),
    notify_journal _ _ _, notify_watcher _ _ _⟩

theorem forceClose_spec (w : e.registry.WellFormed) (hs : e.session? h = some t) :
    GivesUp e h (e.heard h .closed ++ [.closed h t.conn]) (e.forceClose h) := by
  have hr := retire_spec (e := { e with transport := (Transport.close e.transport t.conn).2 }.record (.closed h t.conn))
    w hs
  rw [forceClose, hs]
  refine ⟨hr.session, hr.others, hr.journal.trans ?_, hr.watcher⟩
  rw [heard_congr (e := e) rfl, List.append_assoc]
  rfl

/-- Tell the application that a session was idle for too long. -/
def noteIdle (e : Engine τ κ σ) (h : Handle) (idle : Bool) : Engine τ κ σ :=
  if idle then e.notify h .idle else e

omit [DecidableEq κ] [Transport τ κ] in
@[simp] theorem noteIdle_session? (e : Engine τ κ σ) (h g : Handle) (idle : Bool) :
    (e.noteIdle h idle).session? g = e.session? g := by
  cases idle with
  | true => exact notify_session? e h g .idle
  | false => rfl

omit [DecidableEq κ] [Transport τ κ] in
theorem noteIdle_journal (e : Engine τ κ σ) (h : Handle) (idle : Bool) :
    (e.noteIdle h idle).journal = (if idle then e.heard h .idle else []) ++ e.journal := by
  cases idle with
  | true => exact notify_journal e h .idle
  | false => rfl

omit [DecidableEq κ] [Transport τ κ] in
@[simp] theorem noteIdle_watcher (e : Engine τ κ σ) (h : Handle) (idle : Bool) :
    (e.noteIdle h idle).watcher = e.watcher := by
  cases idle with
  | true => exact notify_watcher e h .idle
  | false => rfl

omit [DecidableEq κ] [Transport τ κ] in
theorem noteIdle_now (e : Engine τ κ σ) (h : Handle) (idle : Bool) : (e.noteIdle h idle).now = e.now := by
  cases idle with
  | true => exact notify_now e h .idle
  | false => rfl

theorem noteIdle_moves {env : Surroundings τ} (e : Engine τ κ σ) (h : Handle) (idle : Bool) :
    Moves env e (e.noteIdle h idle) := by
  cases idle with
  | true => exact notify_moves e h .idle
  | false => exact .refl

/-- The connection of a session is closed. -/
theorem forceClose_affects (r : e.registry.Regular) (hs : e.session? h = some t) (hon : lic.on h) (idle : Bool)
    (hi : idle = true → t.isEnding = false ∧ lic.forces)
    (hl : lic.forces ∨ t.closing = true ∧ t.outbound.buffers = []) :
    Affects lic h e ((e.noteIdle h idle).forceClose h) := by
  have hs' : (e.noteIdle h idle).session? h = some t := by rw [noteIdle_session?, hs]
  have hm : Moves lic.toSurroundings e (e.noteIdle h idle) := noteIdle_moves e h idle
  have hspec := forceClose_spec (hm.wellFormed r.wellFormed) hs'
  rw [heard_congr (noteIdle_watcher e h idle)] at hspec
  have hnone : ∀ entry ∈ ([] : List (Entry κ)), entry.Offers h t.conn := by simp
  have heff : Effect lic e h none _ := .ended hs idle (fun hidle => (hi hidle).1) hnone
  refine ⟨hon, hm.trans (forceClose_moves _ h), hspec.watcher.trans (noteIdle_watcher e h idle),
    fun g hg => (hspec.others g hg).trans (noteIdle_session? e h g idle),
    ⟨_, ?_, hspec.session.symm ▸ heff⟩, fun u hu _ => ?_⟩
  · rw [hspec.journal, noteIdle_journal]
    simp
  · cases Option.some.inj (hs.symm.trans hu)
    rcases hl with hf | ⟨hc, hempty⟩
    · exact .inr (.inl hf)
    · exact .inr (.inr ⟨e.noteIdle h idle, t, hm, hs', rfl, hc, hempty, rfl⟩)

theorem forceClose_acts (hon : lic.on h) (hf : lic.forces) : Acts lic e (e.forceClose h) := by
  cases hs : e.session? h with
  | none =>
      rw [forceClose, hs]
      exact .refl lic e
  | some t => exact .of_affects fun r => forceClose_affects r hs hon false (absurd · Bool.false_ne_true) (.inl hf)

omit [Transport τ κ] in
theorem isEmpty_iff {q : OutboundQueue} : q.isEmpty = true ↔ q.buffers = [] :=
  List.isEmpty_iff

theorem finishClose_of_settled (hs : e.session? h = some t) (s : t.Settled) : e.finishClose h = e := by
  rw [finishClose, hs]
  refine if_neg fun hd => ?_
  rw [Bool.and_eq_true, isEmpty_iff] at hd
  exact s hd.1 hd.2

theorem session?_of_finishClose (w : e.registry.WellFormed) (hs : (e.finishClose h).session? h = some t) :
    e.session? h = some t := by
  rw [finishClose] at hs
  split at hs
  · exact hs
  · rename_i u hu
    split at hs
    · exact absurd ((forceClose_spec w hu).session.symm.trans hs) (Option.some_ne_none t).symm
    · exact hs

theorem finishClose_acts (hon : lic.on h) : Acts lic e (e.finishClose h) := by
  rw [finishClose]
  split
  · exact .refl lic e
  · rename_i t hs
    split
    · rename_i hd
      rw [Bool.and_eq_true, isEmpty_iff] at hd
      exact .of_affects fun r => forceClose_affects r hs hon false (absurd · Bool.false_ne_true) (.inr hd)
    · exact .refl lic e

theorem retire_acts (hon : lic.on h) (hd : lic.drops) : Acts lic e (e.retire h) := by
  cases hs : e.session? h with
  | none =>
      rw [retire, Registry.remove_eq_none hs]
      exact .refl lic e
  | some t =>
      refine .of_affects (h := h) fun r => ?_
      have hspec := retire_spec r.wellFormed hs
      exact ⟨hon, retire_moves e h, hspec.watcher, hspec.others,
        ⟨_, hspec.journal, hspec.session.symm ▸ .dropped hs hd⟩, fun _ _ _ => .inl hd⟩

/-! ## Output -/

theorem update_affects {f : Session κ → Session κ} (hs : e.session? h = some t) (hf : ∀ t, (f t).handle = t.handle)
    (hon : lic.on h) (hm : Moves lic.toSurroundings e (e.update h f)) (he : Effect lic e h (some (f t)) []) :
    Affects lic h e (e.update h f) := by
  have hu : (e.update h f).session? h = some (f t) := by rw [update_session? hf, hs, Option.map_some]
  exact ⟨hon, hm, rfl, fun g hg => update_session?_of_ne hf hg, ⟨[], rfl, hu.symm ▸ he⟩,
    fun _ _ hnone => by simp [hu] at hnone⟩

omit [DecidableEq κ] in
/-- A flush moves the cursors of a queue and offers chunks. -/
theorem flush_spec (hs : e.session? h = some t) : ∃ queue offers,
    queue.buffers.length = t.outbound.buffers.length ∧ (∀ entry ∈ offers, Entry.Offers h t.conn entry) ∧
      (e.flush h).session? h = some { t with outbound := queue } ∧
      (∀ g, g ≠ h → (e.flush h).session? g = e.session? g) ∧ (e.flush h).journal = offers ++ e.journal := by
  obtain ⟨queue, hlen, hr⟩ := flush_registry hs
  obtain ⟨offers, hj, hoffers⟩ := flush_grown hs
  have hsession (g : Handle) :
      (e.flush h).session? g = (e.update h fun u => { u with outbound := queue }).session? g :=
    congrArg (Registry.get? · g) hr
  refine ⟨queue, offers, hlen, hoffers, ?_, fun g hg => ?_, hj⟩
  · rw [hsession, update_session? (f := fun u => { u with outbound := queue }) fun _ => rfl, hs, Option.map_some]
  · rw [hsession, update_session?_of_ne (f := fun u => { u with outbound := queue }) (fun _ => rfl) hg]

theorem flush_acts (hon : lic.on h) : Acts lic e (e.flush h) := by
  cases hs : e.session? h with
  | none =>
      rw [flush_of_none hs]
      exact .refl lic e
  | some t =>
      obtain ⟨queue, offers, hlen, hoffers, hsession, hothers, hj⟩ := flush_spec hs
      exact .of_affects fun _ => ⟨hon, flush_moves e h, flush_watcher e h, hothers,
        ⟨offers, hj, hsession.symm ▸ .flushed hs hlen hoffers⟩, fun _ _ hnone => by simp [hsession] at hnone⟩

/-- A session that was changed is flushed, and ends if it has begun to close and nothing is left. -/
theorem settle_affects (r : e.registry.Regular) {f : Session κ → Session κ} (hs : e.session? h = some t)
    (hf : ∀ t, (f t).handle = t.handle) (hc : (f t).conn = t.conn) (hon : lic.on h)
    (hm : Moves lic.toSurroundings e (e.update h f))
    (he : ∀ queue offers, queue.buffers.length = (f t).outbound.buffers.length →
      ((f t).closing = true → queue.buffers ≠ []) → (∀ entry ∈ offers, Entry.Offers h t.conn entry) →
      Effect lic e h (some { f t with outbound := queue }) offers) :
    Affects lic h e (((e.update h f).flush h).finishClose h) := by
  have hu : (e.update h f).session? h = some (f t) := by rw [update_session? hf, hs, Option.map_some]
  have hm' : Moves lic.toSurroundings e ((e.update h f).flush h) := hm.trans (flush_moves _ h)
  have hw : ((e.update h f).flush h).watcher = e.watcher := flush_watcher _ h
  obtain ⟨queue, offers, hlen, hoffers, hsession, hothers, hj⟩ := flush_spec hu
  have hothers' (g : Handle) (hg : g ≠ h) : ((e.update h f).flush h).session? g = e.session? g :=
    (hothers g hg).trans (update_session?_of_ne hf hg)
  rw [hc] at hoffers
  generalize (e.update h f).flush h = m at *
  by_cases hd : (f t).closing = true ∧ queue.buffers = []
  · -- Nothing is left: the connection is closed.
    have hend : m.finishClose h = m.forceClose h := by
      rw [finishClose, hsession]
      simp [hd, isEmpty_iff]
    have hspec := forceClose_spec (hm'.wellFormed r.wellFormed) hsession
    rw [← hend, heard_congr hw] at hspec
    have heff : Effect lic e h none _ := .ended hs false (absurd · Bool.false_ne_true) hoffers
    refine ⟨hon, hm'.trans (finishClose_moves m h), hspec.watcher.trans hw,
      fun g hg => (hspec.others g hg).trans (hothers' g hg), ⟨_, ?_, hspec.session.symm ▸ heff⟩, fun u hu' _ => ?_⟩
    · rw [hspec.journal, hj, ← hc]
      simp [update]
    · cases Option.some.inj (hs.symm.trans hu')
      exact .inr (.inr ⟨m, _, hm', hsession, hc, hd.1, hd.2, hend⟩)
  · have hsettled : (f t).closing = true → queue.buffers ≠ [] := fun hclosing hempty => hd ⟨hclosing, hempty⟩
    rw [finishClose_of_settled hsession hsettled]
    have heff := he queue offers hlen hsettled hoffers
    exact ⟨hon, hm', hw, hothers', ⟨offers, hj, hsession.symm ▸ heff⟩, fun _ _ hnone => by simp [hsession] at hnone⟩

/-- A session that is still there after that is the changed one, with another queue. -/
theorem session?_of_settle (w : e.registry.WellFormed) {f : Session κ → Session κ} (hs : e.session? h = some t)
    (hf : ∀ t, (f t).handle = t.handle) (hc : ∀ t, (f t).conn = t.conn) {u : Session κ}
    (hu : (((e.update h f).flush h).finishClose h).session? h = some u) :
    ∃ queue, u = { f t with outbound := queue } := by
  have hself : (e.update h f).session? h = some (f t) := by rw [update_session? hf, hs, Option.map_some]
  have hm : Moves {} (e.update h f) ((e.update h f).flush h) := flush_moves _ h
  obtain ⟨queue, -, -, -, hsession, -, -⟩ := flush_spec hself
  have hpushed := session?_of_finishClose (hm.wellFormed (w.update hf hc)) hu
  exact ⟨queue, Option.some.inj (hpushed.symm.trans hsession)⟩

theorem enqueue_acts (hon : lic.on h) (ho : lic.answers ∨ e.registry.At h fun t => t.isEnding = false) {data : Bytes}
    (hc : lic.sends ∨ ¬WebSocket.IsClose data) : Acts lic e (e.enqueue h data).2 := by
  rw [enqueue]
  split
  · exact .refl lic e
  · rename_i t hs
    split
    · exact .refl lic e
    · rename_i queue hq
      refine .of_affects (h := h) fun _ => ?_
      have hu : ((e.record (.queued h data)).update h fun u => { u with outbound := queue }).session? h =
          some { t with outbound := queue } := by
        refine (update_session? ?_).trans (congrArg (Option.map _) hs)
        exact fun _ => rfl
      have heff : Effect lic e h (some { t with outbound := queue }) [.queued h data] :=
        .queued hs hq (ho.imp_right fun a => a t hs) hc
      refine ⟨hon, .single (.queued hs hq), rfl, fun g hg => update_session?_of_ne ?_ hg,
        ⟨_, rfl, hu.symm ▸ heff⟩, fun _ _ hnone => absurd (hu.symm.trans hnone) (Option.some_ne_none _)⟩
      exact fun _ => rfl

omit [DecidableEq κ] [Transport τ κ] in
theorem session?_of_enqueue_ok {e' : Engine τ κ σ} {data : Bytes} (hq : e.enqueue h data = (.ok (), e')) :
    ∃ t, e'.session? h = some t := by
  rw [enqueue] at hq
  split at hq
  · cases hq
  · rename_i t hs
    split at hq
    · cases hq
    · rename_i queue _
      refine ⟨{ t with outbound := queue }, ?_⟩
      rw [← (Prod.mk.inj hq).2]
      refine (update_session? ?_).trans (congrArg (Option.map _) hs)
      exact fun _ => rfl

theorem send_acts (hon : lic.on h) (hsend : lic.sends) (data : Bytes) : Acts lic e (e.send h data).2 := by
  rw [send]
  split
  · exact .refl lic e
  · rename_i t hs
    split
    · exact .refl lic e
    · rename_i hopen
      have hending : t.isEnding = false := Session.isEnding_of_acceptsOutput (by simpa using hopen)
      have hq : Acts lic e (e.enqueue h data).2 := enqueue_acts hon (.inr (.of_get? hs hending)) (.inl hsend)
      split
      · rename_i he
        rwa [he] at hq
      · rename_i he
        rw [he] at hq
        exact hq.trans (flush_acts hon)

theorem sendFrame_acts (hon : lic.on h) (hsend : lic.sends) (opcode : WebSocket.Opcode) (payload : Bytes) :
    Acts lic e (e.sendFrame h opcode payload).2 := by
  rw [sendFrame]
  split
  · exact .refl lic e
  · exact .refl lic e
  · exact send_acts hon hsend _

theorem sendToAll_acts (hon : ∀ h, lic.on h) (hsend : lic.sends) (text : String) (hs : List Handle)
    (e : Engine τ κ σ) : Acts lic e (sendToAll text hs e).2 := by
  induction hs generalizing e with
  | nil => exact .refl lic e
  | cons h hs ih =>
      have hfirst : Acts lic e (e.sendMessage h text).2 := sendFrame_acts (hon h) hsend .text (Text.utf8 text)
      exact hfirst.trans (ih _)

theorem serve_acts (hon : lic.on h) (hsend : lic.sends) (files : StaticFiles) (r : Http.Request) :
    Acts lic e (e.serve files h r).2 := by
  rw [serve]
  split
  · exact .refl lic e
  · rename_i file _
    dsimp only
    have hhead : Acts lic e (e.send h _).2 := send_acts hon hsend
      (Text.utf8 (Http.Response.headText "200 OK" file.contentType file.body.length))
    split
    · rename_i he
      rwa [he] at hhead
    · rename_i e₁ he
      rw [he] at hhead
      split
      · exact hhead
      · have hbody : Acts lic e₁ (e₁.send h file.body).2 := send_acts hon hsend file.body
        split
        · rename_i he₁
          rw [he₁] at hbody
          exact hhead.trans hbody
        · rename_i he₁
          rw [he₁] at hbody
          exact hhead.trans hbody

/-! ## Closing -/

theorem beginClose_acts (hon : lic.on h) : Acts lic e (e.beginClose h) := by
  rw [beginClose]
  split
  · exact .refl lic e
  · rename_i t hs
    dsimp only
    split
    · exact (flush_acts hon).trans (finishClose_acts hon)
    · rename_i ho
      exact .of_affects fun r => settle_affects r hs (fun _ => rfl) rfl hon
        (adjusted_moves _ _ fun _ =>
          ⟨rfl, rfl, rfl, rfl, fun _ => rfl, .inr ⟨rfl, rfl⟩, fun _ => .inl (Bool.or_true _)⟩)
        fun queue offers hlen hne hoffers => .beganClose hs (by simpa using ho) hlen (hne rfl) hoffers

/-- Queue a closing frame, so that the queue becomes `queue`. -/
def queueClose (e : Engine τ κ σ) (h : Handle) (frame : Bytes) (queue : OutboundQueue) : Engine τ κ σ :=
  (e.record (.queued h frame)).update h fun u =>
    { u with outbound := queue, closeSent := true, lastActivity := e.now }

omit [DecidableEq κ] in
theorem sendClose_of_open (hs : e.session? h = some t) (ho : t.closeSent = false) (code : WebSocket.CloseCode)
    (reason : String) : ∃ queue,
    t.outbound.enqueue (WebSocket.encode .close (WebSocket.closePayload code reason) none) = .ok queue ∧
      e.sendClose h code reason =
        (e.queueClose h (WebSocket.encode .close (WebSocket.closePayload code reason) none) queue).flush h := by
  refine ⟨_, rfl, ?_⟩
  rw [sendClose, hs]
  simp only [ho, enqueue_of_session hs (encode_ne_nil .close _ none)]
  exact congrArg (flush · h) (update_update _ fun _ => rfl)

theorem queueClose_moves {env : Surroundings τ} {frame : Bytes} {queue : OutboundQueue} (hs : e.session? h = some t)
    (hq : t.outbound.enqueue frame = .ok queue) : Moves env e (e.queueClose h frame queue) := by
  have hflag : Moves env _ _ :=
    adjusted_moves ((e.record (.queued h frame)).update h fun u => { u with outbound := queue }) h
      (f := fun u => { u with closeSent := true, lastActivity := e.now }) fun _ =>
        ⟨rfl, rfl, rfl, rfl, id, .inl rfl, fun _ => .inl (Bool.true_or _)⟩
  rw [update_update _ (f := fun u => { u with outbound := queue }) fun _ => rfl] at hflag
  exact .head (.queued hs hq) hflag

omit [DecidableEq κ] [Transport τ κ] in
theorem queueClose_session? (hs : e.session? h = some t) (frame : Bytes) (queue : OutboundQueue) :
    (e.queueClose h frame queue).session? h =
      some { t with outbound := queue, closeSent := true, lastActivity := e.now } := by
  refine (update_session? ?_).trans (congrArg (Option.map _) hs)
  exact fun _ => rfl

/-- An open WebSocket session queues its closing frame. -/
theorem sendClose_acts_of_open (hs : e.session? h = some t) (hon : lic.on h) (hm : t.mode = .webSocket)
    (ho : t.isEnding = false) (idle : Bool) (code : WebSocket.CloseCode) (reason : String) :
    Acts lic e ((e.noteIdle h idle).sendClose h code reason) := by
  have hs' : (e.noteIdle h idle).session? h = some t := by rw [noteIdle_session?, hs]
  obtain ⟨queue, hq, hsend⟩ := sendClose_of_open hs' (Session.flags_of_open ho).1 code reason
  have hu := queueClose_session? hs' (WebSocket.encode .close (WebSocket.closePayload code reason) none) queue
  have heff : Effect lic e h _ _ := .closeQueued hs hq hm ho idle
  rw [← noteIdle_now e h idle] at heff
  rw [hsend]
  refine .trans (.of_affects (h := h) fun _ => ?_) (flush_acts hon)
  refine ⟨hon, (noteIdle_moves e h idle).trans (queueClose_moves hs' hq), noteIdle_watcher e h idle, fun g hg => ?_,
    ⟨_, ?_, hu.symm ▸ heff⟩, fun _ _ hnone => absurd (hu.symm.trans hnone) (Option.some_ne_none _)⟩
  · refine (update_session?_of_ne ?_ hg).trans (noteIdle_session? e h g idle)
    exact fun _ => rfl
  · rw [List.cons_append, ← noteIdle_journal]
    rfl

theorem sendClose_acts (hon : lic.on h) (hm : e.registry.At h fun t => t.mode = .webSocket)
    (ho : e.registry.At h fun t => t.closing = false) (code : WebSocket.CloseCode) (reason : String) :
    Acts lic e (e.sendClose h code reason) := by
  cases hs : e.session? h with
  | none =>
      rw [sendClose, hs]
      exact .refl lic e
  | some t =>
      cases hc : t.closeSent with
      | true =>
          rw [sendClose, hs]
          simp only [hc, if_true]
          exact .refl lic e
      | false =>
          have hending : t.isEnding = false := by simp [Session.isEnding, hc, ho t hs]
          exact sendClose_acts_of_open hs hon (hm t hs) hending false code reason

theorem failWebSocket_acts (hon : lic.on h) (hm : e.registry.At h fun t => t.mode = .webSocket)
    (ho : e.registry.At h fun t => t.closing = false) (code : WebSocket.CloseCode) (reason : String) :
    Acts lic e (e.failWebSocket h code reason) :=
  (sendClose_acts hon hm ho code reason).trans (beginClose_acts hon)

theorem replyAndClose_acts (hon : lic.on h) (ho : lic.answers ∨ e.registry.At h fun t => t.isEnding = false)
    {response : Bytes} (hc : ¬WebSocket.IsClose response) : Acts lic e (e.replyAndClose h response) :=
  (enqueue_acts hon ho (.inr hc)).trans (beginClose_acts hon)

theorem close_acts (hon : lic.on h) : Acts lic e (e.close h).2 := by
  rw [close]
  split
  · exact .refl lic e
  · rename_i t hs
    split
    · rename_i hm
      dsimp only
      split
      · exact .refl lic e
      · rename_i ho
        have hclosing : t.closing = false := (Session.flags_of_open (by simpa using ho)).2
        exact sendClose_acts hon (.of_get? hs hm) (.of_get? hs hclosing) _ _
    · exact beginClose_acts hon

/-! ## Events and polls -/

theorem accept_acts (ha : lic.accepts) {conn : κ} (hon : ∀ h, (e.accept conn).1 = some h → lic.on h) :
    Acts lic e (e.accept conn).2 := by
  have hmoves : Moves lic.toSurroundings e (e.accept conn).2 := accept_moves ha e conn
  rw [accept] at hon hmoves ⊢
  split
  · rename_i h registry hc
    rw [hc] at hon hmoves
    have hr := Registry.registered_of_create hc
    refine .of_affects (h := h) fun r => ?_
    have hu : ((({ e with registry } : Engine τ κ σ).record (.accepted h conn)).notify h .opened).session? h =
        some (.accepted h conn e.now) := (notify_session? _ _ _ _).trans (hr.get?_self r.wellFormed)
    have heff : Effect lic e h (some (.accepted h conn e.now)) _ := .accepted hr.handle_free ha
    refine ⟨hon h rfl, hmoves, notify_watcher _ _ _,
      fun g hg => (notify_session? _ _ _ _).trans (hr.get?_of_ne r.wellFormed hg), ⟨_, ?_, hu.symm ▸ heff⟩,
      fun t hs _ => absurd (hs.symm.trans hr.handle_free) (Option.some_ne_none t)⟩
    rw [notify_journal, heard_congr (e := e) rfl, List.append_assoc]
    rfl
  · rename_i hc
    rw [Registry.eq_of_create_error hc]
    exact .refl lic e

theorem sent_acts (ha : lic.acknowledges) {conn : κ} (hon : ∀ h, e.registry.handleOf? conn = some h → lic.on h)
    (count : Nat) : Acts lic e (e.sent conn count) := by
  rw [sent]
  split
  · exact .refl lic e
  · rename_i t ht
    obtain ⟨h, hconn, hs⟩ := Option.bind_eq_some_iff.mp ht
    cases Registry.handle_of_get? hs
    have htouch : Moves lic.toSurroundings _ _ := adjusted_moves (e.update t.handle (.acknowledge count)) t.handle
      (Session.touchSent_adjusted e.now)
    rw [update_update e (f := .acknowledge count) fun _ => rfl] at htouch
    refine .of_affects fun r => settle_affects r hs (fun u => ?_) ?_ (hon _ hconn)
      (.head (.acknowledged t.handle count) htouch) fun queue offers _ hne hoffers => ?_
    · rw [Session.touchSent_eq]
    · rw [Session.touchSent_eq]
    · rw [Session.touchSent_eq] at hne ⊢
      have heff : Effect lic e t.handle (some { t.touchSent e.now with outbound := queue }) offers :=
        .acknowledged hs ha hne hoffers
      rwa [Session.touchSent_eq] at heff

theorem remoteClosed_acts (hf : lic.forces) {conn : κ} (hon : ∀ h, e.registry.handleOf? conn = some h → lic.on h) :
    Acts lic e (e.remoteClosed conn) := by
  rw [remoteClosed]
  split
  · exact .refl lic e
  · rename_i h hconn
    exact forceClose_acts (hon h hconn) hf

theorem failed_acts (hd : lic.drops) {conn : κ} (hon : ∀ h, e.registry.handleOf? conn = some h → lic.on h) :
    Acts lic e (e.failed conn) := by
  rw [failed]
  split
  · exact .refl lic e
  · rename_i h hconn
    exact retire_acts (hon h hconn) hd

omit [DecidableEq κ] in
theorem start_keeps (e : Engine τ κ σ) :
    e.start.2.registry = e.registry ∧ e.start.2.journal = e.journal ∧ e.start.2.watcher = e.watcher := by
  rw [start]
  split <;> exact ⟨rfl, rfl, rfl⟩

theorem start_acts (lic : License τ) (e : Engine τ κ σ) : Acts lic e e.start.2 := by
  obtain ⟨hr, hj, hw⟩ := start_keeps e
  exact .of_aside ⟨start_moves e, hr, hj, fun h => hw ▸ h⟩

theorem foldl_acts {step : Engine τ κ σ → Handle → Engine τ κ σ} {hs : List Handle}
    (hstep : ∀ e, ∀ h ∈ hs, Acts lic e (step e h)) (e : Engine τ κ σ) : Acts lic e (hs.foldl step e) := by
  induction hs generalizing e with
  | nil => exact .refl lic e
  | cons h hs ih =>
      simp only [List.forall_mem_cons] at hstep
      exact (hstep e).1.trans (ih (fun e => (hstep e).2) _)

theorem stop_acts (hon : ∀ h, lic.on h) (hf : lic.forces) : Acts lic e e.stop := by
  rw [stop]
  refine .trans ?_ (foldl_acts (fun e h _ => forceClose_acts (hon h) hf) _)
  split
  · exact .of_aside ⟨.head .stoppedListening (.single (.arranged rfl rfl rfl rfl rfl (.inr ⟨rfl, rfl⟩))), rfl, rfl, id⟩
  · exact .refl lic e

theorem pollSession_acts (hon : lic.on h) (hf : lic.forces) : Acts lic e (e.pollSession h) := by
  rw [pollSession]
  dsimp only
  refine .trans (flush_acts hon) ?_
  generalize e.flush h = e
  split
  · exact .refl lic e
  · rename_i t hs
    split
    · exact finishClose_acts hon
    · rename_i hd
      have hopen : t.isEnding = false := Session.isEnding_of_decide_sendClose hd
      exact (sendClose_acts_of_open hs hon (mode_of_decide_sendClose hd) hopen true .goingAway "idle").trans
        (finishClose_acts hon)
    · cases hending : t.isEnding with
      | true => exact forceClose_acts hon hf
      | false =>
          exact .of_affects fun r => forceClose_affects r hs hon true (fun _ => ⟨hending, hf⟩) (.inl hf)

theorem pollConn_acts (hf : lic.forces) {conn : κ} (hon : ∀ h, e.registry.handleOf? conn = some h → lic.on h) :
    Acts lic e (e.pollConn conn) := by
  rw [pollConn]
  split
  · exact .refl lic e
  · rename_i h hconn
    exact pollSession_acts (hon h hconn) hf

theorem poll_acts (hon : ∀ h, lic.on h) (hf : lic.forces) : Acts lic e e.poll :=
  foldl_acts (fun _ h _ => pollSession_acts (hon h) hf) _

/-! ## Inbound messages -/

omit [DecidableEq κ] [Transport τ κ] in
theorem update_of_none (hs : e.session? h = none) (f : Session κ → Session κ) : e.update h f = e := by
  have hmap : (e.registry.sessions.map fun t => if t.handle = h then f t else t) = e.registry.sessions := by
    conv_rhs => rw [← List.map_id e.registry.sessions]
    exact List.map_congr_left fun t ht => if_neg (Registry.get?_eq_none.mp hs t ht)
  rw [update, Registry.update, hmap]

/-- A change of one session is an effect. -/
theorem update_acts (hon : lic.on h) {f : Session κ → Session κ} (hf : ∀ t, (f t).handle = t.handle)
    (hm : Moves lic.toSurroundings e (e.update h f))
    (he : ∀ t, e.session? h = some t → Effect lic e h (some (f t)) []) : Acts lic e (e.update h f) := by
  cases hs : e.session? h with
  | none =>
      rw [update_of_none hs]
      exact .refl lic e
  | some t => exact .of_affects fun _ => update_affects hs hf hon hm (he t hs)

theorem gather_acts (hon : lic.on h) (hr : lic.receives) (data : Bytes) : Acts lic e (e.gather h data) :=
  update_acts hon (fun _ => Session.touch_handle _ _) (gather_moves hr e h data) fun _ hs => .received hs data hr

theorem clearInbound_acts (hon : lic.on h) (ht : lic.takes) : Acts lic e (e.clearInbound h) :=
  update_acts hon (fun _ => rfl) (clearInbound_moves ht e h) fun t hs => .consumed hs [] t.fragment ht

theorem dropInbound_acts (hon : lic.on h) (ht : lic.takes) (count : Nat) : Acts lic e (e.dropInbound h count) :=
  update_acts hon (fun _ => rfl) (dropInbound_moves ht e h count) fun t hs =>
    .consumed hs (t.inbound.drop count) t.fragment ht

theorem setFragment_acts (hon : lic.on h) (ht : lic.takes) (fragment : Option Fragment) :
    Acts lic e (e.update h fun t => { t with fragment }) :=
  update_acts hon (fun _ => rfl) (setFragment_moves e h fragment) fun t hs => .consumed hs t.inbound fragment ht

end Engine

end WebServer
