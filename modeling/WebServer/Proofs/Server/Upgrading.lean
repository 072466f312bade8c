import WebServer.Proofs.Inbound.Answers
import WebServer.Proofs.Server.Bounds
import WebServer.Proofs.Server.Pipelining
import WebServer.Proofs.Server.Timeouts

/-! # Upgrades

A request for an upgrade is answered by switching protocols, and what comes behind it are frames, or it is refused and
what comes behind it is dropped. Nothing else makes a session speak the WebSocket protocol. -/

namespace WebServer

open WebSocket (Handshake acceptKey switchingProtocols)

variable {τ κ σ : Type}

/-! ## Sessions that keep their protocol -/

theorem Effect.webSocket {lic : License τ} {e : Engine τ κ σ} {h : Handle} {u : Session κ} {gained : List (Entry κ)}
    (he : Effect lic e h (some u) gained) (a : e.registry.At h fun t => t.mode = .webSocket) :
    lic.accepts ∨ u.mode = .webSocket := by
  generalize hu : some u = u? at he
  cases he with
  | accepted _ ha => exact .inl ha
  | received hs =>
      have hmode := a _ hs
      rw [Session.touch_eq] at hu
      exact .inr (Option.some.inj hu ▸ hmode)
  | acknowledged hs =>
      have hmode := a _ hs
      rw [Session.touchSent_eq] at hu
      exact .inr (Option.some.inj hu ▸ hmode)
  | consumed hs | queued hs | closeQueued hs | beganClose hs | flushed hs =>
      have hmode := a _ hs
      exact .inr (Option.some.inj hu ▸ hmode)
  | upgraded => exact .inr (Option.some.inj hu ▸ rfl)
  | ended | dropped => cases hu
  | handed => exact .inr (a u hu.symm)

variable [DecidableEq κ] [Transport τ κ]

namespace Engine

variable {e : Engine τ κ σ} {h : Handle} {t u : Session κ}

/-- Whatever is done, a session that speaks frames does so until another connection is accepted with its handle. -/
theorem webSocket_after (r : e.registry.Regular) (a : e.registry.At h fun t => t.mode = .webSocket)
    {ds : List (Deed τ κ σ)} (hds : Deed.All (fun e d => ¬d.Accepts h e) e ds) :
    (e.after ds).registry.At h fun t => t.mode = .webSocket := by
  refine after_keep (I := fun m => m.registry.At h fun t => t.mode = .webSocket) ?_ r a hds
  intro d e m m' hd _ hs am u hu
  rcases hs.on_session h with ⟨hsame, -⟩ | ha
  · exact am u (hsame.symm.trans hu)
  · obtain ⟨gained, -, heff⟩ := ha.effect
    rw [show m'.session? h = some u from hu] at heff
    exact (heff.webSocket am).resolve_left fun hacc => hd (Deed.accepts_of_license hacc ha.on)

omit [Transport τ κ] in
/-- A connection that was accepted speaks HTTP. -/
theorem mode_of_accept {conn : κ} (w : e.registry.WellFormed) (ha : (e.accept conn).1 = some h)
    (hu : (e.accept conn).2.session? h = some u) : u.mode = .http := by
  rw [accept] at ha hu
  split at ha
  · rename_i g registry hc
    cases Option.some.inj ha
    rw [hc] at hu
    have hself := (Registry.registered_of_create hc).get?_self w
    have hnoted := notify_session? (({ e with registry } : Engine τ κ σ).record (.accepted h conn)) h h .opened
    have haccepted := hnoted.trans hself
    exact Option.some.inj (haccepted.symm.trans hu) ▸ rfl
  · cases ha

/-- The request that comes first on a session keeps to the handshake, and is complete. -/
inductive UpgradeDue (e : Engine τ κ σ) (h : Handle) : Prop where
  | intro {t : Session κ} {head : Http.Head} {key : String} (hs : e.session? h = some t) (hm : t.mode = .http)
      (ho : t.isEnding = false) (hr : Http.Head.read e.config.maxRequestBytes t.inbound = .ready head)
      (hk : Handshake ⟨t.inbound.take head.totalLength, head, none⟩ key) : UpgradeDue e h

/-- Taking a message off makes a session speak frames only where an upgrade is due. -/
theorem upgradeDue_of_next (r : e.registry.Regular) (hs : e.session? h = some t) (hm : t.mode = .http)
    (hu : (e.next h).2.session? h = some u) (hw : u.mode = .webSocket) : UpgradeDue e h := by
  by_contra hnot
  suffices hmode : u.mode = t.mode by
    rw [hmode, hm] at hw
    cases hw
  cases hclosing : t.closing with
  | true =>
      rw [next_of_closing (.of_get? hs hclosing)] at hu
      rw [Option.some.inj (hs.symm.trans hu)]
  | false =>
      have ho : t.isEnding = false := isEnding_of_http r (.of_get? hs hm) (.of_get? hs hclosing) t hs
      have hdismissed {d : Delivery} {response : Bytes} {e' : Engine τ κ σ} (hn : e.next h = (d, e'))
          (hd : Dismisses e h t response e') : u.mode = t.mode := by
        obtain ⟨queue, -, hsession⟩ := hd.session
        rw [hn, hsession] at hu
        exact Option.some.inj hu ▸ rfl
      cases hr : Http.Head.read e.config.maxRequestBytes t.inbound with
      | notYet =>
          by_cases hle : t.inbound.length ≤ e.config.maxRequestBytes
          · rw [next_of_notYet hs hm ho hr hle] at hu
            rw [Option.some.inj (hs.symm.trans hu)]
          · have hrefused : Http.Refused _ t.inbound _ := .long hr (Nat.lt_of_not_le hle)
            exact hdismissed (next_of_refused hs hm ho hrefused) (dismisses_of_clear hs ho hrefused.response_ne_nil)
      | failed error =>
          have hrefused : Http.Refused _ t.inbound _ := .failed hr
          exact hdismissed (next_of_refused hs hm ho hrefused) (dismisses_of_clear hs ho hrefused.response_ne_nil)
      | ready head =>
          by_cases hup : Http.Request.isUpgrade ⟨t.inbound.take head.totalLength, head, none⟩ = true
          · obtain ⟨e', hn, hd⟩ := next_of_not_handshake hs hm ho hr hup fun key hk => hnot (.intro hs hm ho hr hk)
            exact hdismissed hn hd
          · rw [next_of_ready hs hm ho hr, if_neg hup, dropInbound_session? hs] at hu
            exact Option.some.inj hu ▸ rfl

end Engine

/-- A session that speaks frames after a deed did so before, or the deed is its upgrade. -/
theorem Deed.webSocket_of_act {e : Engine τ κ σ} {h : Handle} {u : Session κ} (r : e.registry.Regular)
    {d : Deed τ κ σ} (hu : (d.act e).session? h = some u) (hw : u.mode = .webSocket) :
    (¬d.Accepts h e ∧ ∃ t, e.session? h = some t ∧ t.mode = .webSocket) ∨ d = .took h ∧ e.UpgradeDue h := by
  have hkept (hacc : ¬(d.license e).accepts) (hup : ¬(d.license e).upgrades) :
      ∃ t, e.session? h = some t ∧ t.mode = .webSocket := by
    obtain ⟨t, ht, hc⟩ := ((d.acts e).moves r).continues hacc r.wellFormed (Registry.mem_of_get? hu)
    refine ⟨t, r.wellFormed.get?_eq_some.mpr ⟨ht, hc.handle.symm.trans (Registry.handle_of_get? hu)⟩, ?_⟩
    exact (hc.mode.resolve_right fun hmode => hup hmode.1).symm.trans hw
  cases d with
  | call c =>
      cases c with
      | accept conn =>
          by_cases ha : (e.accept conn).1 = some h
          · have hmode := Engine.mode_of_accept r.wellFormed ha hu
            rw [hw] at hmode
            cases hmode
          · have hframe := ((Deed.call (.accept conn)).acts e).frame r ha
            exact .inl ⟨ha, u, hframe.1.symm.trans hu, hw⟩
      | _ => exact .inl ⟨id, hkept id id⟩
  | took g =>
      by_cases hg : g = h
      · subst hg
        cases hs : e.session? g with
        | none =>
            rw [Deed.act, Engine.next, hs] at hu
            cases hs.symm.trans hu
        | some t =>
            cases hm : t.mode with
            | webSocket => exact .inl ⟨id, t, rfl, hm⟩
            | http => exact .inr ⟨rfl, Engine.upgradeDue_of_next r hs hm hu hw⟩
      · exact .inl ⟨id, u, (Engine.next_session?_of_ne r (Ne.symm hg)).symm.trans hu, hw⟩
  | received | handed | concluded => exact .inl ⟨id, hkept id id⟩

namespace Engine

variable {e : Engine τ κ σ} {h : Handle} {u : Session κ}

/-- A session that speaks frames was upgraded, and its handle was not given to another connection since. -/
theorem upgraded_before (r : e.registry.Regular) (hfresh : e.session? h = none) {past : List (Deed τ κ σ)}
    (hu : (e.after past).session? h = some u) (hw : u.mode = .webSocket) :
    ∃ before behind, past = before ++ .took h :: behind ∧ (e.after before).UpgradeDue h ∧
      Deed.All (fun m d => ¬d.Accepts h m) (e.after (before ++ [.took h])) behind := by
  induction past using List.reverseRecOn generalizing u with
  | nil => exact absurd (hfresh.symm.trans hu) (Option.some_ne_none u).symm
  | append_singleton past d ih =>
      rw [after_concat] at hu
      rcases Deed.webSocket_of_act (after_regular r past) hu hw with ⟨hd, t, ht, hmode⟩ | ⟨rfl, hdue⟩
      · obtain ⟨before, behind, hpast, hdue, hall⟩ := ih ht hmode
        have hwhole : e.after past = (e.after (before ++ [.took h])).after behind := by
          rw [← after_append, hpast, List.append_assoc, List.singleton_append]
        refine ⟨before, behind ++ [d], by simp [hpast], hdue, Deed.all_append.mpr ⟨hall, ?_, trivial⟩⟩
        rwa [← hwhole]
      · exact ⟨past, [], rfl, hdue, trivial⟩

/-! ## Frames -/

/-- Take the next frame off the bytes of a session, whatever protocol it speaks. -/
def takeFrame (e : Engine τ κ σ) (h : Handle) : Delivery × Engine τ κ σ :=
  match e.session? h with
  | none => (.wait, e)
  | some t => if t.closing || t.inbound.isEmpty then (.wait, e) else e.nextFrame h t

theorem next_eq_takeFrame (a : e.registry.At h fun t => t.mode = .webSocket) : e.next h = e.takeFrame h := by
  rw [next, takeFrame]
  cases hs : e.session? h with
  | none => rfl
  | some t =>
      have hmode : t.mode = .webSocket := a t hs
      simp only [hmode]

end Engine

namespace Server

/-- Deal with the frames that a session has received, at most `fuel` of them. -/
def frameLoop (run : Runner τ κ σ) (h : Handle) : (fuel : Nat) → Server τ κ σ → Server τ κ σ
  | 0, s => s
  | fuel + 1, s =>
    match s.engine.takeFrame h with
    | (.wait, engine) => { s with engine }
    | (d, engine) => frameLoop run h fuel (handOver run h d { s with engine })

section

variable {run : Runner τ κ σ} {list : Lister τ κ σ} {h : Handle}

/-- All that comes on a session that speaks frames is read as frames, as long as the session has its handle. -/
theorem dispatchLoop_eq_frameLoop (hrun : ∀ program s, (run program s).2.engine = s.engine.after (list program s))
    (fuel : Nat) {s : Server τ κ σ} (r : s.engine.registry.Regular)
    (a : s.engine.registry.At h fun t => t.mode = .webSocket)
    (hds : Deed.All (fun e d => ¬d.Accepts h e) s.engine (dispatchDeeds run list h fuel s)) :
    dispatchLoop run h fuel s = frameLoop run h fuel s := by
  induction fuel generalizing s with
  | zero => rfl
  | succ fuel ih =>
      cases hn : s.engine.next h with
      | mk d engine =>
          have hframe : s.engine.takeFrame h = (d, engine) := (Engine.next_eq_takeFrame a).symm.trans hn
          have htook : (Deed.took h).act s.engine = engine := congrArg Prod.snd hn
          by_cases hd : d = .wait
          · subst hd
            rw [dispatchLoop_of_wait hn, frameLoop, hframe]
          · rw [dispatchDeeds_of_next hd hn, ← List.cons_append, Deed.all_append] at hds
            obtain ⟨hfirst, hrest⟩ := hds
            -- What is done about this frame leaves the session to its protocol.
            have hover : s.engine.after (.took h :: handOverDeeds run list h d { s with engine }) =
                (handOver run h d { s with engine }).engine := by
              rw [Engine.after_cons, htook]
              exact (handOver_engine hrun h d { s with engine }).symm
            have hregular := Engine.after_regular r (.took h :: handOverDeeds run list h d { s with engine })
            have hmode := Engine.webSocket_after r a hfirst
            rw [hover] at hregular hmode hrest
            rw [dispatchLoop_of_next hd hn, ih hregular hmode hrest, frameLoop, hframe]
            cases d with
            | wait => exact absurd rfl hd
            | _ => rfl

end

/-! ## Requests for an upgrade -/

/-- The server `s'` came from `s` by switching protocols on the session `t`, which left the engine `e'`, and by dealing
with the frames in `rest`. -/
structure Upgrades (depth fuel : Nat) (h : Handle) (t : Session κ) (response rest : Bytes) (s : Server τ κ σ)
    (e' : Engine τ κ σ) (s' : Server τ κ σ) : Prop where
  switches : Engine.Switches s.engine h t response rest e'
  journal : Grown (Entry.Offers h t.conn) (s.engine.heard h .upgraded ++ .queued h response :: s.engine.journal)
    e'.journal
  queued : queuedOn h e'.journal = queuedOn h s.engine.journal ++ [response]
  unhandled : handedOver e'.journal = handedOver s.engine.journal
  continues : s' = dispatchLoop (runBy (receiveWithin depth)) h fuel { s with engine := e' }
  behind : e'.journal <:+ s'.engine.journal
  frames : Deed.All (fun e d => ¬d.Accepts h e) e' (dispatchDeeds (runBy (receiveWithin depth))
      (runDeedsBy (receiveWithin depth) (receiveDeedsWithin depth)) h fuel { s with engine := e' }) →
    s' = frameLoop (runBy (receiveWithin depth)) h fuel { s with engine := e' }

/-- The server `s'` came from `s` by refusing to switch protocols on the session `t`. -/
structure Refuses (h : Handle) (t : Session κ) (s : Server τ κ σ) (e' : Engine τ κ σ) (s' : Server τ κ σ) : Prop where
  dismisses : Engine.Dismisses s.engine h t Http.Response.badRequest e'
  journal : Grown (Entry.Offers h t.conn) (.queued h Http.Response.badRequest :: s.engine.journal) e'.journal
  queued : queuedOn h e'.journal = queuedOn h s.engine.journal ++ [Http.Response.badRequest]
  unhandled : handedOver e'.journal = handedOver s.engine.journal
  ends : s' = { s with engine := e' }

/-- What becomes of a request for an upgrade that stands in front of the bytes of the session `t`. -/
structure AnswersUpgrade (depth fuel : Nat) (h : Handle) (t : Session κ) (head : Http.Head) (s s' : Server τ κ σ) :
    Prop where
  accepted : ∀ key, Handshake ⟨t.inbound.take head.totalLength, head, none⟩ key → ∃ e', Upgrades depth fuel h t
    (switchingProtocols (acceptKey key)) (t.inbound.drop head.totalLength) s e' s'
  refused : (∀ key, ¬Handshake ⟨t.inbound.take head.totalLength, head, none⟩ key) → ∃ e', Refuses h t s e' s'

/-- The session is open for requests, and one for an upgrade stands in front of its bytes. -/
structure AsksUpgrade (limit : Nat) (t : Session κ) (head : Http.Head) : Prop where
  mode : t.mode = .http
  isOpen : t.closing = false
  ready : Http.Head.read limit t.inbound = .ready head
  isUpgrade : Http.Request.isUpgrade ⟨t.inbound.take head.totalLength, head, none⟩ = true

section

variable {s : Server τ κ σ} {h : Handle} {t : Session κ} {head : Http.Head}

section

variable (r : s.engine.registry.Regular) (hs : s.engine.session? h = some t)
  (ask : AsksUpgrade s.engine.config.maxRequestBytes t head)
include r hs ask

omit [DecidableEq κ] [Transport τ κ] in
theorem AsksUpgrade.isEnding : t.isEnding = false :=
  Engine.isEnding_of_http r (.of_get? hs ask.mode) (.of_get? hs ask.isOpen) t hs

theorem AsksUpgrade.upgrades {key : String} (hk : Handshake ⟨t.inbound.take head.totalLength, head, none⟩ key)
    (depth fuel : Nat) : ∃ e', Upgrades depth fuel h t (switchingProtocols (acceptKey key))
      (t.inbound.drop head.totalLength) s e' (dispatchLoop (runBy (receiveWithin depth)) h (fuel + 1) s) := by
  obtain ⟨e', hn, hswitches⟩ := Engine.next_of_handshake hs ask.mode (ask.isEnding r hs) ask.ready hk
  have hregular : e'.registry.Regular := by
    have hafter := Engine.after_regular r [.took h]
    rwa [Engine.after_cons, Engine.after_nil, Deed.act, hn] at hafter
  have hmode : e'.registry.At h fun t => t.mode = .webSocket := by
    obtain ⟨queue, -, hsession⟩ := hswitches.session
    exact .of_get? hsession rfl
  have hloop : dispatchLoop (runBy (receiveWithin depth)) h (fuel + 1) s =
      dispatchLoop (runBy (receiveWithin depth)) h fuel { s with engine := e' } :=
    dispatchLoop_of_next (by simp) hn fuel
  have hleads : Leads {} (.any τ κ σ) { s with engine := e' }
      (dispatchLoop (runBy (receiveWithin depth)) h fuel { s with engine := e' }) :=
    dispatchLoop_leads trivial trivial (fun program s _ _ => runBy_leads_any depth program s) h fuel
      s.handlers.within_any
  rw [hloop]
  exact ⟨e', hswitches, hswitches.journal, hswitches.queuedOn, hswitches.handedOver, rfl, hleads.moves.journal_suffix,
    dispatchLoop_eq_frameLoop (s := { s with engine := e' }) (runBy_engine (receiveWithin_engine depth)) fuel hregular
      hmode⟩

theorem AsksUpgrade.refuses (hk : ∀ key, ¬Handshake ⟨t.inbound.take head.totalLength, head, none⟩ key)
    (run : Runner τ κ σ) (fuel : Nat) : ∃ e', Refuses h t s e' (dispatchLoop run h (fuel + 1) s) := by
  obtain ⟨e', hn, hdismisses⟩ := Engine.next_of_not_handshake hs ask.mode (ask.isEnding r hs) ask.ready ask.isUpgrade hk
  have hclosing : e'.registry.At h fun t => t.closing = true := by
    obtain ⟨queue, -, hsession⟩ := hdismisses.session
    exact .of_get? hsession rfl
  refine ⟨e', hdismisses, hdismisses.journal, hdismisses.queuedOn, hdismisses.handedOver, ?_⟩
  rw [dispatchLoop_of_next (by simp) hn]
  cases fuel with
  | zero => rfl
  | succ fuel => exact dispatchLoop_of_wait (s := { s with engine := e' }) (Engine.next_of_closing hclosing) fuel

theorem AsksUpgrade.answers (depth fuel : Nat) :
    AnswersUpgrade depth fuel h t head s (dispatchLoop (runBy (receiveWithin depth)) h (fuel + 1) s) where
  accepted _ hk := ask.upgrades r hs hk depth fuel
  refused hk := ask.refuses r hs hk _ fuel

end

/-- An upgrade is done as a whole or not at all: in front of the bytes that a session has, in bytes that it receives,
and for the messages of the application. -/
structure UpgradesWhole (s : Server τ κ σ) (h : Handle) : Prop where
  taken : ∀ t head, s.engine.session? h = some t → AsksUpgrade s.engine.config.maxRequestBytes t head →
    ∀ depth fuel, AnswersUpgrade depth fuel h t head s (dispatchLoop (runBy (receiveWithin depth)) h (fuel + 1) s)
  received : ∀ conn t head data, s.engine.registry.ofConn? conn = some t → t.handle = h → ∀ u : Session κ,
    u = { t with inbound := t.inbound ++ data, lastActivity := s.engine.now } →
    AsksUpgrade s.engine.config.maxRequestBytes u head → ∃ fuel, u.inbound.length - head.totalLength < fuel ∧
      AnswersUpgrade (receiveDepth - 1) fuel h u head { s with engine := s.engine.gather h data } (s.receive conn data).2
  refused : ∀ t, s.engine.session? h = some t → t.mode = .http →
    (∀ text, s.engine.sendMessage h text = (.error (.notWebSocket h), s.engine)) ∧
      ∀ data, s.engine.sendBinary h data = (.error (.notWebSocket h), s.engine)

omit [DecidableEq κ] [Transport τ κ] in
/-- The session when it has gathered bytes. -/
theorem gather_session_of_open (hs : s.engine.session? h = some t) (ho : t.isEnding = false) (data : Bytes) :
    (s.engine.gather h data).session? h =
      some { t with inbound := t.inbound ++ data, lastActivity := s.engine.now } :=
  (gather_session hs data).trans
    (congrArg some (Session.touch_of_open (t := { t with inbound := t.inbound ++ data }) ho s.engine.now))

theorem upgradesWhole_of_regular (r : s.engine.registry.Regular) (h : Handle) : UpgradesWhole s h where
  taken t head hs ask := ask.answers r hs
  received conn t head data hof hh u hu ask := by
    subst hh
    have hs : s.engine.session? t.handle = some t := r.wellFormed.get?_of_ofConn? hof
    have hmode : t.mode = .http := by simpa [hu] using ask.mode
    have hclosing : t.closing = false := by simpa [hu] using ask.isOpen
    have ho : t.isEnding = false := Engine.isEnding_of_http r (.of_get? hs hmode) (.of_get? hs hclosing) t hs
    have hgathered : (s.engine.gather t.handle data).session? t.handle = some u := by
      rw [hu]
      exact gather_session_of_open hs ho data
    have hregular : (s.engine.gather t.handle data).registry.Regular :=
      Engine.after_regular r [.received t.handle data]
    obtain ⟨hpos, hle⟩ := Http.Head.totalLength_of_ready ask.ready
    rw [receive_eq, receiveBy_of_open r.wellFormed hof hclosing, dispatch, Engine.pending_of_session hgathered]
    exact ⟨u.inbound.length, by omega, AsksUpgrade.answers (s := { s with engine := s.engine.gather t.handle data })
      hregular hgathered ask _ _⟩
  refused t hs hm := by
    have hrefused (opcode : WebSocket.Opcode) (payload : Bytes) :
        s.engine.sendFrame h opcode payload = (.error (.notWebSocket h), s.engine) := by
      rw [Engine.sendFrame, hs, Option.map_some, hm]
    exact ⟨fun text => hrefused .text (Text.utf8 text), fun data => hrefused .binary data⟩

end

/-- At every moment of a run, a complete request for an upgrade is answered by switching protocols as soon as it is in
front, or it is refused and the session closes. A session that speaks frames has come to it in this way only. -/
theorem upgradesWhole_of_course {config : Config} {transport : τ} {app : σ} {s : Server τ κ σ} {ds : List (Deed τ κ σ)}
    (hc : Course (fun _ _ => True) (new config transport app) ds s) (h : Handle) :
    UpgradesWhole s h ∧ ∀ past, past <+: ds → ∀ e, e = (new config transport app).engine.after past →
      (∀ handlers, UpgradesWhole { engine := e, handlers } h) ∧
      ∀ t, e.session? h = some t → t.mode = .webSocket → ∃ before behind, past = before ++ .took h :: behind ∧
        ((new config transport app).engine.after before).UpgradeDue h ∧
        Deed.All (fun m d => ¬d.Accepts h m) ((new config transport app).engine.after (before ++ [.took h])) behind := by
  have hstart : (new config transport app : Server τ κ σ).engine.registry.Regular := Registry.regular_new _
  refine ⟨upgradesWhole_of_regular (hc.engine ▸ Engine.after_regular hstart ds) h, ?_⟩
  intro past _ e he
  subst he
  refine ⟨fun handlers => upgradesWhole_of_regular (Engine.after_regular hstart past) h, ?_⟩
  intro t ht hm
  exact Engine.upgraded_before hstart rfl ht hm

/-- A request for an upgrade with a ping behind it, and one that says nothing of its origin. -/
theorem upgradesWhole_of_ping_behind :
    let start : Server (Transport.InMemory Nat) Nat Unit :=
      [.call (.watch fun _ _ app => app), .call (.accept 7)].foldl apply (new {} {} ())
    let front := Text.utf8 ("GET / HTTP/1.1\r\nHost: a\r\nConnection: keep-alive, Upgrade\r\nUpgrade: WebSocket\r\n" ++
      "Sec-WebSocket-Version: 13\r\nSec-WebSocket-Key: a2V5\r\n")
    let ping : Bytes := [0x89, 0]
    let upgraded := (start.receive 7 (front ++ Text.utf8 "Origin: b\r\n\r\n" ++ ping)).2
    let refused := (start.receive 7 (front ++ Text.utf8 "\r\n" ++ ping)).2
    UpgradesWhole start .first ∧ queuedOn .first upgraded.engine.journal =
        [switchingProtocols (acceptKey "a2V5"), WebSocket.encode .pong [] none] ∧
      queuedOn .first refused.engine.journal = [Http.Response.badRequest] := by
  intro start front ping upgraded refused
  have hcourse : Course (fun _ _ => True) (new {} {} ()) (deedsOf _ _) start := course_deedsOf fun _ _ _ => trivial
  refine ⟨(upgradesWhole_of_course hcourse .first).1, ?_⟩
  decide +kernel

end Server

end WebServer
