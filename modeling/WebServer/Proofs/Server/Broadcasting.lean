import WebServer.Proofs.Engine.Reordering
import WebServer.Proofs.Server.Sending

/-! # Broadcasts

A broadcast first lists the open WebSockets and then sends to one after the other. A send shows to no session but its
own, so that all the others are still open when their turn comes: the frame reaches exactly those listed, in whatever
order they stand. -/

namespace WebServer

open Transport (Separate)

variable {τ κ σ : Type}

/-- Whether a session is a WebSocket whose close has not begun. -/
def Session.isOpenWebSocket (t : Session κ) : Bool :=
  t.mode = .webSocket && !t.isEnding

namespace Engine

/-- What the engine did for one session, newest entry first. -/
def entriesOf (e : Engine τ κ σ) (h : Handle) : List (Entry κ) :=
  e.journal.filter fun entry => entry.handle = h

/-! ## One session -/

/-- Nothing happened to the session `h` between `e` and `e'`. -/
structure Untouched (h : Handle) (e e' : Engine τ κ σ) : Prop where
  session : e'.session? h = e.session? h
  entries : e'.entriesOf h = e.entriesOf h

/-- Between `e` and `e'` the session `t` was given the buffer `data` behind everything that it had queued, and its
output was offered to its connection. -/
structure Appends (data : Bytes) (h : Handle) (t : Session κ) (e e' : Engine τ κ σ) : Prop where
  session : ∃ queue, (t.outbound.append data).SameContents queue ∧ e'.session? h = some { t with outbound := queue }
  entries : Grown (Entry.Offers h t.conn) (.queued h data :: e.entriesOf h) (e'.entriesOf h)

variable {e m e' : Engine τ κ σ} {g h : Handle} {hs : List Handle} {t : Session κ} {data : Bytes}

theorem Untouched.trans (s : Untouched h e m) (s' : Untouched h m e') : Untouched h e e' :=
  ⟨s'.session.trans s.session, s'.entries.trans s.entries⟩

theorem Untouched.appends (s : Untouched h e m) (w : Appends data h t m e') : Appends data h t e e' :=
  ⟨w.session, s.entries ▸ w.entries⟩

theorem Appends.untouched (w : Appends data h t e m) (s : Untouched h m e') : Appends data h t e e' :=
  ⟨s.session ▸ w.session, s.entries ▸ w.entries⟩

section

variable [Transport τ κ]

/-- The session `h` of `e` is given a buffer, which leads to `m`. -/
abbrev SendsTo (e : Engine τ κ σ) (h : Handle) (t : Session κ) (data : Bytes) (m : Engine τ κ σ) : Prop :=
  Flushes (e.record (.queued h data)) h { t with outbound := t.outbound.append data } m

theorem Flushes.appends (hf : SendsTo e h t data m) : Appends data h t e m := by
  refine ⟨hf.session, ?_⟩
  have hgrown := hf.journal.filter fun entry => entry.handle = h
  rwa [record, List.filter_cons_of_pos (by simp [Entry.handle])] at hgrown

theorem Flushes.untouched (hf : SendsTo e h t data m) (hg : g ≠ h) : Untouched g e m := by
  obtain ⟨more, hj, hmore⟩ := hf.journal
  refine ⟨hf.others g hg, ?_⟩
  have hnone : more.filter (fun entry => entry.handle = g) = [] :=
    List.filter_eq_nil_iff.mpr fun entry hm => by simp [(hmore entry hm).handle, hg.symm]
  rw [entriesOf, hj, List.filter_append, hnone, record, List.filter_cons_of_neg (by simp [Entry.handle, hg.symm])]
  rfl

theorem sendMessage_of_open [DecidableEq κ] (ht : e.session? h = some t) (hm : t.mode = .webSocket)
    (ho : t.acceptsOutput = true) (text : String) :
    ∃ m, e.sendMessage h text = (.ok (), m) ∧ SendsTo e h t (WebSocket.encode .text (Text.utf8 text) none) m := by
  have hsend := send_sends e h (WebSocket.encode .text (Text.utf8 text) none)
  rw [sendMessage, sendFrame, ht, Option.map_some, hm]
  dsimp only
  generalize e.send h (WebSocket.encode .text (Text.utf8 text) none) = result at hsend ⊢
  cases hsend with
  | notFound hnone => exact absurd (ht.symm.trans hnone) (Option.some_ne_none t)
  | closing hu hc =>
      obtain rfl := Option.some.inj (ht.symm.trans hu)
      exact absurd (ho.symm.trans hc) (by decide)
  | empty hu ho hd => exact absurd hd (encode_ne_nil _ _ _)
  | @queued u m hu ho hd hf =>
      obtain rfl := Option.some.inj (ht.symm.trans hu)
      exact ⟨m, rfl, hf⟩

/-! ## One session after the other -/

/-- The transport `v'` is `v` after it was asked to write on the connection of a session of `e` with `P`. -/
def WritesFor (e : Engine τ κ σ) (P : Session κ → Prop) (v v' : τ) : Prop :=
  ∃ h t, e.session? h = some t ∧ P t ∧ Transport.WritesTo t.conn v v'

/-- Sessions are given the buffer `data` one after the other. -/
inductive SendsInTurn (data : Bytes) : List Handle → Engine τ κ σ → Engine τ κ σ → Prop where
  | nil (e : Engine τ κ σ) : SendsInTurn data [] e e
  | cons {h : Handle} {hs : List Handle} {e m e' : Engine τ κ σ} {t : Session κ} (ht : e.session? h = some t)
      (hf : SendsTo e h t data m) (hr : SendsInTurn data hs m e') : SendsInTurn data (h :: hs) e e'

namespace SendsInTurn

theorem untouched (r : SendsInTurn data hs e e') (hg : g ∉ hs) : Untouched g e e' := by
  induction r with
  | nil => exact ⟨rfl, rfl⟩
  | cons ht hf _ ih =>
      rw [List.mem_cons, not_or] at hg
      exact (hf.untouched hg.1).trans (ih hg.2)

theorem appends (r : SendsInTurn data hs e e') (hn : hs.Nodup) (hh : h ∈ hs) (ht : e.session? h = some t) :
    Appends data h t e e' := by
  induction r with
  | nil => cases hh
  | @cons i hs e m e' u hu hf hr ih =>
      obtain ⟨hi, hn⟩ := List.nodup_cons.mp hn
      by_cases heq : h = i
      · subst heq
        -- Its turn does not come again.
        obtain rfl := Option.some.inj (hu.symm.trans ht)
        exact hf.appends.untouched (hr.untouched hi)
      · have hsame := hf.untouched heq
        exact hsame.appends (ih hn ((List.mem_cons.mp hh).resolve_left heq) (hsame.session.trans ht))

/-- Only connections of the sessions are written to. -/
theorem written (r : SendsInTurn data hs e e') (hn : hs.Nodup) :
    Relation.ReflTransGen (e.WritesFor fun t => t.handle ∈ hs) e.transport e'.transport := by
  induction r with
  | nil => exact .refl
  | @cons i hs e m e' t ht hf hr ih =>
      obtain ⟨hi, hn⟩ := List.nodup_cons.mp hn
      have hfirst : Transport.WritesTo t.conn ≤ e.WritesFor fun t => t.handle ∈ i :: hs := fun v v' hw =>
        ⟨i, t, ht, Registry.handle_of_get? ht ▸ List.mem_cons_self, hw⟩
      have hrest : (m.WritesFor fun t => t.handle ∈ hs) ≤ e.WritesFor fun t => t.handle ∈ i :: hs := by
        rintro v v' ⟨h, u, hu, hh, hw⟩
        have hne : h ≠ i := fun heq => hi (heq ▸ Registry.handle_of_get? hu ▸ hh)
        exact ⟨h, u, (hf.untouched hne).session.symm.trans hu, List.mem_cons_of_mem i hh, hw⟩
      exact (Relation.ReflTransGen.mono hfirst _ _ hf.transport).trans (Relation.ReflTransGen.mono hrest _ _ (ih hn))

/-- Nothing but sessions, the transport and the journal is touched. -/
theorem rest (r : SendsInTurn data hs e e') : ∃ sessions transport journal,
    e' = { e with registry := { e.registry with sessions }, transport, journal } := by
  induction r with
  | nil e => exact ⟨e.registry.sessions, e.transport, e.journal, rfl⟩
  | @cons i hs e m e' t ht hf hr ih =>
      obtain ⟨sessions, transport, journal, rfl⟩ := ih
      obtain ⟨f, hreg⟩ := hf.registry
      refine ⟨sessions, transport, journal, ?_⟩
      rw [hf.rest, hreg]
      rfl

end SendsInTurn

variable [DecidableEq κ]

/-- Sessions that are open WebSockets when the first send begins are all sent to. -/
theorem sendToAll_inTurn (hn : hs.Nodup)
    (hopen : ∀ h ∈ hs, ∃ t, e.session? h = some t ∧ t.mode = .webSocket ∧ t.acceptsOutput = true) (text : String) :
    (sendToAll text hs e).1 = hs.length ∧
      SendsInTurn (WebSocket.encode .text (Text.utf8 text) none) hs e (sendToAll text hs e).2 := by
  induction hs generalizing e with
  | nil => exact ⟨rfl, .nil e⟩
  | cons h hs ih =>
      obtain ⟨hh, hn⟩ := List.nodup_cons.mp hn
      obtain ⟨t, ht, hm, ho⟩ := hopen h List.mem_cons_self
      obtain ⟨m, hsend, hf⟩ := sendMessage_of_open ht hm ho text
      -- Those that wait for their turn are as open as before.
      have hstill (g : Handle) (hg : g ∈ hs) :
          ∃ t, m.session? g = some t ∧ t.mode = .webSocket ∧ t.acceptsOutput = true := by
        have hne : g ≠ h := fun heq => hh (heq ▸ hg)
        rw [(hf.untouched hne).session]
        exact hopen g (List.mem_cons_of_mem h hg)
      obtain ⟨hcount, hturns⟩ := ih hn hstill
      rw [sendToAll, hsend]
      exact ⟨congrArg (· + 1) hcount, .cons ht hf hturns⟩

end

/-! ## Every open WebSocket -/

section

variable [Transport τ κ]

/-- What a broadcast of the buffer `data` comes to: the open WebSockets are counted and given the buffer, and nothing
else is touched but their connections. -/
structure Broadcasts (e : Engine τ κ σ) (data : Bytes) (result : Nat × Engine τ κ σ) : Prop where
  count : result.1 = (e.registry.sessions.filter Session.isOpenWebSocket).length
  appends : ∀ h t, e.session? h = some t → t.isOpenWebSocket = true → Appends data h t e result.2
  untouched : ∀ h, (∀ t, e.session? h = some t → t.isOpenWebSocket = false) → Untouched h e result.2
  written : Relation.ReflTransGen (e.WritesFor fun t => t.isOpenWebSocket = true) e.transport result.2.transport
  rest : ∃ sessions transport journal,
    result.2 = { e with registry := { e.registry with sessions }, transport, journal }

end

/-- A session is listed for a broadcast if it is an open WebSocket. -/
theorem mem_audience (w : e.registry.WellFormed) (hl : e.registry.Live) :
    h ∈ e.audience ↔ ∃ t, e.session? h = some t ∧ t.isOpenWebSocket = true := by
  rw [audience, List.mem_map]
  constructor
  · rintro ⟨t, hlisted, rfl⟩
    obtain ⟨hmem, hopen⟩ := List.mem_filter.mp hlisted
    have ht := w.get?_eq_some.mpr ⟨hmem, rfl⟩
    rw [Session.acceptsOutput_eq (hl _ t ht)] at hopen
    exact ⟨t, ht, hopen⟩
  · rintro ⟨t, ht, hopen⟩
    refine ⟨t, List.mem_filter.mpr ⟨Registry.mem_of_get? ht, ?_⟩, Registry.handle_of_get? ht⟩
    rwa [Session.acceptsOutput_eq (hl h t ht)]

theorem length_audience (w : e.registry.WellFormed) (hl : e.registry.Live) :
    e.audience.length = (e.registry.sessions.filter Session.isOpenWebSocket).length := by
  rw [audience, List.length_map]
  congr 1
  refine List.filter_congr fun t ht => ?_
  rw [Session.acceptsOutput_eq (hl t.handle t (w.get?_eq_some.mpr ⟨ht, rfl⟩)), Session.isOpenWebSocket]

theorem nodup_audience (w : e.registry.WellFormed) : e.audience.Nodup :=
  w.handles_nodup.sublist (List.filter_sublist.map _)

variable [DecidableEq κ] [Transport τ κ]

/-- A broadcast may list the sessions in any order. -/
theorem sendToAll_broadcasts (w : e.registry.WellFormed) (hl : e.registry.Live) (hp : hs.Perm e.audience)
    (text : String) : Broadcasts e (WebSocket.encode .text (Text.utf8 text) none) (sendToAll text hs e) := by
  have hn : hs.Nodup := hp.nodup_iff.mpr (nodup_audience w)
  have hmem {h : Handle} : h ∈ hs ↔ ∃ t, e.session? h = some t ∧ t.isOpenWebSocket = true :=
    hp.mem_iff.trans (mem_audience w hl)
  have hopen (h : Handle) (hh : h ∈ hs) :
      ∃ t, e.session? h = some t ∧ t.mode = .webSocket ∧ t.acceptsOutput = true := by
    obtain ⟨t, ht, ho⟩ := hmem.mp hh
    rw [Session.isOpenWebSocket, Bool.and_eq_true, decide_eq_true_eq] at ho
    exact ⟨t, ht, ho.1, (Session.acceptsOutput_eq (hl h t ht)).trans ho.2⟩
  obtain ⟨hcount, hturns⟩ := sendToAll_inTurn hn hopen text
  refine ⟨hcount.trans (hp.length_eq.trans (length_audience w hl)), fun h t ht ho => ?_, fun h hclosed => ?_, ?_,
    hturns.rest⟩
  · exact hturns.appends hn (hmem.mpr ⟨t, ht, ho⟩) ht
  · refine hturns.untouched fun hh => ?_
    obtain ⟨t, ht, ho⟩ := hmem.mp hh
    exact absurd ((hclosed t ht).symm.trans ho) (by decide)
  · refine Relation.ReflTransGen.mono ?_ _ _ (hturns.written hn)
    rintro v v' ⟨h, t, ht, hh, hw⟩
    obtain ⟨u, hu, ho⟩ := hmem.mp (Registry.handle_of_get? ht ▸ hh)
    obtain rfl := Option.some.inj (ht.symm.trans hu)
    exact ⟨h, t, ht, ho, hw⟩

omit [DecidableEq κ] in
theorem snd_sendToAll (text : String) (hs : List Handle) (e : Engine τ κ σ) :
    (sendToAll text hs e).2 = hs.foldl (fun e h => (e.sendMessage h text).2) e := by
  induction hs generalizing e with
  | nil => rfl
  | cons h hs ih => exact ih _

/-- Where connections do not touch each other, the order does not show. -/
theorem sendToAll_reordered [Separate τ κ] (w : e.registry.WellFormed) (hl : e.registry.Live)
    (hp : hs.Perm e.audience) (text : String) : Reordered (sendToAll text hs e).2 (e.broadcast text).2 := by
  rw [broadcast, snd_sendToAll, snd_sendToAll]
  refine foldl_perm (fun h conn _ _ _ _ s => (sendFrame_agree s .text (Text.utf8 text)).inStep) hp
    (hp.nodup_iff.mpr (nodup_audience w)) fun h hh => ?_
  obtain ⟨t, ht, -⟩ := (mem_audience w hl).mp (hp.mem_iff.mp hh)
  exact ⟨t.conn, w, t, ht, rfl⟩

end Engine

namespace Server

variable [DecidableEq κ] [Transport τ κ]

/-- A broadcast of a text reaches the open WebSockets, and would do so in any other order of the sessions: where
connections do not touch each other, even with the same outcome. -/
structure BroadcastsExactly (e : Engine τ κ σ) (text : String) : Prop where
  reaches : Engine.Broadcasts e (WebSocket.encode .text (Text.utf8 text) none) (e.broadcast text)
  anyOrder : ∀ hs : List Handle, hs.Perm e.audience →
    Engine.Broadcasts e (WebSocket.encode .text (Text.utf8 text) none) (Engine.sendToAll text hs e)
  sameOutcome : ∀ [Separate τ κ], ∀ hs : List Handle, hs.Perm e.audience →
    (Engine.sendToAll text hs e).1 = (e.broadcast text).1 ∧
      Engine.Reordered (Engine.sendToAll text hs e).2 (e.broadcast text).2

/-- After every operation of a run, and at every moment meanwhile, a broadcast puts one frame with its text on exactly
the open WebSockets, and counts them. -/
theorem broadcastsExactly_of_course {config : Config} {transport : τ} {app : σ} {s : Server τ κ σ}
    {ds : List (Deed τ κ σ)} (hc : Course (fun _ _ => True) (new config transport app) ds s) (text : String) :
    BroadcastsExactly s.engine text ∧
      ∀ past, past <+: ds → BroadcastsExactly ((new config transport app).engine.after past) text := by
  have hafter (past : List (Deed τ κ σ)) :
      BroadcastsExactly ((new config transport app).engine.after past) text := by
    have w := (Engine.after_regular (e := (new config transport app).engine) (Registry.regular_new _) past).wellFormed
    have hl := Engine.after_live (e := (new config transport app).engine) (Registry.regular_new _)
      (Registry.live_new _) past
    generalize (new config transport app).engine.after past = e at w hl
    have hreaches := Engine.sendToAll_broadcasts w hl (.refl e.audience) text
    refine ⟨hreaches, fun hs hp => Engine.sendToAll_broadcasts w hl hp text, fun hs hp => ⟨?_, ?_⟩⟩
    · exact (Engine.sendToAll_broadcasts w hl hp text).count.trans hreaches.count.symm
    · exact Engine.sendToAll_reordered w hl hp text
  exact ⟨hc.engine ▸ hafter ds, fun past _ => hafter past⟩

/-- Two open WebSockets with room for a part of the frame, between a session that is no WebSocket and one that is
closing. -/
theorem broadcastsExactly_of_two_open :
    let host : Host.Connections :=
      { sendBuffer := 132, network := ⟨.ok⟩, links := [(1, 0), (2, 0), (3, 0), (4, 0)],
        sockets := [(1, {}), (2, {}), (3, {}), (4, {})] }
    let hello := Text.utf8 ("GET / HTTP/1.1\r\nHost: a\r\nConnection: Upgrade\r\nUpgrade: websocket\r\nOrigin: b\r\n" ++
      "Sec-WebSocket-Version: 13\r\nSec-WebSocket-Key: a2V5\r\n\r\n")
    let operations : List (Operation Host.Connections Nat Unit) :=
      [.call (.accept 1), .call (.accept 2), .call (.accept 3), .call (.accept 4), .receive 1 hello, .receive 3 hello,
        .receive 4 hello, .call (.close ⟨1003⟩)]
    let e := (operations.foldl apply (new {} host ())).engine
    let backwards := Engine.sendToAll "hi" [⟨1002⟩, ⟨1000⟩] e
    BroadcastsExactly e "hi" ∧ (e.broadcast "hi").1 = 2 ∧ Engine.Reordered backwards.2 (e.broadcast "hi").2 ∧
      ((e.broadcast "hi").2.journal.take 4).filterMap Entry.request? =
        [.write 3 [0x81, 2, 104], .write 1 [0x81, 2, 104]] ∧
      (backwards.2.journal.take 4).filterMap Entry.request? =
        [.write 1 [0x81, 2, 104], .write 3 [0x81, 2, 104]] := by
  intro host hello operations e backwards
  have hcourse : Course (fun _ _ => True) (new {} host ()) (deedsOf operations (new {} host ()))
      (operations.foldl apply (new {} host ())) := course_deedsOf fun _ _ _ => trivial
  have hexact : BroadcastsExactly e "hi" := (broadcastsExactly_of_course hcourse "hi").1
  have hruns : e.audience = [⟨1000⟩, ⟨1002⟩] ∧ (e.broadcast "hi").1 = 2 ∧
      ((e.broadcast "hi").2.journal.take 4).filterMap Entry.request? =
        [.write 3 [0x81, 2, 104], .write 1 [0x81, 2, 104]] ∧
      (backwards.2.journal.take 4).filterMap Entry.request? =
        [.write 1 [0x81, 2, 104], .write 3 [0x81, 2, 104]] := by decide +kernel
  obtain ⟨hopen, hcount, hforward, hbackward⟩ := hruns
  have hp : [⟨1002⟩, ⟨1000⟩].Perm e.audience := hopen ▸ .swap _ _ _
  exact ⟨hexact, hcount, (hexact.sameOutcome _ hp).2, hforward, hbackward⟩

end Server

end WebServer
