import WebServer.Proofs.Engine.Coherence
import WebServer.Proofs.Output.Journal

/-! # Effects

What an operation does to an engine it does to one session after the other. An effect is what becomes of a session
and what the journal gains meanwhile; a licence tells which effects an operation may have, and on which sessions. -/

namespace WebServer

/-- The closing frames that the engine makes. -/
def WebSocket.IsClose (data : Bytes) : Prop :=
  ∃ payload, data = encode .close payload none

/-- What an operation may do, and to which sessions. -/
structure License (τ : Type) extends Surroundings τ where
  drift := fun _ _ => False
  accepts := False
  upgrades := False
  receives := False
  takes := False
  advances := False
  arranges := False
  on : Handle → Prop := fun _ => True
  acknowledges : Prop := False
  /-- Whether sessions are ended whatever they still have queued. -/
  forces : Prop := False
  /-- Whether sessions are removed without a word to the transport. -/
  drops : Prop := False
  /-- Whether the application sends. -/
  sends : Prop := False
  /-- Whether a request is answered, even on a session that is ending. -/
  answers : Prop := False
  /-- Whether a message is given to a handler. -/
  hands : Prop := False

variable {τ κ σ : Type}

/-- A journal that has grown by entries with a property. -/
def Grown (P : Entry κ → Prop) (journal grown : List (Entry κ)) : Prop :=
  ∃ more, grown = more ++ journal ∧ ∀ entry ∈ more, P entry

namespace Grown

variable {P : Entry κ → Prop} {journal grown : List (Entry κ)} {entry : Entry κ}

theorem refl (P : Entry κ → Prop) (journal : List (Entry κ)) : Grown P journal journal :=
  ⟨[], rfl, by simp⟩

theorem cons (hg : Grown P journal grown) (hp : P entry) : Grown P journal (entry :: grown) := by
  obtain ⟨more, rfl, hmore⟩ := hg
  exact ⟨entry :: more, rfl, List.forall_mem_cons.mpr ⟨hp, hmore⟩⟩

theorem filter (hg : Grown P journal grown) (p : Entry κ → Bool) : Grown P (journal.filter p) (grown.filter p) := by
  obtain ⟨more, rfl, hmore⟩ := hg
  exact ⟨more.filter p, List.filter_append .., fun entry hm => hmore entry (List.mem_of_mem_filter hm)⟩

end Grown

namespace Entry

/-- An entry about output of a session that was offered to its connection. -/
inductive Offers (h : Handle) (conn : κ) : Entry κ → Prop where
  | wrote (chunk : Bytes) (outcome : Except TransportError Nat) : Offers h conn (.wrote h conn chunk outcome)
  | lost (rest : Bytes) (error : OutboundError) : Offers h conn (.lost h rest error)

/-- An entry about a message of a session that is given to a handler. -/
inductive Hands (h : Handle) : Entry κ → Prop where
  | request (r : Http.Request) : Hands h (.request h r)
  | text (message : String) : Hands h (.text h message)
  | binary (message : Bytes) : Hands h (.binary h message)

end Entry

/-! ## What a flush writes -/

namespace Outflow

variable [Transport τ κ] {journal : List (Entry κ)} {h : Handle} {conn : κ} {o : Outflow τ κ}

omit [Transport τ κ] in
theorem takeBack_grown (hg : Grown (Entry.Offers h conn) journal o.journal) (rest : Bytes) :
    Grown (Entry.Offers h conn) journal (o.takeBack h rest).journal := by
  rw [takeBack]
  split
  · exact hg
  · exact hg.cons (.lost rest _)

theorem offer_grown (hg : Grown (Entry.Offers h conn) journal o.journal) (segment : Nat) :
    Grown (Entry.Offers h conn) journal (o.offer h conn segment).2.journal := by
  rw [offer]
  split
  · exact hg
  · dsimp only
    split
    · split
      · exact hg.cons (.wrote _ _)
      · exact takeBack_grown (hg.cons (.wrote _ _)) _
    · exact takeBack_grown (hg.cons (.wrote _ _)) _

theorem offerLoop_grown (hg : Grown (Entry.Offers h conn) journal o.journal) (segment fuel : Nat) :
    Grown (Entry.Offers h conn) journal (o.offerLoop h conn segment fuel).journal :=
  offerLoop_keep (I := fun o => Grown (Entry.Offers h conn) journal o.journal) (fun _ hg => offer_grown hg segment) fuel hg

end Outflow

namespace Engine

variable {e : Engine τ κ σ} {h : Handle}

/-- The entry of a notice, if the application watches. -/
def heard (e : Engine τ κ σ) (h : Handle) (n : Notice) : List (Entry κ) :=
  if e.watcher.isSome then [.notice h n] else []

theorem heard_congr {e' : Engine τ κ σ} (hw : e'.watcher = e.watcher) (h : Handle) (n : Notice) :
    e'.heard h n = e.heard h n := by
  rw [heard, heard, hw]

theorem notify_journal (e : Engine τ κ σ) (h : Handle) (n : Notice) :
    (e.notify h n).journal = e.heard h n ++ e.journal := by
  rw [notify, heard]
  cases e.watcher with
  | none => rfl
  | some watch => rfl

@[simp] theorem notify_watcher (e : Engine τ κ σ) (h : Handle) (n : Notice) :
    (e.notify h n).watcher = e.watcher := by
  rw [notify]
  split <;> rfl

theorem notify_now (e : Engine τ κ σ) (h : Handle) (n : Notice) : (e.notify h n).now = e.now := by
  rw [notify]
  split <;> rfl

@[simp] theorem notify_session? (e : Engine τ κ σ) (h g : Handle) (n : Notice) :
    (e.notify h n).session? g = e.session? g :=
  congrArg (Registry.get? · g) (notify_registry e h n)

theorem update_session? {f : Session κ → Session κ} (hf : ∀ t, (f t).handle = t.handle) :
    (e.update h f).session? h = (e.session? h).map f :=
  Registry.get?_update_self hf

theorem update_session?_of_some {t : Session κ} (hs : e.session? h = some t) {f : Session κ → Session κ}
    (hf : ∀ t, (f t).handle = t.handle) : (e.update h f).session? h = some (f t) := by
  rw [update_session? hf, hs, Option.map_some]

theorem update_session?_of_ne {f : Session κ → Session κ} (hf : ∀ t, (f t).handle = t.handle) {g : Handle}
    (hg : g ≠ h) : (e.update h f).session? g = e.session? g := by
  change (e.registry.update h f).get? g = e.registry.get? g
  rw [Registry.get?_update hf]
  cases hs : e.registry.get? g with
  | none => rfl
  | some t =>
      have hne : t.handle ≠ h := Registry.handle_of_get? hs ▸ hg
      rw [Option.map_some, if_neg hne]

theorem flush_grown [Transport τ κ] {t : Session κ} (hs : e.session? h = some t) :
    Grown (Entry.Offers h t.conn) e.journal (e.flush h).journal := by
  rw [flush, hs]
  exact Outflow.offerLoop_grown (.refl _ _) _ _

@[simp] theorem flush_watcher [Transport τ κ] (e : Engine τ κ σ) (h : Handle) : (e.flush h).watcher = e.watcher := by
  rw [flush]
  split <;> rfl

section

variable [DecidableEq κ] [Transport τ κ] {env : Surroundings τ} {e' : Engine τ κ σ}

/-- A move adds to the journal. -/
theorem Move.journal_suffix (hm : Move env e e') : e.journal <:+ e'.journal := by
  cases hm with
  | accepted | queued | hungUp | noted | told => exact List.suffix_cons _ _
  | flushed h =>
      cases hs : e.session? h with
      | none => exact (flush_of_none hs).symm ▸ List.suffix_refl _
      | some t =>
          obtain ⟨offers, hj, -⟩ := flush_grown hs
          exact ⟨offers, hj.symm⟩
  | arranged _ _ hj => exact hj ▸ List.suffix_refl _
  | adjusted | received | took | upgraded | acknowledged | removed | listened | stoppedListening | drifted | advanced =>
      exact List.suffix_refl _

theorem Moves.journal_suffix (hm : Moves env e e') : e.journal <:+ e'.journal :=
  hm.keep (I := fun m => e.journal <:+ m.journal) (fun _ _ hmove hj => hj.trans hmove.journal_suffix)
    (List.suffix_refl _)

end

end Engine

/-! ## Effects on a session -/

/-- What may become of the session `h` of an engine, and what the journal gains meanwhile. -/
inductive Effect (lic : License τ) (e : Engine τ κ σ) (h : Handle) : Option (Session κ) → List (Entry κ) → Prop where
  | accepted {conn : κ} (hs : e.session? h = none) (ha : lic.accepts) :
      Effect lic e h (some (.accepted h conn e.now)) (e.heard h .opened ++ [.accepted h conn])
  | received {t : Session κ} (hs : e.session? h = some t) (data : Bytes) (hr : lic.receives) :
      Effect lic e h (some ({ t with inbound := t.inbound ++ data }.touch e.now)) []
  | consumed {t : Session κ} (hs : e.session? h = some t) (inbound : Bytes) (fragment : Option Fragment)
      (ht : lic.takes) :
      Effect lic e h (some { t with inbound, fragment }) []
  /-- Only an answer is queued on a session that is ending, and only the application queues closing frames so. -/
  | queued {t : Session κ} {data : Bytes} {queue : OutboundQueue} (hs : e.session? h = some t)
      (hq : t.outbound.enqueue data = .ok queue) (ho : lic.answers ∨ t.isEnding = false)
      (hc : lic.sends ∨ ¬WebSocket.IsClose data) :
      Effect lic e h (some { t with outbound := queue }) [.queued h data]
  | upgraded {t : Session κ} (hs : e.session? h = some t) (hm : t.mode = .http) (ho : t.isEnding = false) :
      Effect lic e h (some { t with mode := .webSocket }) (e.heard h .upgraded)
  | closeQueued {t : Session κ} {payload : Bytes} {queue : OutboundQueue} (hs : e.session? h = some t)
      (hq : t.outbound.enqueue (WebSocket.encode .close payload none) = .ok queue) (hm : t.mode = .webSocket)
      (ho : t.isEnding = false) (idle : Bool) :
      Effect lic e h (some { t with outbound := queue, closeSent := true, lastActivity := e.now })
        (.queued h (WebSocket.encode .close payload none) :: if idle then e.heard h .idle else [])
  /-- A session begins to close and has something left to send. -/
  | beganClose {t : Session κ} {queue : OutboundQueue} {offers : List (Entry κ)} (hs : e.session? h = some t)
      (ho : t.closing = false) (hlen : queue.buffers.length = t.outbound.buffers.length) (hne : queue.buffers ≠ [])
      (hoffers : ∀ entry ∈ offers, entry.Offers h t.conn) :
      Effect lic e h
        (some { t with
          closing := true, inbound := [], outbound := queue,
          lastActivity := if t.closeSent then t.lastActivity else e.now }) offers
  | acknowledged {t : Session κ} {queue : OutboundQueue} {offers : List (Entry κ)} (hs : e.session? h = some t)
      (ha : lic.acknowledges) (hne : t.closing = true → queue.buffers ≠ [])
      (hoffers : ∀ entry ∈ offers, entry.Offers h t.conn) :
      Effect lic e h (some { t.touchSent e.now with outbound := queue }) offers
  | flushed {t : Session κ} {queue : OutboundQueue} {offers : List (Entry κ)} (hs : e.session? h = some t)
      (hlen : queue.buffers.length = t.outbound.buffers.length)
      (hoffers : ∀ entry ∈ offers, entry.Offers h t.conn) :
      Effect lic e h (some { t with outbound := queue }) offers
  | ended {t : Session κ} {offers : List (Entry κ)} (hs : e.session? h = some t) (idle : Bool)
      (hi : idle = true → t.isEnding = false) (hoffers : ∀ entry ∈ offers, entry.Offers h t.conn) :
      Effect lic e h none
        (e.heard h .closed ++ .closed h t.conn :: (if idle then e.heard h .idle else []) ++ offers)
  | dropped {t : Session κ} (hs : e.session? h = some t) (hd : lic.drops) : Effect lic e h none (e.heard h .closed)
  | handed {entry : Entry κ} (he : entry.Hands h) (hl : lic.hands) : Effect lic e h (e.session? h) [entry]

theorem Engine.handle_of_mem_heard {e : Engine τ κ σ} {h : Handle} {n : Notice} {entry : Entry κ}
    (hm : entry ∈ e.heard h n) : entry = .notice h n := by
  rw [heard] at hm
  split at hm
  · exact List.mem_singleton.mp hm
  · cases hm

theorem Entry.Offers.handle {h : Handle} {conn : κ} {entry : Entry κ} (ho : entry.Offers h conn) :
    entry.handle = h := by
  cases ho <;> rfl

theorem Entry.Offers.not_handsOver {h : Handle} {conn : κ} {entry : Entry κ} (ho : entry.Offers h conn) :
    entry.handsOver = false := by
  cases ho <;> rfl

theorem Entry.Hands.handle {h : Handle} {entry : Entry κ} (hh : entry.Hands h) : entry.handle = h := by
  cases hh <;> rfl

theorem Entry.Offers.silent {h : Handle} {conn : κ} {entry : Entry κ} (ho : entry.Offers h conn) : entry.Silent h := by
  cases ho <;> exact ⟨rfl, rfl⟩

theorem Entry.Hands.silent {h : Handle} {entry : Entry κ} (hh : entry.Hands h) : entry.Silent h := by
  cases hh <;> exact ⟨rfl, rfl⟩

theorem Engine.silent_of_mem_heard {e : Engine τ κ σ} {h : Handle} {n : Notice} :
    ∀ entry ∈ e.heard h n, Entry.Silent h entry := by
  intro entry hm
  rw [handle_of_mem_heard hm]
  exact ⟨rfl, rfl⟩

/-- An effect on a session leaves entries about that session only. -/
theorem Effect.handle {lic : License τ} {e : Engine τ κ σ} {h : Handle} {u? : Option (Session κ)}
    {gained : List (Entry κ)} (he : Effect lic e h u? gained) : ∀ entry ∈ gained, entry.handle = h := by
  have hheard {n : Notice} : ∀ entry ∈ e.heard h n, entry.handle = h := fun entry hm => by
    rw [Engine.handle_of_mem_heard hm]
    rfl
  have hidle (idle : Bool) : ∀ entry ∈ (if idle then e.heard h .idle else []), entry.handle = h := by
    cases idle with
    | true => exact hheard
    | false => simp
  cases he with
  | accepted => exact List.forall_mem_append.mpr ⟨hheard, by simp [Entry.handle]⟩
  | received | consumed => simp
  | queued => simp [Entry.handle]
  | upgraded | dropped => exact hheard
  | closeQueued hs hq hm ho idle => exact List.forall_mem_cons.mpr ⟨rfl, hidle idle⟩
  | beganClose _ _ _ _ ho | acknowledged _ _ _ ho | flushed _ _ ho => exact fun entry hm => (ho entry hm).handle
  | ended hs idle _ ho =>
      intro entry hm
      simp only [List.mem_append, List.mem_cons] at hm
      rcases hm with (hm | rfl | hm) | hm
      · exact hheard entry hm
      · rfl
      · exact hidle idle entry hm
      · exact (ho entry hm).handle
  | handed hh => simpa using hh.handle

/-- Where nothing is handed over, no entry says so. -/
theorem Effect.not_handsOver {lic : License τ} {e : Engine τ κ σ} {h : Handle} {u? : Option (Session κ)}
    {gained : List (Entry κ)} (he : Effect lic e h u? gained) (hl : ¬lic.hands) :
    ∀ entry ∈ gained, entry.handsOver = false := by
  have hheard {n : Notice} : ∀ entry ∈ e.heard h n, entry.handsOver = false := fun entry hm => by
    rw [Engine.handle_of_mem_heard hm]
    rfl
  have hidle (idle : Bool) : ∀ entry ∈ (if idle then e.heard h .idle else []), entry.handsOver = false := by
    cases idle with
    | true => exact hheard
    | false => simp
  cases he with
  | accepted => exact List.forall_mem_append.mpr ⟨hheard, by simp [Entry.handsOver]⟩
  | received | consumed => simp
  | queued => simp [Entry.handsOver]
  | upgraded | dropped => exact hheard
  | closeQueued hs hq hm ho idle => exact List.forall_mem_cons.mpr ⟨rfl, hidle idle⟩
  | beganClose _ _ _ _ ho | acknowledged _ _ _ ho | flushed _ _ ho => exact fun entry hm => (ho entry hm).not_handsOver
  | ended hs idle _ ho =>
      intro entry hm
      simp only [List.mem_append, List.mem_cons] at hm
      rcases hm with (hm | rfl | hm) | hm
      · exact hheard entry hm
      · rfl
      · exact hidle idle entry hm
      · exact (ho entry hm).not_handsOver
  | handed _ hands => exact absurd hands hl

theorem Session.touch_eq (now : Nat) (t : Session κ) :
    t.touch now = { t with lastActivity := if t.isEnding then t.lastActivity else now } := by
  rw [touch]
  split <;> rfl

theorem Session.touchSent_eq (now : Nat) (t : Session κ) :
    t.touchSent now = { t with lastActivity := if t.closeSent then t.lastActivity else now } := by
  rw [touchSent]
  split <;> rfl

/-- A session keeps its connection, or has just been accepted. -/
theorem Effect.conn {lic : License τ} {e : Engine τ κ σ} {h : Handle} {u : Session κ} {gained : List (Entry κ)}
    (he : Effect lic e h (some u) gained) :
    (∃ t, e.session? h = some t ∧ u.conn = t.conn) ∨ e.session? h = none ∧ .accepted h u.conn ∈ gained := by
  generalize hu : some u = u? at he
  cases he with
  | @accepted conn hs =>
      cases Option.some.inj hu
      exact .inr ⟨hs, List.mem_append_right _ (List.mem_singleton.mpr rfl)⟩
  | received hs data =>
      refine .inl ⟨_, hs, ?_⟩
      rw [Option.some.inj hu, Session.touch_conn]
  | acknowledged hs =>
      rw [Session.touchSent_eq] at hu
      exact .inl ⟨_, hs, Option.some.inj hu ▸ rfl⟩
  | consumed hs | queued hs | upgraded hs | closeQueued hs | beganClose hs | flushed hs =>
      exact .inl ⟨_, hs, Option.some.inj hu ▸ rfl⟩
  | ended | dropped => cases hu
  | handed => exact .inl ⟨u, hu.symm, rfl⟩

/-- A session whose closing frame is queued speaks the WebSocket protocol, and one that is closing has something left
to send or to be acknowledged. -/
structure Session.Regular (t : Session κ) : Prop where
  webSocket : t.closeSent = true → t.mode = .webSocket
  settled : t.Settled

theorem Session.Settled.of_length {t u : Session κ} (s : t.Settled) (hc : u.closing = t.closing)
    (hlen : u.outbound.buffers.length = t.outbound.buffers.length) : u.Settled := by
  intro hclosing
  have hpos := List.length_pos_iff.mpr (s (hc ▸ hclosing))
  exact List.length_pos_iff.mp (hlen ▸ hpos)

theorem Session.flags_of_open {t : Session κ} (ho : t.isEnding = false) : t.closeSent = false ∧ t.closing = false := by
  simpa [isEnding] using ho

theorem Session.isEnding_of_acceptsOutput {t : Session κ} (ha : t.acceptsOutput = true) : t.isEnding = false := by
  simp only [acceptsOutput, Bool.and_eq_true, Bool.not_eq_true'] at ha
  simp [isEnding, ha]

/-- Only open sessions are asked to send a closing frame. -/
theorem Session.isEnding_of_decide_sendClose {t : Session κ} {config : Config} {now : Nat}
    (hd : IdleAction.decide t config now = .sendClose) : t.isEnding = false := by
  rw [IdleAction.decide] at hd
  cases he : t.isEnding with
  | false => rfl
  | true =>
      rw [he, if_pos rfl] at hd
      split at hd <;> cases hd

theorem Session.settled_of_open {t : Session κ} (ho : t.closing = false) : t.Settled := by
  simp [Settled, ho]

theorem OutboundQueue.enqueue_eq {q q' : OutboundQueue} {data : Bytes} (hq : q.enqueue data = .ok q') :
    q' = { q with buffers := q.buffers ++ [⟨data, 0, 0⟩] } := by
  rw [enqueue] at hq
  split at hq
  · cases hq
  · exact (Except.ok.inj hq).symm

/-- What becomes of a regular session is regular. -/
theorem Effect.regular {lic : License τ} {e : Engine τ κ σ} {h : Handle} {u : Session κ} {gained : List (Entry κ)}
    (he : Effect lic e h (some u) gained) (r : ∀ t, e.session? h = some t → t.Regular) : u.Regular := by
  generalize hu : some u = u? at he
  cases he with
  | accepted => exact Option.some.inj hu ▸ ⟨by simp [Session.accepted], by simp [Session.Settled, Session.accepted]⟩
  | received hs =>
      rw [Session.touch_eq] at hu
      exact Option.some.inj hu ▸ ⟨(r _ hs).webSocket, (r _ hs).settled⟩
  | consumed hs => exact Option.some.inj hu ▸ ⟨(r _ hs).webSocket, (r _ hs).settled⟩
  | queued hs hq =>
      rw [OutboundQueue.enqueue_eq hq] at hu
      exact Option.some.inj hu ▸ ⟨(r _ hs).webSocket, fun _ => by simp⟩
  | upgraded hs hm ho =>
      exact Option.some.inj hu ▸ ⟨fun _ => rfl, Session.settled_of_open (Session.flags_of_open ho).2⟩
  | closeQueued hs hq hm ho =>
      exact Option.some.inj hu ▸ ⟨fun _ => hm, Session.settled_of_open (Session.flags_of_open ho).2⟩
  | beganClose hs ho hlen hne => exact Option.some.inj hu ▸ ⟨(r _ hs).webSocket, fun _ => hne⟩
  | acknowledged hs ha hne =>
      rw [Session.touchSent_eq] at hu
      exact Option.some.inj hu ▸ ⟨(r _ hs).webSocket, hne⟩
  | flushed hs hlen => exact Option.some.inj hu ▸ ⟨(r _ hs).webSocket, (r _ hs).settled.of_length rfl hlen⟩
  | ended | dropped => cases hu
  | handed => exact r u hu.symm

/-- Every session is regular. -/
structure Registry.Regular (r : Registry κ) : Prop where
  wellFormed : r.WellFormed
  sessions : ∀ t ∈ r.sessions, t.Regular

theorem Registry.regular_new (limit : Nat) : (new limit : Registry κ).Regular :=
  ⟨wellFormed_new limit, by simp [new]⟩

theorem Registry.Coherent.regular {r : Registry κ} (c : r.Coherent) : r.Regular :=
  ⟨c.wellFormed, fun t ht => ⟨(c.steady t ht).closeSent, c.settled t ht⟩⟩

theorem Registry.Regular.at {r : Registry κ} (g : r.Regular) {h : Handle} {t : Session κ} (hs : r.get? h = some t) :
    t.Regular :=
  g.sessions t (mem_of_get? hs)

/-! ## Effects on an engine -/

section

variable [DecidableEq κ] [Transport τ κ]

/-- The engine `e'` came from `e` by closing the connection of the session `h`, which had begun to close and had
nothing left to send or to be acknowledged. -/
structure Drained (env : Surroundings τ) (e : Engine τ κ σ) (h : Handle) (conn : κ) (e' : Engine τ κ σ) : Prop where
  out : ∃ m u, Engine.Moves env e m ∧ m.session? h = some u ∧ u.conn = conn ∧ u.closing = true ∧
    u.outbound.buffers = [] ∧ e' = m.forceClose h

/-- The engine `e'` came from `e` by an effect on the session `h`, and on no other. -/
structure Affects (lic : License τ) (h : Handle) (e e' : Engine τ κ σ) : Prop where
  on : lic.on h
  moves : Engine.Moves lic.toSurroundings e e'
  watcher : e'.watcher = e.watcher
  others : ∀ g, g ≠ h → e'.session? g = e.session? g
  effect : ∃ gained, e'.journal = gained ++ e.journal ∧ Effect lic e h (e'.session? h) gained
  left : ∀ t, e.session? h = some t → e'.session? h = none →
    lic.drops ∨ lic.forces ∨ Drained lic.toSurroundings e h t.conn e'

/-- The engine `e'` came from `e` by something that concerns neither a session nor the journal. -/
structure Aside (lic : License τ) (e e' : Engine τ κ σ) : Prop where
  moves : Engine.Moves lic.toSurroundings e e'
  registry : e'.registry = e.registry
  journal : e'.journal = e.journal
  watcher : e.watcher.isSome → e'.watcher.isSome

inductive Step (lic : License τ) (e e' : Engine τ κ σ) : Prop where
  | affects {h : Handle} (ha : Affects lic h e e')
  | aside (ha : Aside lic e e')

variable {lic : License τ} {e e' e'' : Engine τ κ σ} {h : Handle}

theorem Affects.regular (ha : Affects lic h e e') (r : e.registry.Regular) : e'.registry.Regular := by
  have w := ha.moves.wellFormed r.wellFormed
  refine ⟨w, fun u hu => ?_⟩
  have hs : e'.session? u.handle = some u := w.get?_eq_some.mpr ⟨hu, rfl⟩
  by_cases hne : u.handle = h
  · obtain ⟨gained, -, heff⟩ := ha.effect
    rw [← hne, hs] at heff
    exact heff.regular fun t ht => r.at ht
  · rw [ha.others u.handle hne] at hs
    exact r.at hs

theorem Step.regular (hs : Step lic e e') (r : e.registry.Regular) : e'.registry.Regular := by
  cases hs with
  | affects ha => exact ha.regular r
  | aside ha => exact ha.registry ▸ r

theorem Step.moves (hs : Step lic e e') : Engine.Moves lic.toSurroundings e e' := by
  cases hs with
  | affects ha => exact ha.moves
  | aside ha => exact ha.moves

/-- A step has an effect on a session that its licence names, or leaves the session alone. -/
theorem Step.on_session (hs : Step lic e e') (h : Handle) :
    (e'.session? h = e.session? h ∧ ∃ gained, e'.journal = gained ++ e.journal ∧ ∀ entry ∈ gained, entry.handle ≠ h) ∨
      Affects lic h e e' := by
  cases hs with
  | @affects g ha =>
      by_cases hg : h = g
      · exact .inr (hg ▸ ha)
      · obtain ⟨gained, hj, heff⟩ := ha.effect
        exact .inl ⟨ha.others h hg, gained, hj, fun entry hm => heff.handle entry hm ▸ Ne.symm hg⟩
  | aside ha =>
      exact .inl ⟨congrArg (Registry.get? · h) ha.registry, [], ha.journal, by simp⟩

theorem Step.handedOver (hs : Step lic e e') (hl : ¬lic.hands) : handedOver e'.journal = handedOver e.journal := by
  cases hs with
  | affects ha =>
      obtain ⟨gained, hj, heff⟩ := ha.effect
      rw [hj, handedOver_append_of_not (heff.not_handsOver hl)]
  | aside ha => rw [ha.journal]

theorem Step.watches (hs : Step lic e e') (hw : e.watcher.isSome) : e'.watcher.isSome := by
  cases hs with
  | affects ha => exact ha.watcher ▸ hw
  | aside ha => exact ha.watcher hw

/-- From a regular engine, effects that the licence allows lead to the engine `e'`. -/
def Acts (lic : License τ) (e e' : Engine τ κ σ) : Prop :=
  e.registry.Regular → Relation.ReflTransGen (Step lic) e e'

/-- What every effect keeps, a chain of them keeps. -/
theorem steps_keep {I : Engine τ κ σ → Prop} (hs : Relation.ReflTransGen (Step lic) e e') (r : e.registry.Regular)
    (hI : ∀ e e' : Engine τ κ σ, e.registry.Regular → Step lic e e' → I e → I e') (he : I e) :
    e'.registry.Regular ∧ I e' := by
  induction hs with
  | refl => exact ⟨r, he⟩
  | tail _ hstep ih => exact ⟨hstep.regular ih.1, hI _ _ ih.1 hstep ih.2⟩

namespace Acts

theorem refl (lic : License τ) (e : Engine τ κ σ) : Acts lic e e :=
  fun _ => .refl

theorem keep {I : Engine τ κ σ → Prop} (ha : Acts lic e e') (r : e.registry.Regular)
    (hI : ∀ e e' : Engine τ κ σ, e.registry.Regular → Step lic e e' → I e → I e') (he : I e) : I e' :=
  (steps_keep (ha r) r hI he).2

theorem regular (ha : Acts lic e e') (r : e.registry.Regular) : e'.registry.Regular :=
  (steps_keep (I := fun _ => True) (ha r) r (fun _ _ _ _ _ => trivial) trivial).1

theorem moves (ha : Acts lic e e') (r : e.registry.Regular) : Engine.Moves lic.toSurroundings e e' :=
  ha.keep r (fun _ _ _ hs hm => hm.trans hs.moves) .refl

/-- Where nothing is handed over, the journal shows no more messages. -/
theorem handedOver (ha : Acts lic e e') (r : e.registry.Regular) (hl : ¬lic.hands) :
    WebServer.handedOver e'.journal = WebServer.handedOver e.journal :=
  ha.keep r (I := fun m => WebServer.handedOver m.journal = WebServer.handedOver e.journal)
    (fun _ _ _ hs hj => (hs.handedOver hl).trans hj) rfl

theorem trans (ha : Acts lic e e') (ha' : Acts lic e' e'') : Acts lic e e'' :=
  fun r => (ha r).trans (ha' (ha.regular r))

theorem of_affects (ha : e.registry.Regular → Affects lic h e e') : Acts lic e e' :=
  fun r => .single (.affects (ha r))

theorem of_aside (ha : Aside lic e e') : Acts lic e e' :=
  fun _ => .single (.aside ha)

/-- Effects on other sessions leave a session alone. -/
theorem frame (ha : Acts lic e e') (r : e.registry.Regular) (hon : ¬lic.on h) : e'.session? h = e.session? h ∧
    ∃ gained, e'.journal = gained ++ e.journal ∧ ∀ entry ∈ gained, entry.handle ≠ h := by
  refine ha.keep r (I := fun m => m.session? h = e.session? h ∧
    ∃ gained, m.journal = gained ++ e.journal ∧ ∀ entry ∈ gained, entry.handle ≠ h) ?_ ⟨rfl, [], rfl, by simp⟩
  rintro m m' - hs ⟨hsession, gained, hj, hg⟩
  rcases hs.on_session h with ⟨hsession', gained', hj', hg'⟩ | haffects
  · refine ⟨hsession'.trans hsession, gained' ++ gained, by rw [hj', hj, List.append_assoc], ?_⟩
    exact List.forall_mem_append.mpr ⟨hg', hg⟩
  · exact absurd haffects.on hon

/-- What a regular engine is known to be may be used to tell what is done to it. -/
theorem of_regular (ha : e.registry.Regular → Acts lic e e') : Acts lic e e' :=
  fun r => ha r r

end Acts

end

end WebServer
