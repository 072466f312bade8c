import Mathlib.Logic.Relation
import WebServer.Engine.Call
import WebServer.Engine.Inbound
import WebServer.Proofs.Output.Flush
import WebServer.Proofs.Registry.WellFormed

/-! # Moves of an engine

Every operation of an engine is a chain of moves, each of which touches one thing: a session, a queue, the journal
or the transport. What all moves keep, all operations keep. -/

namespace WebServer

/-- What may happen around an engine. -/
structure Surroundings (τ : Type) where
  /-- How the transport may change by itself. -/
  drift : τ → τ → Prop := fun _ _ => True
  accepts : Prop := True
  /-- Whether sessions change to the WebSocket protocol. -/
  upgrades : Prop := True
  receives : Prop := True
  /-- Whether messages are taken off the bytes received. -/
  takes : Prop := True
  advances : Prop := True
  /-- Whether the application is exchanged, or watches in another way than before. -/
  arranges : Prop := True

/-- An entry about a message that is given to a handler. -/
def Entry.IsNote {κ : Type} : Entry κ → Prop
  | .request .. | .text .. | .binary .. => True
  | _ => False

/-- A session whose queue takes an acknowledgement. -/
def Session.acknowledge {κ : Type} (count : Nat) (t : Session κ) : Session κ :=
  { t with outbound := (t.outbound.acknowledge count).2 }

/-- A session that is ending, or was active at the given time. -/
def Session.Fresh {κ : Type} (now : Nat) (t : Session κ) : Prop :=
  t.isEnding = true ∨ t.lastActivity = now

/-- A change of a session that leaves alone who it is, its protocol and what it has queued. Bytes received are
forgotten only by closing, and closing is for ever. -/
structure Session.Adjusted {κ : Type} (now : Nat) (t u : Session κ) : Prop where
  handle : u.handle = t.handle
  conn : u.conn = t.conn
  outbound : u.outbound = t.outbound
  mode : u.mode = t.mode
  closing : t.closing = true → u.closing = true
  inbound : u.inbound = t.inbound ∨ u.closing = true ∧ u.inbound = []
  fresh : t.Fresh now → u.Fresh now

theorem Session.touchSent_adjusted {κ : Type} (now : Nat) (t : Session κ) : Session.Adjusted now t (t.touchSent now) := by
  rw [Session.touchSent]
  split
  · exact ⟨rfl, rfl, rfl, rfl, id, .inl rfl, id⟩
  · exact ⟨rfl, rfl, rfl, rfl, id, .inl rfl, fun _ => .inr rfl⟩

section

variable {κ : Type} (now : Nat) (t : Session κ)

@[simp] theorem Session.touch_handle : (t.touch now).handle = t.handle := by
  rw [touch]
  split <;> rfl

@[simp] theorem Session.touch_conn : (t.touch now).conn = t.conn := by
  rw [touch]
  split <;> rfl

@[simp] theorem Session.touch_mode : (t.touch now).mode = t.mode := by
  rw [touch]
  split <;> rfl

@[simp] theorem Session.touch_closing : (t.touch now).closing = t.closing := by
  rw [touch]
  split <;> rfl

@[simp] theorem Session.touch_inbound : (t.touch now).inbound = t.inbound := by
  rw [touch]
  split <;> rfl

@[simp] theorem Session.touch_outbound : (t.touch now).outbound = t.outbound := by
  rw [touch]
  split <;> rfl

end

theorem Session.touch_fresh {κ : Type} (now : Nat) (t : Session κ) : (t.touch now).Fresh now := by
  rw [Session.touch]
  split
  · exact .inl ‹_›
  · exact .inr rfl

theorem Session.touch_of_fresh {κ : Type} {now : Nat} {t : Session κ} (hf : t.Fresh now) : t.touch now = t := by
  rw [Session.touch]
  split
  · rfl
  · rcases hf with hending | hnow
    · exact absurd hending ‹_›
    · rw [← hnow]

theorem Session.touch_adjusted {κ : Type} (now : Nat) (t : Session κ) : Session.Adjusted now t (t.touch now) := by
  rw [Session.touch]
  split
  · exact ⟨rfl, rfl, rfl, rfl, id, .inl rfl, id⟩
  · exact ⟨rfl, rfl, rfl, rfl, id, .inl rfl, fun _ => .inr rfl⟩

/-- A session that goes on, as far as the surroundings let it change. -/
structure Session.Continues {τ κ : Type} (env : Surroundings τ) (now : Nat) (t u : Session κ) : Prop where
  handle : u.handle = t.handle
  conn : u.conn = t.conn
  mode : u.mode = t.mode ∨ env.upgrades ∧ u.mode = .webSocket
  closing : t.closing = true → u.closing = true
  /-- What it has received is still there. -/
  inbound : env.takes ∨ env.receives ∨ u.closing = true ∨ u.inbound = t.inbound
  /-- What it has received is taken off from the front. -/
  suffix : env.receives ∨ u.inbound <:+ t.inbound
  fresh : env.advances ∨ (t.Fresh now → u.Fresh now)

namespace Session.Continues

variable {τ κ : Type} {env : Surroundings τ} {now : Nat} {t u v : Session κ}

theorem refl (env : Surroundings τ) (now : Nat) (t : Session κ) : Continues env now t t :=
  ⟨rfl, rfl, .inl rfl, id, .inr (.inr (.inr rfl)), .inr (List.suffix_refl _), .inr id⟩

theorem trans (h : Continues env now t u) (h' : Continues env now u v) : Continues env now t v where
  handle := h'.handle.trans h.handle
  conn := h'.conn.trans h.conn
  mode := by
    rcases h'.mode with hm | hm
    · exact hm ▸ h.mode
    · exact .inr hm
  closing hc := h'.closing (h.closing hc)
  inbound := by
    rcases h'.inbound with ht | hr | hc | he
    · exact .inl ht
    · exact .inr (.inl hr)
    · exact .inr (.inr (.inl hc))
    · rcases h.inbound with ht | hr | hc | he'
      · exact .inl ht
      · exact .inr (.inl hr)
      · exact .inr (.inr (.inl (h'.closing hc)))
      · exact .inr (.inr (.inr (he.trans he')))
  suffix := by
    rcases h.suffix, h'.suffix with ⟨hr | hs, hr' | hs'⟩
    · exact .inl hr
    · exact .inl hr
    · exact .inl hr'
    · exact .inr (hs'.trans hs)
  fresh := by
    rcases h.fresh, h'.fresh with ⟨ha | hf, ha' | hf'⟩
    · exact .inl ha
    · exact .inl ha
    · exact .inl ha'
    · exact .inr fun ht => hf' (hf ht)

theorem of_adjusted (h : Session.Adjusted now t u) : Continues env now t u where
  handle := h.handle
  conn := h.conn
  mode := .inl h.mode
  closing := h.closing
  inbound := by
    rcases h.inbound with he | ⟨hc, -⟩
    · exact .inr (.inr (.inr he))
    · exact .inr (.inr (.inl hc))
  suffix := by
    rcases h.inbound with he | ⟨-, he⟩
    · exact .inr (he ▸ List.suffix_refl _)
    · exact .inr (he ▸ List.nil_suffix)
  fresh := .inr h.fresh

theorem withOutbound (env : Surroundings τ) (now : Nat) (t : Session κ) (queue : OutboundQueue) :
    Continues env now t { t with outbound := queue } :=
  ⟨rfl, rfl, .inl rfl, id, .inr (.inr (.inr rfl)), .inr (List.suffix_refl _), .inr id⟩

end Session.Continues

namespace Engine

variable {τ κ σ : Type} [DecidableEq κ] [Transport τ κ]

inductive Move (env : Surroundings τ) (e : Engine τ κ σ) : Engine τ κ σ → Prop where
  | accepted {conn : κ} {h : Handle} {registry : Registry κ} (ha : env.accepts)
      (hr : Registry.Registered e.registry conn e.now h registry) :
      Move env e ({ e with registry }.record (.accepted h conn))
  | adjusted (h : Handle) {f : Session κ → Session κ} (hf : ∀ t, Session.Adjusted e.now t (f t)) :
      Move env e (e.update h f)
  | received (h : Handle) (data : Bytes) (hr : env.receives) :
      Move env e (e.update h fun t => { t with inbound := t.inbound ++ data })
  | took (h : Handle) {count : Session κ → Nat} (ht : env.takes) :
      Move env e (e.update h fun t => { t with inbound := t.inbound.drop (count t) })
  | upgraded (h : Handle) (hu : env.upgrades) : Move env e (e.update h fun t => { t with mode := .webSocket })
  | queued {h : Handle} {t : Session κ} {data : Bytes} {queue : OutboundQueue}
      (hs : e.session? h = some t) (hq : t.outbound.enqueue data = .ok queue) :
      Move env e ((e.record (.queued h data)).update h fun t => { t with outbound := queue })
  | acknowledged (h : Handle) (count : Nat) :
      Move env e (e.update h (.acknowledge count))
  | flushed (h : Handle) : Move env e (e.flush h)
  | hungUp {h : Handle} {t : Session κ} (hs : e.session? h = some t) :
      Move env e ({ e with transport := (Transport.close e.transport t.conn).2 }.record (.closed h t.conn))
  | removed (h : Handle) : Move env e { e with registry := (e.registry.remove h).2 }
  | noted {entry : Entry κ} (hn : entry.IsNote) : Move env e (e.record entry)
  /-- A notice is entered, and the application is told. -/
  | told {h : Handle} {n : Notice} {watch : Handle → Notice → σ → σ} (hw : e.watcher = some watch) :
      Move env e { e.record (.notice h n) with app := watch h n e.app }
  | listened (port : Nat) : Move env e { e with transport := (Transport.listen e.transport port).2 }
  | stoppedListening : Move env e { e with transport := Transport.stopListening e.transport }
  | drifted {transport : τ} (hd : env.drift e.transport transport) : Move env e { e with transport }
  | advanced (millis : Nat) (ha : env.advances) : Move env e { e with clock := e.clock.advance millis }
  /-- What the application is and whether the engine listens is not the concern of the other moves. -/
  | arranged {e' : Engine τ κ σ} (hr : e'.registry = e.registry) (ht : e'.transport = e.transport)
      (hj : e'.journal = e.journal) (hc : e'.config = e.config) (hn : e'.clock = e.clock)
      (ha : env.arranges ∨ e'.app = e.app ∧ e'.watcher = e.watcher) : Move env e e'

/-- A chain of moves. -/
abbrev Moves (env : Surroundings τ) : Engine τ κ σ → Engine τ κ σ → Prop :=
  Relation.ReflTransGen (Move env)

/-- What every move keeps, a chain of moves keeps. -/
theorem Moves.keep {env : Surroundings τ} {I : Engine τ κ σ → Prop}
    (hI : ∀ e e', Move env e e' → I e → I e') {e e' : Engine τ κ σ} (hm : Moves env e e') (he : I e) :
    I e' := by
  induction hm with
  | refl => exact he
  | tail _ hmove ih => exact hI _ _ hmove ih

variable {env : Surroundings τ}

omit [DecidableEq κ] [Transport τ κ] in
theorem update_update (e : Engine τ κ σ) {h : Handle} {f g : Session κ → Session κ}
    (hf : ∀ t, (f t).handle = t.handle) : (e.update h f).update h g = e.update h fun t => g (f t) := by
  simp only [update, Registry.update, List.map_map]
  congr 3
  funext t
  by_cases ht : t.handle = h <;> simp [ht, hf]

/-! ## Sessions -/

theorem Move.wellFormed {e e' : Engine τ κ σ} (hm : Move env e e') (w : e.registry.WellFormed) :
    e'.registry.WellFormed := by
  cases hm with
  | accepted _ hr => exact hr.wellFormed w
  | adjusted h hf => exact w.update (fun t => (hf t).handle) fun t => (hf t).conn
  | received | took | upgraded | queued | acknowledged => exact w.update (fun _ => rfl) fun _ => rfl
  | flushed h =>
      cases hs : e.session? h with
      | none => exact (flush_of_none hs).symm ▸ w
      | some t =>
          obtain ⟨queue, -, hr⟩ := flush_registry hs
          exact hr ▸ w.update (fun _ => rfl) fun _ => rfl
  | removed h => exact w.remove h
  | hungUp | noted | told | listened | stoppedListening | drifted | advanced => exact w
  | arranged hr => exact hr ▸ w

theorem Moves.wellFormed {e e' : Engine τ κ σ} (hm : Moves env e e') (w : e.registry.WellFormed) :
    e'.registry.WellFormed :=
  hm.keep (fun _ _ hmove w => hmove.wellFormed w) w

omit [DecidableEq κ] in
theorem flush_settings (e : Engine τ κ σ) (h : Handle) :
    (e.flush h).config = e.config ∧ (e.flush h).clock = e.clock := by
  rw [flush]
  split <;> exact ⟨rfl, rfl⟩

theorem Move.config {e e' : Engine τ κ σ} (hm : Move env e e') : e'.config = e.config := by
  cases hm with
  | flushed h => exact (flush_settings e h).1
  | arranged _ _ _ hc => exact hc
  | _ => rfl

theorem Moves.config {e e' : Engine τ κ σ} (hm : Moves env e e') : e'.config = e.config :=
  hm.keep (fun _ _ hmove hc => hmove.config.trans hc) rfl

theorem Move.now {e e' : Engine τ κ σ} (hm : Move env e e') : env.advances ∨ e'.now = e.now := by
  cases hm with
  | flushed h => exact .inr (congrArg Clock.millis (flush_settings e h).2)
  | advanced _ ha => exact .inl ha
  | arranged _ _ _ _ hn => exact .inr (congrArg Clock.millis hn)
  | _ => exact .inr rfl

theorem Moves.now {e e' : Engine τ κ σ} (hm : Moves env e e') : env.advances ∨ e'.now = e.now := by
  refine hm.keep (I := fun e' => env.advances ∨ e'.now = e.now) (fun e₁ e₂ hmove hn => ?_) (.inr rfl)
  rcases hmove.now, hn with ⟨ha | hn, ha' | hn'⟩
  · exact .inl ha
  · exact .inl ha
  · exact .inl ha'
  · exact .inr (hn.trans hn')

omit [DecidableEq κ] [Transport τ κ] in
theorem continues_update {e : Engine τ κ σ} {h : Handle} {f : Session κ → Session κ} {u : Session κ}
    (hu : u ∈ (e.registry.update h f).sessions) (hf : ∀ t, Session.Continues env e.now t (f t)) :
    ∃ t ∈ e.registry.sessions, Session.Continues env e.now t u := by
  obtain ⟨t, ht, rfl⟩ := Registry.mem_update.mp hu
  refine ⟨t, ht, ?_⟩
  split
  · exact hf t
  · exact .refl env e.now t

/-- Where no connection is accepted, every session was there before. -/
theorem Move.continues {e e' : Engine τ κ σ} (hm : Move env e e') (ha : ¬env.accepts)
    (w : e.registry.WellFormed) {u : Session κ} (hu : u ∈ e'.registry.sessions) :
    ∃ t ∈ e.registry.sessions, Session.Continues env e.now t u := by
  cases hm with
  | accepted hacc => exact absurd hacc ha
  | adjusted h hf => exact continues_update hu fun t => .of_adjusted (hf t)
  | received h data hr =>
      exact continues_update hu fun _ => ⟨rfl, rfl, .inl rfl, id, .inr (.inl hr), .inl hr, .inr id⟩
  | took h ht =>
      exact continues_update hu fun _ =>
        ⟨rfl, rfl, .inl rfl, id, .inl ht, .inr (List.drop_suffix _ _), .inr id⟩
  | upgraded h hup =>
      exact continues_update hu fun _ =>
        ⟨rfl, rfl, .inr ⟨hup, rfl⟩, id, .inr (.inr (.inr rfl)), .inr (List.suffix_refl _), .inr id⟩
  | queued | acknowledged => exact continues_update hu fun t => .withOutbound env e.now t _
  | flushed h =>
      cases hs : e.session? h with
      | none => exact ⟨u, flush_of_none hs ▸ hu, .refl env e.now u⟩
      | some t =>
          obtain ⟨queue, -, hr⟩ := flush_registry hs
          rw [hr] at hu
          exact continues_update hu fun t => .withOutbound env e.now t queue
  | removed h => exact ⟨u, (w.mem_remove.mp hu).1, .refl env e.now u⟩
  | hungUp | noted | told | listened | stoppedListening | drifted | advanced => exact ⟨u, hu, .refl env e.now u⟩
  | arranged hr => exact ⟨u, hr ▸ hu, .refl env e.now u⟩

theorem Moves.continues {e e' : Engine τ κ σ} (hm : Moves env e e') (ha : ¬env.accepts)
    (w : e.registry.WellFormed) {u : Session κ} (hu : u ∈ e'.registry.sessions) :
    ∃ t ∈ e.registry.sessions, Session.Continues env e.now t u := by
  induction hm generalizing u with
  | refl => exact ⟨u, hu, .refl env e.now u⟩
  | tail hms hmove ih =>
      obtain ⟨v, hv, hc⟩ := hmove.continues ha (Moves.wellFormed hms w) hu
      obtain ⟨t, ht, hc'⟩ := ih hv
      refine ⟨t, ht, hc'.trans ?_⟩
      rcases Moves.now hms with hadv | hnow
      · exact ⟨hc.handle, hc.conn, hc.mode, hc.closing, hc.inbound, hc.suffix, .inl hadv⟩
      · exact hnow ▸ hc

/-- Where no connection is accepted, the session with a handle goes on, if it is still there. -/
theorem Moves.at {e e' : Engine τ κ σ} (hm : Moves env e e') (ha : ¬env.accepts) (w : e.registry.WellFormed)
    {h : Handle} {P Q : Session κ → Prop} (a : e.registry.At h P)
    (hPQ : ∀ t u, Session.Continues env e.now t u → P t → Q u) : e'.registry.At h Q := by
  intro u hu
  obtain ⟨t, ht, hc⟩ := hm.continues ha w (Registry.mem_of_get? hu)
  exact hPQ t u hc (a.of_mem w ht (hc.handle.symm.trans (Registry.handle_of_get? hu)))

theorem adjusted_moves (e : Engine τ κ σ) (h : Handle) {f : Session κ → Session κ}
    (hf : ∀ t, Session.Adjusted e.now t (f t)) : Moves env e (e.update h f) :=
  .single (.adjusted h hf)

theorem notify_moves (e : Engine τ κ σ) (h : Handle) (n : Notice) : Moves env e (e.notify h n) := by
  rw [notify]
  split
  · exact .refl
  · exact .single (.told ‹_›)

theorem accept_moves (ha : env.accepts) (e : Engine τ κ σ) (conn : κ) :
    Moves env e (e.accept conn).2 := by
  rw [accept]
  split
  · rename_i hc
    exact .head (.accepted ha (Registry.registered_of_create hc)) (notify_moves _ _ _)
  · rename_i hc
    rw [Registry.eq_of_create_error hc]

theorem flush_moves (e : Engine τ κ σ) (h : Handle) : Moves env e (e.flush h) :=
  .single (.flushed h)

theorem retire_moves (e : Engine τ κ σ) (h : Handle) : Moves env e (e.retire h) := by
  have hr : Move env e { e with registry := (e.registry.remove h).2 } := .removed h
  rw [retire]
  split
  · rename_i he
    rw [he] at hr
    exact .single hr
  · rename_i he
    rw [he] at hr
    exact .head hr (notify_moves _ _ _)

theorem forceClose_moves (e : Engine τ κ σ) (h : Handle) : Moves env e (e.forceClose h) := by
  rw [forceClose]
  split
  · exact .refl
  · rename_i t hs
    exact .head (.hungUp hs) (retire_moves _ _)

end Engine
end WebServer
