import WebServer.Proofs.Output.Custody
import WebServer.Proofs.Server.Runs

/-! # Delivery

Whatever happens to a server, the bytes that a transport takes from a session are the first of those that were
queued on it, none twice and none left out. -/

namespace WebServer

open Transport (Recording)
open Transport.Recording (taken)

variable {τ κ σ : Type} [DecidableEq κ] [Transport τ κ] [Recording τ κ]

/-- Nothing that a transport does by itself changes what it has taken. -/
def Surroundings.recording (τ : Type) {κ : Type} [Transport τ κ] [Recording τ κ] : Surroundings τ where
  drift transport transport' := taken transport' = taken transport

/-- The engine, its sessions and its transport agree on every byte. -/
structure Engine.Faithful (start : κ → Bytes) (e : Engine τ κ σ) : Prop where
  wellFormed : e.registry.WellFormed
  custody : ∀ t ∈ e.registry.sessions, Custody t.handle t.outbound e.journal
  inOrder : InOrder e.journal
  recorded : Recorded start e.transport e.journal
  own : ∀ t ∈ e.registry.sessions, OwnsConn t.handle t.conn e.journal

namespace Engine.Faithful

variable {start : κ → Bytes} {e : Engine τ κ σ}

theorem of_new (config : Config) (transport : τ) (app : σ) :
    (Engine.new config transport app : Engine τ κ σ).Faithful (taken transport) where
  wellFormed := Registry.wellFormed_new _
  custody := by simp [Engine.new, Registry.new]
  inOrder := .nil
  recorded conn := by simp [Engine.new, takenOver]
  own := by simp [Engine.new, Registry.new]

/-- A change of sessions that the journal need not show. -/
theorem update (f : e.Faithful start) (h : Handle) {change : Session κ → Session κ}
    (hh : ∀ t, (change t).handle = t.handle) (hc : ∀ t, (change t).conn = t.conn)
    (hq : ∀ t, Custody t.handle t.outbound e.journal → Custody t.handle (change t).outbound e.journal) :
    (e.update h change).Faithful start where
  wellFormed := f.wellFormed.update hh hc
  custody t ht := by
    obtain ⟨u, hu, rfl⟩ := Registry.mem_update.mp ht
    have c := f.custody u hu
    split
    · rw [hh]
      exact hq u c
    · exact c
  inOrder := f.inOrder
  recorded := f.recorded
  own t ht := by
    obtain ⟨u, hu, rfl⟩ := Registry.mem_update.mp ht
    have o := f.own u hu
    split
    · rw [hh, hc]
      exact o
    · exact o

/-- An entry that no session is concerned with. -/
theorem record (f : e.Faithful start) {entry : Entry κ} (ha : ∀ h, entry.Apart h)
    (hc : ∀ conn, entry.takenOver conn = []) (hkept : ∀ h rest error, entry ≠ .lost h rest error) :
    (e.record entry).Faithful start where
  wellFormed := f.wellFormed
  custody t ht := (f.custody t ht).cons_apart (ha t.handle)
  inOrder := f.inOrder.cons (fun h => by
    rw [takenFrom_cons_apart (ha h), queuedOn_cons_apart (ha h)]
    exact f.inOrder.taken_prefix_queued e.journal (List.suffix_refl _) h) hkept
  recorded conn := by
    rw [Engine.record, takenOver_cons, hc, List.append_nil]
    exact f.recorded conn
  own t ht := (f.own t ht).cons (ha t.handle).begins ((hc t.conn).trans (ha t.handle).takenFrom.symm)

theorem withTransport (f : e.Faithful start) {transport : τ} (ht : taken transport = taken e.transport) :
    Engine.Faithful start { e with transport } where
  wellFormed := f.wellFormed
  custody := f.custody
  inOrder := f.inOrder
  recorded conn := by
    rw [ht]
    exact f.recorded conn
  own := f.own

/-! ## The moves -/

theorem accepted (f : e.Faithful start) {conn : κ} {h : Handle} {registry : Registry κ}
    (hr : Registry.Registered e.registry conn e.now h registry) :
    Engine.Faithful start ({ e with registry }.record (.accepted h conn)) := by
  have hother : ∀ t ∈ e.registry.sessions, (Entry.accepted h conn).Apart t.handle := fun t ht =>
    Entry.apart_accepted (Registry.get?_eq_none.mp hr.handle_free t ht).symm conn
  refine ⟨hr.wellFormed f.wellFormed, fun t ht => ?_, ?_, fun c => ?_, fun t ht => ?_⟩
  · rcases hr.mem_sessions.mp ht with rfl | ht
    · exact .accepted h conn e.journal
    · exact (f.custody t ht).cons_apart (hother t ht)
  · exact f.inOrder.cons_custody (.accepted h conn e.journal)
      (fun _ hne => Entry.apart_accepted hne conn) fun _ _ _ he => by simp at he
  · rw [Engine.record, takenOver_cons, show (Entry.accepted h conn).takenOver c = [] from rfl, List.append_nil]
    exact f.recorded c
  · rcases hr.mem_sessions.mp ht with rfl | ht
    · exact .accepted h conn conn e.journal
    · exact (f.own t ht).cons (hother t ht).begins rfl

/-- Queueing and writing on one session, as the journal shows it. -/
theorem exchange (f : e.Faithful start) {h : Handle} {t : Session κ} (hs : e.session? h = some t)
    {queue : OutboundQueue} {transport : τ} {journal : List (Entry κ)}
    (hg : GrownBy h t.conn e.journal journal) (c : Custody h queue journal) (ho : InOrder journal)
    (hr : Recorded start transport journal) :
    Engine.Faithful start { e with
      transport, journal, registry := e.registry.update h fun u => { u with outbound := queue } } := by
  have ht := Registry.mem_of_get? hs
  have hh := Registry.handle_of_get? hs
  refine ⟨f.wellFormed.update (fun _ => rfl) fun _ => rfl, fun u hu => ?_, ho, hr, fun u hu => ?_⟩
  · obtain ⟨v, hv, rfl⟩ := Registry.mem_update.mp hu
    split
    · rename_i he
      exact he ▸ c
    · rename_i hne
      exact (f.custody v hv).grown_other (Ne.symm hne) hg
  · obtain ⟨v, hv, rfl⟩ := Registry.mem_update.mp hu
    have o := f.own v hv
    split
    · rename_i he
      have hvt : v = t := f.wellFormed.eq_of_handle hv ht (he.trans hh.symm)
      subst hvt
      exact o.grown_self (hh ▸ hg)
    · rename_i hne
      have hconn : t.conn ≠ v.conn := fun hc =>
        hne (by rw [← f.wellFormed.eq_of_conn ht hv hc, hh])
      exact o.grown_other (Ne.symm hne) hconn hg

theorem queued (f : e.Faithful start) {h : Handle} {t : Session κ} {data : Bytes} {queue : OutboundQueue}
    (hs : e.session? h = some t) (hq : t.outbound.enqueue data = .ok queue) :
    ((e.record (.queued h data)).update h fun t => { t with outbound := queue }).Faithful start := by
  have hh := Registry.handle_of_get? hs
  have c : Custody h queue (.queued h data :: e.journal) :=
    (hh ▸ f.custody t (Registry.mem_of_get? hs)).queued hq
  refine f.exchange hs (.more (Entry.concerns_queued h t.conn data) .same) c ?_ fun conn => ?_
  · exact f.inOrder.cons_custody c (fun _ hne => Entry.apart_queued hne data) fun _ _ _ he => by simp at he
  · change _ = _ ++ takenOver conn (.queued h data :: e.journal)
    rw [takenOver_cons, show (Entry.queued h data).takenOver conn = [] from rfl, List.append_nil]
    exact f.recorded conn

theorem flushed (f : e.Faithful start) (h : Handle) : (e.flush h).Faithful start := by
  rw [Engine.flush]
  split
  · exact f
  · rename_i t hs
    have hh := Registry.handle_of_get? hs
    have ho : Outflow.Faithful start h ⟨e.transport, t.outbound, e.journal⟩ :=
      ⟨hh ▸ f.custody t (Registry.mem_of_get? hs), f.inOrder, f.recorded⟩
    obtain ⟨ho', hg⟩ := ho.offerLoop (.same : GrownBy h t.conn _ _) e.config.maxSegmentSize t.outbound.unsent
    exact f.exchange hs hg ho'.custody ho'.inOrder ho'.recorded

theorem removed (f : e.Faithful start) (h : Handle) :
    Engine.Faithful start { e with registry := (e.registry.remove h).2 } where
  wellFormed := f.wellFormed.remove h
  custody t ht := f.custody t (f.wellFormed.mem_remove.mp ht).1
  inOrder := f.inOrder
  recorded := f.recorded
  own t ht := f.own t (f.wellFormed.mem_remove.mp ht).1

theorem move (f : e.Faithful start) {e' : Engine τ κ σ} (hm : Move (.recording τ) e e') : e'.Faithful start := by
  cases hm with
  | accepted _ hr => exact f.accepted hr
  | adjusted h hf =>
      exact f.update h (fun t => (hf t).handle) (fun t => (hf t).conn) fun t c => (hf t).outbound ▸ c
  | received h | took h | upgraded h => exact f.update h (fun _ => rfl) (fun _ => rfl) fun _ c => c
  | queued hs hq => exact f.queued hs hq
  | acknowledged h count => exact f.update h (fun _ => rfl) (fun _ => rfl) fun _ c => c.acknowledged count
  | flushed h => exact f.flushed h
  | hungUp hs =>
      exact (f.withTransport (Recording.taken_close _ _)).record (fun _ => ⟨rfl, rfl, rfl⟩) (fun _ => rfl)
        fun _ _ _ he => by simp at he
  | removed h => exact f.removed h
  | noted hn =>
      rename_i entry
      cases entry with
      | request | text | binary =>
          exact f.record (fun _ => ⟨rfl, rfl, rfl⟩) (fun _ => rfl) fun _ _ _ he => by simp at he
      | accepted | queued | wrote | lost | closed | notice => exact hn.elim
  | @told h n watch hw =>
      have hnoted : (e.record (.notice h n)).Faithful start :=
        f.record (fun _ => ⟨rfl, rfl, rfl⟩) (fun _ => rfl) fun _ _ _ he => by simp at he
      exact ⟨hnoted.wellFormed, hnoted.custody, hnoted.inOrder, hnoted.recorded, hnoted.own⟩
  | listened port => exact f.withTransport (Recording.taken_listen _ _)
  | stoppedListening => exact f.withTransport (Recording.taken_stopListening _)
  | drifted hd => exact f.withTransport hd
  | advanced => exact ⟨f.wellFormed, f.custody, f.inOrder, f.recorded, f.own⟩
  | arranged hr ht hj =>
      exact ⟨hr ▸ f.wellFormed, hr ▸ hj ▸ f.custody, hj ▸ f.inOrder, ht ▸ hj ▸ f.recorded, hr ▸ hj ▸ f.own⟩

theorem moves (f : e.Faithful start) {e' : Engine τ κ σ} (hm : Moves (.recording τ) e e') :
    e'.Faithful start :=
  hm.keep (fun _ _ hmove f => f.move hmove) f

end Engine.Faithful

/-! ## Runs -/

/-- Programs that leave the transport to the server. -/
def Permit.leavesTransport (τ κ σ : Type) : Permit τ κ σ where
  call c := ∀ transport, c ≠ .setTransport transport
  reenter := True

/-- An operation that installs handlers that leave the transport to the server, or any other operation; whatever
happens to the transport from outside, what it has taken stays taken. -/
def Operation.KeepsRecord (s : Server τ κ σ) (o : Operation τ κ σ) : Prop :=
  o.Installs (.leavesTransport τ κ σ) ∧
    ∀ transport, o = .call (.setTransport transport) → taken transport = taken s.engine.transport

/-- An engine that started on the transport `start` delivers what is queued on its sessions. -/
structure Engine.Delivers (start : τ) (e : Engine τ κ σ) : Prop where
  /-- At every moment, the bytes taken from a session are the first of the bytes queued on it. -/
  taken_prefix_queued : ∀ past, past <:+ e.journal → ∀ h, takenFrom h past <+: (queuedOn h past).flatten
  /-- The queue of a session holds the buffers queued on it that are not released. -/
  contents : ∀ t ∈ e.registry.sessions,
    t.outbound.buffers.map OutboundBuffer.data = (queuedOn t.handle e.journal).drop t.outbound.released
  /-- As many bytes are taken as the queue counts as sent, in the buffers released and in those it holds. -/
  taken_length : ∀ t ∈ e.registry.sessions, (takenFrom t.handle e.journal).length =
    ((queuedOn t.handle e.journal).take t.outbound.released).flatten.length +
      OutboundQueue.total OutboundBuffer.sent t.outbound.buffers
  /-- No queue has refused to take bytes back. -/
  kept : ∀ h rest error, .lost h rest error ∉ e.journal
  /-- What the journal shows is what the transport took. -/
  recorded : ∀ conn, taken e.transport conn = taken start conn ++ takenOver conn e.journal
  /-- Since a session began, its connection has carried the bytes of this session only. -/
  own : ∀ t ∈ e.registry.sessions, takenOver t.conn (since t.handle e.journal) = takenFrom t.handle e.journal

theorem Engine.Faithful.delivers {transport : τ} {e : Engine τ κ σ} (f : e.Faithful (taken transport)) :
    e.Delivers transport where
  taken_prefix_queued := f.inOrder.taken_prefix_queued
  contents t ht := (f.custody t ht).sound.contents
  taken_length t ht := (f.custody t ht).sent_eq.symm
  kept := f.inOrder.kept
  recorded := f.recorded
  own t ht := (f.own t ht).takenOver_since

/-- Whatever happens to a new server, in whatever order, what is queued on its sessions is delivered: no byte is
lost, sent twice or out of order, and no queue ever refuses to take bytes back. -/
theorem Server.delivers_of_reaches {config : Config} {transport : τ} {app : σ} {s : Server τ κ σ}
    (hr : Reaches Operation.KeepsRecord (new config transport app) s) : s.engine.Delivers transport := by
  have hl : Leads (.recording τ) (.leavesTransport τ κ σ) (new config transport app) s := by
    refine hr.leads trivial trivial trivial (fun e c hc => ?_) (Handlers.within_none _) fun s o ho => ⟨ho.1, fun c hc => ?_⟩
    · cases c with
      | setTransport transport => exact absurd rfl (hc transport)
      | _ => trivial
    · cases c with
      | setTransport transport => exact ho.2 transport hc
      | _ => trivial
  exact ((Engine.Faithful.of_new config transport app).moves hl.moves).delivers

/-- A write that fails, one that takes nothing, one that takes two bytes, and one that takes the rest. -/
theorem Server.delivers_over_faulty_transport :
    let start : Transport.Faulty Nat := { memory := { failingWrites := 1 }, writeLimits := [7, 0, 2] }
    let operations : List (Operation (Transport.Faulty Nat) Nat Unit) :=
      [.call (.accept 7), .call (.send .first [1, 2, 3, 4, 5]), .call .poll, .call .poll, .call (.sent 7 1),
        .call .poll]
    let s := operations.foldl apply (new {} start ())
    s.engine.Delivers start ∧ taken s.engine.transport 7 = [1, 2, 3, 4, 5] ∧
      s.engine.registry.sessions.map Session.outbound = [⟨[⟨[1, 2, 3, 4, 5], 5, 1⟩], 0⟩] := by
  refine ⟨delivers_of_reaches (reaches_foldl .start ?_), by decide, by decide⟩
  simp [Operation.KeepsRecord, Operation.Installs]

end WebServer
