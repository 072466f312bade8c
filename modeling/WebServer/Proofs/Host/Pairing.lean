import WebServer.Proofs.Engine.Coherence
import WebServer.Proofs.Host.Reports
import WebServer.Proofs.Outbound.Operations

/-! # Sessions and their connections

The connections that a host knows are those of the sessions, with the bytes that the queues of these have in flight.
Whatever an engine does by itself keeps this, and so do the events of the sockets once the host has done its part. -/

namespace WebServer

open OutboundQueue (Sequential)

variable {σ : Type}

namespace Host

variable {c c' : Connections} {conn : Nat} {r r' : Registry Nat} {h : Handle} {t : Session Nat}

/-- A connection is known with the bytes that a queue has in flight, which are no more than its send window holds. -/
structure Connections.Carries (c : Connections) (conn : Nat) (queue : OutboundQueue) : Prop where
  sequential : Sequential queue.buffers
  inFlight : c.inFlight? conn = some queue.inFlight
  window : queue.inFlight ≤ c.sendBuffer

/-- Sessions and known connections belong together. -/
structure Paired (c : Connections) (r : Registry Nat) : Prop where
  wellFormed : r.WellFormed
  carries : ∀ t ∈ r.sessions, c.Carries t.conn t.outbound
  known : ∀ conn, (c.inFlight? conn).isSome → ∃ t ∈ r.sessions, t.conn = conn

/-- The connections are as they were, but for one of them. -/
structure Connections.Aside (conn : Nat) (c c' : Connections) : Prop where
  sendBuffer : c'.sendBuffer = c.sendBuffer
  others : ∀ k, k ≠ conn → c'.inFlight? k = c.inFlight? k

theorem Connections.Carries.aside {queue : OutboundQueue} {k : Nat} (hc : c.Carries k queue) (hk : k ≠ conn)
    (a : Connections.Aside conn c c') : c'.Carries k queue :=
  ⟨hc.sequential, (a.others k hk).trans hc.inFlight, a.sendBuffer ▸ hc.window⟩

theorem Connections.Carries.acknowledge {queue : OutboundQueue} (hc : c.Carries conn queue) (count : Nat) :
    (c.acknowledge conn count).Carries conn (queue.acknowledge count).2 := by
  obtain ⟨hsequential, hinFlight⟩ := OutboundQueue.inFlight_acknowledge hc.sequential count
  refine ⟨hsequential, ?_, ?_⟩
  · rw [Connections.acknowledge, Connections.inFlight?_updateLink, if_pos rfl, hc.inFlight, hinFlight]
    rfl
  · rw [hinFlight]
    exact Nat.le_trans (Nat.sub_le _ _) hc.window

theorem Connections.Left.aside (l : c.Left conn c') : Connections.Aside conn c c' :=
  ⟨l.sendBuffer, fun k hk => (l.inFlight? k).trans (if_neg hk)⟩

namespace Paired

theorem inFlight?_eq_none (p : Paired c r) : c.inFlight? conn = none ↔ r.ofConn? conn = none := by
  constructor
  · intro hn
    cases hs : r.ofConn? conn with
    | none => rfl
    | some t =>
        obtain ⟨ht, rfl⟩ := p.wellFormed.ofConn?_eq_some.mp hs
        exact nomatch hn.symm.trans (p.carries t ht).inFlight
  · intro hs
    cases hn : c.inFlight? conn with
    | none => rfl
    | some n =>
        obtain ⟨t, ht, hconn⟩ := p.known conn (by rw [hn]; rfl)
        exact nomatch hs.symm.trans (p.wellFormed.ofConn?_eq_some.mpr ⟨ht, hconn⟩)

/-- What is queued on a session changes together with what is in flight on its connection. -/
theorem update (p : Paired c r) (hs : r.get? h = some t) {f : Session Nat → Session Nat}
    (hh : ∀ t, (f t).handle = t.handle) (hconn : ∀ t, (f t).conn = t.conn)
    (hc : c'.Carries t.conn (f t).outbound) (a : Connections.Aside t.conn c c') : Paired c' (r.update h f) where
  wellFormed := p.wellFormed.update hh hconn
  carries u hu := by
    obtain ⟨v, hv, rfl⟩ := Registry.mem_update.mp hu
    have ht := Registry.mem_of_get? hs
    split
    · rename_i he
      obtain rfl := p.wellFormed.eq_of_handle hv ht (he.trans (Registry.handle_of_get? hs).symm)
      rw [hconn]
      exact hc
    · rename_i hne
      refine (p.carries v hv).aside (fun he => hne ?_) a
      rw [p.wellFormed.eq_of_conn hv ht he, Registry.handle_of_get? hs]
  known k hk := by
    have hsession : ∃ u ∈ r.sessions, u.conn = k := by
      by_cases he : k = t.conn
      · exact ⟨t, Registry.mem_of_get? hs, he.symm⟩
      · exact p.known k (a.others k he ▸ hk)
    obtain ⟨u, hu, rfl⟩ := hsession
    refine ⟨_, Registry.mem_update.mpr ⟨u, hu, rfl⟩, ?_⟩
    split
    · exact hconn u
    · rfl

/-- A session goes together with its connection. -/
theorem remove (p : Paired c r) (hs : r.get? h = some t) (l : c.Left t.conn c') : Paired c' (r.remove h).2 where
  wellFormed := p.wellFormed.remove h
  carries u hu := by
    obtain ⟨hu, hne⟩ := p.wellFormed.mem_remove.mp hu
    refine (p.carries u hu).aside (fun he => hne ?_) l.aside
    rw [p.wellFormed.eq_of_conn hu (Registry.mem_of_get? hs) he, Registry.handle_of_get? hs]
  known k hk := by
    rw [l.inFlight?] at hk
    split at hk
    · cases hk
    · rename_i hne
      obtain ⟨u, hu, rfl⟩ := p.known k hk
      refine ⟨u, p.wellFormed.mem_remove.mpr ⟨hu, fun he => hne ?_⟩, rfl⟩
      rw [p.wellFormed.eq_of_handle hu (Registry.mem_of_get? hs) (he.trans (Registry.handle_of_get? hs).symm)]

/-- A session comes together with its connection. -/
theorem create (p : Paired c r) {now : Nat} (hr : Registry.Registered r c.nextId now h r')
    (hn : c.inFlight? c.nextId = none) : Paired c.register.2 r' where
  wellFormed := hr.wellFormed p.wellFormed
  carries u hu := by
    rcases hr.mem_sessions.mp hu with rfl | hu
    · refine ⟨trivial, ?_, Nat.zero_le _⟩
      rw [Connections.inFlight?_register, Session.accepted, hn, if_pos rfl]
      rfl
    · have hc := p.carries u hu
      refine ⟨hc.sequential, ?_, hc.window⟩
      rw [Connections.inFlight?_register, hc.inFlight, Option.some_or]
  known k hk := by
    rw [Connections.inFlight?_register] at hk
    by_cases he : k = c.nextId
    · exact ⟨_, hr.mem_sessions.mpr (.inl rfl), he.symm⟩
    · rw [if_neg he, Option.or_none] at hk
      obtain ⟨u, hu, hconn⟩ := p.known k hk
      exact ⟨u, hr.mem_sessions.mpr (.inr hu), hconn⟩

/-- Only what is known and in flight matters of the connections, and only what is queued of the sessions. -/
theorem congr (p : Paired c r) (w : r'.WellFormed) (ho : r'.outputs = r.outputs) (hb : c'.sendBuffer = c.sendBuffer)
    (hn : ∀ k, c'.inFlight? k = c.inFlight? k) : Paired c' r' where
  wellFormed := w
  carries u hu := by
    have hm : (u.conn, u.outbound) ∈ r.outputs := ho ▸ List.mem_map_of_mem hu
    obtain ⟨t, ht, he⟩ := List.mem_map.mp hm
    obtain ⟨hconn, hqueue⟩ := Prod.mk.inj he
    have hc := p.carries t ht
    rw [hconn, hqueue] at hc
    exact ⟨hc.sequential, (hn _).trans hc.inFlight, hb ▸ hc.window⟩
  known k hk := by
    obtain ⟨t, ht, rfl⟩ := p.known k (hn k ▸ hk)
    have hm : (t.conn, t.outbound) ∈ r'.outputs := ho ▸ List.mem_map_of_mem ht
    obtain ⟨u, hu, he⟩ := List.mem_map.mp hm
    exact ⟨u, hu, (Prod.mk.inj he).1⟩

/-- A connection that is refused was never known. -/
theorem refuse (p : Paired c r) (hn : c.inFlight? c.nextId = none) : Paired (c.register.2.close c.nextId).2 r := by
  have l := c.register.2.close_left c.nextId
  refine p.congr p.wellFormed rfl l.sendBuffer fun k => ?_
  rw [l.inFlight?, Connections.inFlight?_register]
  split
  · rename_i hk
    rw [hk, hn]
  · rw [Option.or_none]

end Paired

/-! ## Flushing -/

/-- A queue on its way to a connection that carries it. -/
structure Flows (conn : Nat) (c : Connections) (o : Outflow Connections Nat) : Prop where
  carries : o.transport.Carries conn o.queue
  aside : Connections.Aside conn c o.transport

/-- The transport takes a chunk as a whole, or refuses it and the queue takes it back. -/
theorem Flows.offer {o : Outflow Connections Nat} (f : Flows conn c o) (h : Handle) (segment : Nat) :
    Flows conn c (o.offer h conn segment).2 := by
  rw [Outflow.offer]
  split
  · exact f
  · rename_i chunk queue hn
    obtain ⟨hsequential, hle, hinFlight⟩ := OutboundQueue.inFlight_nextChunk f.carries.sequential hn
    obtain ⟨error, hw⟩ | ⟨n, tasks, hknown, hlt, -, hw⟩ := o.transport.write_cases conn chunk
    · have hwrite : Transport.write o.transport conn chunk = (.error error, o.transport) := hw
      rw [hwrite]
      dsimp only
      rw [Outflow.takeBack]
      dsimp only
      rw [OutboundQueue.requeue_nextChunk f.carries.sequential hn]
      exact ⟨f.carries, f.aside⟩
    · obtain rfl := Option.some.inj (hknown.symm.trans f.carries.inFlight)
      have hcapacity : o.transport.capacity conn = o.transport.sendBuffer - o.queue.inFlight := by
        rw [Connections.capacity, hknown]
      have hroom : chunk.length ≤ o.transport.sendBuffer - o.queue.inFlight :=
        hcapacity ▸ Nat.le_trans hle (Nat.min_le_left _ _)
      rw [Nat.min_eq_left hroom] at hw
      have hwrite : Transport.write o.transport conn chunk = _ := hw
      rw [hwrite]
      dsimp only
      rw [if_pos (Nat.le_refl _)]
      refine ⟨⟨hsequential, ?_, ?_⟩, f.aside.sendBuffer, fun k hk => ?_⟩
      · rw [Connections.inFlight?_updateSocket, Connections.inFlight?_updateLink, if_pos rfl, hknown, hinFlight]
        rfl
      · change queue.inFlight ≤ o.transport.sendBuffer
        omega
      · rw [Connections.inFlight?_updateSocket, Connections.inFlight?_updateLink, if_neg hk]
        exact f.aside.others k hk

theorem Flows.offerLoop {o : Outflow Connections Nat} (f : Flows conn c o) (h : Handle) (segment fuel : Nat) :
    Flows conn c (o.offerLoop h conn segment fuel) :=
  Outflow.offerLoop_keep (fun _ f => f.offer h segment) fuel f

end Host

open Host

namespace Engine

variable {e e' : Engine Connections Nat σ} {env : Surroundings Connections}

/-! ## What the engine does -/

theorem flush_paired (p : Paired e.transport e.registry) (h : Handle) :
    Paired (e.flush h).transport (e.flush h).registry := by
  rw [flush]
  split
  · exact p
  · rename_i t hs
    have f : Flows t.conn e.transport { transport := e.transport, queue := t.outbound, journal := e.journal } :=
      ⟨p.carries t (Registry.mem_of_get? hs), rfl, fun _ _ => rfl⟩
    have f' := f.offerLoop h e.config.maxSegmentSize t.outbound.unsent
    exact p.update hs (fun _ => rfl) (fun _ => rfl) f'.carries f'.aside

theorem retire_registry (e : Engine Connections Nat σ) (h : Handle) :
    (e.retire h).registry = (e.registry.remove h).2 := by
  rw [retire]
  split
  · rename_i hr
    rw [hr]
  · rename_i hr
    rw [notify_registry, hr]

theorem forceClose_paired (p : Paired e.transport e.registry) (h : Handle) :
    Paired (e.forceClose h).transport (e.forceClose h).registry := by
  rw [forceClose]
  split
  · exact p
  · rename_i t hs
    rw [retire_transport, retire_registry]
    exact p.remove hs (e.transport.close_left t.conn)

theorem Stride.paired (hs : Stride env e e') (p : Paired e.transport e.registry) :
    Paired e'.transport e'.registry := by
  cases hs with
  | beside hm hb =>
      exact p.congr (hm.wellFormed p.wellFormed) hb.outputs (by rw [hb.transport]) fun _ => by rw [hb.transport]
  | @queued h t data queue hs hq =>
      have hc := p.carries t (Registry.mem_of_get? hs)
      obtain ⟨hsequential, hinFlight⟩ := OutboundQueue.inFlight_enqueue hc.sequential hq
      refine p.update hs (fun _ => rfl) (fun _ => rfl) ⟨hsequential, ?_, ?_⟩ ⟨rfl, fun _ _ => rfl⟩
      · exact hc.inFlight.trans (congrArg some hinFlight.symm)
      · exact Nat.le_trans (Nat.le_of_eq hinFlight) hc.window
  | flushed h => exact flush_paired p h
  | ended h => exact forceClose_paired p h
  | listened port =>
      change Paired (e.transport.listen port).2 e.registry
      rw [Connections.listen]
      split <;> exact p.congr p.wellFormed rfl rfl fun _ => rfl
  | stoppedListening => exact p.congr p.wellFormed rfl rfl fun _ => rfl

theorem Strides.paired (hs : Strides env e e') (p : Paired e.transport e.registry) :
    Paired e'.transport e'.registry := by
  induction hs with
  | refl => exact p
  | tail _ hstride ih => exact hstride.paired ih

/-! ## What the sockets report -/

/-- A connection becomes a session, or is refused and nothing changes. -/
theorem accept_cases (e : Engine Connections Nat σ) (conn : Nat) :
    (∃ h, (e.accept conn).1 = some h ∧ (e.accept conn).2.transport = e.transport ∧
      Registry.Registered e.registry conn e.now h (e.accept conn).2.registry) ∨ e.accept conn = (none, e) := by
  rw [accept]
  split
  · rename_i h registry hc
    refine .inl ⟨h, rfl, notify_transport _ h .opened, ?_⟩
    dsimp only
    rw [notify_registry]
    exact Registry.registered_of_create hc
  · rename_i hc
    obtain rfl := Registry.eq_of_create_error hc
    exact .inr rfl

/-- Bytes that were flushed are acknowledged on both sides. -/
theorem sent_paired (p : Paired e.transport e.registry) (conn count : Nat) :
    let e' := ({ e with transport := e.transport.acknowledge conn count } : Engine Connections Nat σ).sent conn count
    Paired e'.transport e'.registry := by
  intro e'
  obtain ⟨hs, he⟩ | ⟨t, hs, (hstrides : Strides {} _ _)⟩ :=
    sent_cases { e with transport := e.transport.acknowledge conn count } conn count
  · rw [show e' = _ from he]
    dsimp only
    rw [Connections.acknowledge, Connections.updateLink_of_unknown _ (p.inFlight?_eq_none.mpr hs)]
    exact p
  · refine hstrides.paired ?_
    obtain ⟨ht, rfl⟩ := p.wellFormed.ofConn?_eq_some.mp hs
    have hcarries := (p.carries t ht).acknowledge count
    exact p.update (p.wellFormed.get?_of_ofConn? hs) (fun _ => (Session.touchSent_adjusted e.now _).handle)
      (fun _ => (Session.touchSent_adjusted e.now _).conn)
      ((congrArg (Connections.Carries _ _) (Session.touchSent_adjusted e.now _).outbound).mpr hcarries)
      ⟨rfl, fun k hk => (Connections.inFlight?_updateLink ..).trans (if_neg hk)⟩

/-- A broken connection is given up on both sides. -/
theorem failed_paired (p : Paired e.transport e.registry) (conn : Nat) :
    let e' := ({ e with transport := e.transport.forget conn } : Engine Connections Nat σ).failed conn
    Paired e'.transport e'.registry := by
  dsimp only
  rw [failed]
  split
  · rename_i hh
    dsimp only at hh ⊢
    have hs := p.wellFormed.handleOf?_eq_none.mp hh
    rw [Connections.forget_of_unknown _ (p.inFlight?_eq_none.mpr hs)]
    exact p
  · rename_i h hh
    dsimp only at hh
    obtain ⟨t, ht, rfl, rfl⟩ := p.wellFormed.handleOf?_eq_some.mp hh
    rw [retire_transport, retire_registry]
    exact p.remove (p.wellFormed.get?_eq_some.mpr ⟨ht, rfl⟩) (e.transport.forget_left t.conn)

end Engine
end WebServer
