import WebServer.Proofs.Output.Delivery
import WebServer.Proofs.Server.Timeouts

/-! # Draining

Unless its connection is gone, the server stops or its time is up, the connection of a session is closed only when the
transport has taken all that was queued on the session, and has acknowledged it. -/

namespace WebServer

open Transport (Recording)
open Transport.Recording (taken)

variable {τ κ σ : Type} [DecidableEq κ] [Transport τ κ]

/-! ## How sessions end -/

/-- The deeds that end a session whatever is still queued on it. -/
def Deed.CutsShort (h : Handle) (t : Session κ) (e : Engine τ κ σ) (d : Deed τ κ σ) : Prop :=
  d = .call (.remoteClosed t.conn) ∨ d = .call (.failed t.conn) ∨ d = .call .stop ∨
    d.Polls h e ∧ t.Overdue e.config e.now

/-- The connection of the session `h` was closed while the engine was `m`, and nothing was queued on the session any
more. -/
structure HungUp (env : Surroundings τ) (h : Handle) (conn : κ) (e m e' : Engine τ κ σ) : Prop where
  before : Engine.Moves env e m
  session : ∃ u, m.session? h = some u ∧ u.conn = conn ∧ u.outbound.buffers = []
  after : Engine.Moves env (m.forceClose h) e'

variable {e : Engine τ κ σ} {d : Deed τ κ σ} {h : Handle} {t : Session κ}

/-- What ends sessions by force cuts short those that it ends. -/
theorem Deed.cutsShort_of_forces (r : e.registry.Regular) (hs : e.session? h = some t)
    (hgone : (d.act e).session? h = none) (hf : (d.license e).forces) (hon : (d.license e).on h) :
    d.CutsShort h t e := by
  have hpolls (hd : d.Polls h e) : d.CutsShort h t e :=
    .inr (.inr (.inr ⟨hd, (hd.polled r hs).gone.mp hgone⟩))
  cases d with
  | call c =>
      cases c with
      | remoteClosed conn =>
          obtain ⟨u, hu, rfl, hh⟩ := r.wellFormed.handleOf?_eq_some.mp hon
          have ht := Registry.mem_of_get? hs
          rw [r.wellFormed.eq_of_handle hu ht (hh.trans (Registry.handle_of_get? hs).symm)]
          exact .inl rfl
      | pollConn conn => exact hpolls hon
      | poll => exact hpolls trivial
      | stop => exact .inr (.inr (.inl rfl))
      | _ => exact hf.elim
  | received | took | handed | concluded => exact hf.elim

/-- Every other deed that ends a session closes its connection when its queue is empty. -/
theorem Deed.hungUp (r : e.registry.Regular) (hs : e.session? h = some t) (hgone : (d.act e).session? h = none)
    (hcut : ¬d.CutsShort h t e) : ∃ m, HungUp (d.license e).toSurroundings h t.conn e m (d.act e) := by
  have hkept := (d.acts e).keep r (I := fun m => Engine.Moves (d.license e).toSurroundings e m ∧
    ((∃ u, m.session? h = some u ∧ u.conn = t.conn) ∨ ∃ m₀, HungUp (d.license e).toSurroundings h t.conn e m₀ m))
    ?_ ⟨.refl, .inl ⟨t, hs, rfl⟩⟩
  · rcases hkept.2 with ⟨u, hu, -⟩ | hhung
    · exact nomatch hgone.symm.trans hu
    · exact hhung
  rintro m m' - hstep ⟨hm, ⟨u, hu, hconn⟩ | ⟨m₀, hhung⟩⟩
  · refine ⟨hm.trans hstep.moves, ?_⟩
    rcases hstep.on_session h with ⟨hsame, -⟩ | ha
    · exact .inl ⟨u, hsame.trans hu, hconn⟩
    · cases hu' : m'.session? h with
      | some v =>
          obtain ⟨gained, -, heff⟩ := ha.effect
          rw [hu'] at heff
          rcases heff.conn with ⟨w, hw, hvw⟩ | ⟨hnone, -⟩
          · cases Option.some.inj (hu.symm.trans hw)
            exact .inl ⟨v, rfl, hvw.trans hconn⟩
          · exact nomatch hnone.symm.trans hu
      | none =>
          rcases ha.left u hu hu' with hdrops | hforces | ⟨m₀, v, hm₀, hv, hvc, -, hempty, rfl⟩
          · exact absurd (.inr (.inl (Deed.eq_failed_of_drops r.wellFormed hs hdrops ha.on))) hcut
          · exact absurd (Deed.cutsShort_of_forces r hs hgone hforces ha.on) hcut
          · exact .inr ⟨m₀, hm.trans hm₀, ⟨v, hv, hvc.trans hconn, hempty⟩, .refl⟩
  · exact ⟨hm.trans hstep.moves, .inr ⟨m₀, hhung.before, hhung.session, hhung.after.trans hstep.moves⟩⟩

/-! ## What the transport has by then -/

section

variable [Recording τ κ]

/-- A call that leaves what the transport has taken. -/
def Call.KeepsTaken (e : Engine τ κ σ) (c : Call τ κ σ) : Prop :=
  ∀ transport, c = .setTransport transport → taken transport = taken e.transport

/-- A deed that leaves what the transport has taken. -/
def Deed.KeepsTaken : Engine τ κ σ → Deed τ κ σ → Prop :=
  Deed.Keeps Call.KeepsTaken fun _ _ => True

theorem Deed.recording_moves (r : e.registry.Regular) (hd : d.KeepsTaken e) :
    Engine.Moves (.recording τ) e (d.act e) := by
  by_cases hset : ∃ transport, d = .call (.setTransport transport)
  · obtain ⟨transport, rfl⟩ := hset
    exact .single (.drifted (hd transport rfl))
  · exact ((d.acts e).moves r).relax fun t t' hdrift =>
      (Deed.not_drift (fun transport he => hset ⟨transport, he⟩) t t' hdrift).elim

/-- At every moment of a run, the engine, its sessions and its transport agree on every byte. -/
theorem Engine.Faithful.after {start : κ → Bytes} (f : e.Faithful start) (r : e.registry.Regular)
    {ds : List (Deed τ κ σ)} (hds : Deed.All (fun e d => d.KeepsTaken e) e ds) : (e.after ds).Faithful start := by
  induction ds generalizing e with
  | nil => exact f
  | cons d ds ih => exact ih (f.moves (Deed.recording_moves r hds.1)) ((d.acts e).regular r) hds.2

end

end WebServer
