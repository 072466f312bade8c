import WebServer.Proofs.Engine.Room
import WebServer.Proofs.Server.Deeds
import WebServer.Transport.InMemory

/-! # Output while there is room

No session waits with unsent bytes while its connection has room, whatever was queued on it and by whom. -/

namespace WebServer

variable {τ κ σ : Type} [DecidableEq κ] [Transport τ κ] {P : τ → Prop}

/-- Among the live connections, room is made only for one whose bytes are acknowledged next. -/
inductive Gentle (P : τ → Prop) : Engine τ κ σ → List (Deed τ κ σ) → Prop where
  | nil (e : Engine τ κ σ) : Gentle P e []
  | cons {e : Engine τ κ σ} {d : Deed τ κ σ} {ds : List (Deed τ κ σ)}
      (hd : ∀ transport, d = .call (.setTransport transport) → P transport ∧
        ∀ t ∈ e.registry.sessions, Transport.capacity transport t.conn ≤ Transport.capacity e.transport t.conn)
      (hds : Gentle P (d.act e) ds) : Gentle P e (d :: ds)
  | acknowledged {e : Engine τ κ σ} {transport : τ} {conn : κ} {count : Nat} {ds : List (Deed τ κ σ)}
      (ht : P transport)
      (hroom : ∀ t ∈ e.registry.sessions, t.conn ≠ conn →
        Transport.capacity transport t.conn ≤ Transport.capacity e.transport t.conn)
      (hds : Gentle P (Engine.sent { e with transport } conn count) ds) :
      Gentle P e (.call (.setTransport transport) :: .call (.sent conn count) :: ds)

section

variable (k : Transport.Ample P) {e : Engine τ κ σ}
include k

namespace Engine

theorem conclude_spent (s : e.Spent P) (h : Handle) (reply : Reply) :
    (Server.conclude h reply { engine := e }).engine.Spent P := by
  rw [Server.conclude]
  dsimp only
  split
  · exact s
  · split
    · split
      · exact s
      · exact replyAndClose_spent k s _ _
    · split
      · exact flush_spent k (s.of_spent _)
      · exact beginClose_spent k (s.of_spent _)

end Engine

/-- Every deed leaves all sessions spent, as long as the surroundings make no room. -/
theorem Deed.spent {d : Deed τ κ σ} (s : e.Spent P)
    (hd : ∀ transport, d = .call (.setTransport transport) → P transport ∧
      ∀ t ∈ e.registry.sessions, Transport.capacity transport t.conn ≤ Transport.capacity e.transport t.conn) :
    (d.act e).Spent P := by
  cases d with
  | call c => exact Engine.perform_spent k s c fun transport hc => hd transport (congrArg Deed.call hc)
  | received h data =>
      exact s.update (fun _ => Session.touch_handle ..) (fun _ => Session.touch_conn ..) fun _ => Session.touch_outbound ..
  | took h => exact Engine.next_spent k s h
  | handed h m =>
      cases m with
      | request | text | binary => exact s.congr rfl rfl rfl
      | wait | again => exact s
  | concluded h reply => exact Engine.conclude_spent k s h reply

namespace Engine

/-- Room that was made for one connection is used when its bytes are acknowledged. -/
theorem acknowledged_spent (s : e.Spent P) {transport : τ} (ht : P transport) {conn : κ}
    (hroom : ∀ t ∈ e.registry.sessions, t.conn ≠ conn →
      Transport.capacity transport t.conn ≤ Transport.capacity e.transport t.conn)
    (count : Nat) : (sent { e with transport } conn count).Spent P := by
  have hother : ∀ t ∈ e.registry.sessions, t.conn ≠ conn → t.Spent transport := fun t hmem hne =>
    (s.spent t hmem (by simp)).of_le (hroom t hmem hne)
  refine sent_spent k (fun t hc => ?_) (fun hc => ?_) count
  · refine ⟨ht, s.segment, s.wellFormed, fun u hu hne => hother u hu ?_⟩
    obtain ⟨hmem, hconn⟩ := s.wellFormed.ofConn?_eq_some.mp hc
    rintro rfl
    exact hne (congrArg (fun t => some t.handle) (s.wellFormed.eq_of_conn hu hmem hconn.symm))
  · refine ⟨ht, s.segment, s.wellFormed, fun u hu _ => hother u hu ?_⟩
    rintro rfl
    have hfound := s.wellFormed.ofConn?_eq_some.mpr ⟨hu, rfl⟩
    cases hc.symm.trans hfound

theorem after_spent {ds : List (Deed τ κ σ)} (hg : Gentle P e ds) (s : e.Spent P) : (e.after ds).Spent P := by
  induction hg with
  | nil => exact s
  | cons hd _ ih => exact ih (Deed.spent k s hd)
  | acknowledged ht hroom _ ih => exact ih (acknowledged_spent k s ht hroom _)

end Engine

/-- After every operation of a run, and after everything that handlers do meanwhile, every session has no unsent bytes
or no room. -/
theorem Server.spent_of_course {config : Config} (hsegment : 0 < config.maxSegmentSize) {transport : τ}
    (ht : P transport) {app : σ} {ds : List (Deed τ κ σ)} {s : Server τ κ σ}
    (hc : Course (fun _ _ => True) (new config transport app) ds s) :
    (Gentle P (new config transport app).engine ds → ∀ t ∈ s.engine.registry.sessions, t.Spent s.engine.transport) ∧
      ∀ past, past <+: ds → Gentle P (new config transport app).engine past →
        let e := (new config transport app).engine.after past
        ∀ t ∈ e.registry.sessions, t.Spent e.transport := by
  have hstart : (new config transport app).engine.Spent P :=
    ⟨ht, hsegment, Registry.wellFormed_new _, by simp [new, Engine.new, Registry.new]⟩
  have hafter : ∀ past, Gentle P (new config transport app).engine past →
      let e := (new config transport app).engine.after past
      ∀ t ∈ e.registry.sessions, t.Spent e.transport := fun past hg t ht =>
    (Engine.after_spent k hg hstart).spent t ht (by simp)
  refine ⟨fun hg => ?_, fun past _ hg => hafter past hg⟩
  rw [hc.engine]
  exact hafter ds hg

end

/-- Room for four bytes, six bytes that are sent in pieces of at most three, and an acknowledgement of the first four. -/
theorem Server.spent_of_acknowledged_window :
    let config : Config := { maxSegmentSize := 3 }
    let full : Transport.MemoryLink := { written := [1, 2, 3, 4], unacknowledged := 4, writes := 2 }
    let drained : Transport.InMemory Nat := { window := 4, links := [(7, { full with unacknowledged := 0 })] }
    let operations : List (Operation (Transport.InMemory Nat) Nat Unit) :=
      [.call (.accept 7), .call (.send .first [1, 2, 3, 4, 5, 6]), .call (.setTransport drained), .call (.sent 7 4)]
    let start : Server (Transport.InMemory Nat) Nat Unit := new config { window := 4 } ()
    let s := operations.foldl apply start
    0 < config.maxSegmentSize ∧ Gentle (fun t => t.failingWrites = 0) start.engine (deedsOf operations start) ∧
      (∀ t ∈ s.engine.registry.sessions, t.Spent s.engine.transport) ∧
      (s.engine.transport.link 7).written = [1, 2, 3, 4, 5, 6] := by
  intro config full drained operations start s
  have hsegment : 0 < config.maxSegmentSize := by decide
  have hcourse : Course (fun _ _ => True) start (deedsOf operations start) s := course_deedsOf fun _ _ _ => trivial
  have hgentle : Gentle (fun t => t.failingWrites = 0) start.engine (deedsOf operations start) := by
    have hdeeds : deedsOf operations start = [.call (.accept 7), .call (.send .first [1, 2, 3, 4, 5, 6]),
        .call (.setTransport drained), .call (.sent 7 4)] := rfl
    have htransport : (Deed.act (.call (.send .first [1, 2, 3, 4, 5, 6]))
        (Deed.act (.call (.accept 7)) start.engine)).transport = { window := 4, links := [(7, full)] } := by
      decide +kernel
    rw [hdeeds]
    refine .cons nofun (.cons nofun (.acknowledged rfl ?_ (.nil _)))
    rw [htransport]
    intro t _ hne
    simp [Transport.capacity, drained, Transport.InMemory.room, Transport.InMemory.link, hne.symm]
  exact ⟨hsegment, hgentle, (spent_of_course Transport.InMemory.ample hsegment rfl hcourse).1 hgentle, by decide⟩

end WebServer
