import WebServer.Proofs.Engine.Acts

/-! # Sending

What queueing a buffer and offering it make of an engine as a whole: one session, the journal and the transport are all
that changes, and an operation that is refused changes nothing. -/

namespace WebServer

variable {τ κ σ : Type}

section

variable [Transport τ κ]

/-- The transport `t'` is `t` after it was asked to write on the connection. -/
def Transport.WritesTo (conn : κ) (t t' : τ) : Prop :=
  ∃ chunk, t' = (Transport.write t conn chunk).2

/-- A transport that writes on a connection have led to from `start`. -/
abbrev Transport.Written (conn : κ) (start t : τ) : Prop :=
  Relation.ReflTransGen (Transport.WritesTo conn) start t

theorem Outflow.offer_written {start : τ} {conn : κ} {o : Outflow τ κ} (hw : Transport.Written conn start o.transport)
    (h : Handle) (segment : Nat) : Transport.Written conn start (o.offer h conn segment).2.transport := by
  rcases offer_transport h conn segment o with hsame | hwrite
  · rwa [hsame]
  · exact hw.tail hwrite

theorem Outflow.offerLoop_written (h : Handle) (conn : κ) (segment fuel : Nat) (o : Outflow τ κ) :
    Transport.Written conn o.transport (o.offerLoop h conn segment fuel).transport :=
  offerLoop_keep (I := fun o' => Transport.Written conn o.transport o'.transport)
    (fun _ hw => offer_written hw h segment) fuel .refl

end

/-- The queue when a buffer was put behind the others. -/
def OutboundQueue.append (q : OutboundQueue) (data : Bytes) : OutboundQueue :=
  { q with buffers := q.buffers ++ [⟨data, 0, 0⟩] }

theorem OutboundQueue.SameContents.ne_nil {q q' : OutboundQueue} {data : Bytes} (h : (q.append data).SameContents q') :
    q'.buffers ≠ [] := by
  have hlength := h.length_eq
  rw [append, List.length_append, List.length_singleton] at hlength
  rw [← List.length_pos_iff]
  omega

namespace Engine

variable {e m e' : Engine τ κ σ} {h : Handle} {t u : Session κ} {data : Bytes}

theorem notify_update (e : Engine τ κ σ) (h g : Handle) (n : Notice) (f : Session κ → Session κ) :
    (e.update h f).notify g n = (e.notify g n).update h f := by
  obtain ⟨_, _, _, _, _, _, watcher, _⟩ := e
  cases watcher <;> rfl

variable [Transport τ κ]

/-- The engine `e'` came from `m` by making a session `u`, and by offering to the transport what it has queued. -/
structure Flushes (m : Engine τ κ σ) (h : Handle) (u : Session κ) (e' : Engine τ κ σ) : Prop where
  session : ∃ queue, u.outbound.SameContents queue ∧ e'.session? h = some { u with outbound := queue }
  others : ∀ g, g ≠ h → e'.session? g = m.session? g
  registry : ∃ f, e'.registry = m.registry.update h f
  journal : Grown (Entry.Offers h u.conn) m.journal e'.journal
  transport : Transport.Written u.conn m.transport e'.transport
  rest : e' = { m with registry := e'.registry, transport := e'.transport, journal := e'.journal }

theorem flush_flushes (hs : m.session? h = some t) : Flushes m h t (m.flush h) := by
  let o : Outflow τ κ := { transport := m.transport, queue := t.outbound, journal := m.journal }
  have hgrown := flush_grown hs
  rw [flush, hs] at hgrown ⊢
  refine ⟨⟨(o.drain h t.conn m.config.maxSegmentSize).queue, o.offerLoop_contents .., ?_⟩, fun g hg => ?_, ⟨_, rfl⟩,
    hgrown, o.offerLoop_written .., rfl⟩
  · refine update_session?_of_some hs ?_
    exact fun _ => rfl
  · refine update_session?_of_ne ?_ hg
    exact fun _ => rfl

/-- Another change of the session before does not show. -/
theorem Flushes.of_update {f : Session κ → Session κ} (hf : ∀ t, (f t).handle = t.handle)
    (hu : Flushes (m.update h f) h u e') : Flushes m h u e' := by
  obtain ⟨g, hg⟩ := hu.registry
  have htwice := congrArg Engine.registry (update_update m (h := h) (g := g) hf)
  exact ⟨hu.session, fun k hk => (hu.others k hk).trans (update_session?_of_ne hf hk), ⟨_, hg.trans htwice⟩, hu.journal,
    hu.transport, hu.rest⟩

/-- A session that is changed and then flushed. -/
theorem flush_update (hs : m.session? h = some t) {f : Session κ → Session κ} (hf : ∀ t, (f t).handle = t.handle) :
    Flushes m h (f t) ((m.update h f).flush h) :=
  (flush_flushes (update_session?_of_some hs hf)).of_update hf

/-! ## The application sends -/

/-- What a send of `data` on the session `h` comes to. -/
inductive Sends (e : Engine τ κ σ) (h : Handle) (data : Bytes) : Except ServerError Unit × Engine τ κ σ → Prop where
  | notFound (hs : e.session? h = none) : Sends e h data (.error (.handleNotFound h), e)
  | closing {t : Session κ} (hs : e.session? h = some t) (hc : t.acceptsOutput = false) :
      Sends e h data (.error (.sessionClosing h), e)
  | empty {t : Session κ} (hs : e.session? h = some t) (ho : t.acceptsOutput = true) (hd : data = []) :
      Sends e h data (.error (.outbound .empty), e)
  | queued {t : Session κ} {e' : Engine τ κ σ} (hs : e.session? h = some t) (ho : t.acceptsOutput = true)
      (hd : data ≠ []) (hf : Flushes (e.record (.queued h data)) h { t with outbound := t.outbound.append data } e') :
      Sends e h data (.ok (), e')

theorem send_sends [DecidableEq κ] (e : Engine τ κ σ) (h : Handle) (data : Bytes) : Sends e h data (e.send h data) := by
  rw [send]
  cases hs : e.session? h with
  | none => exact .notFound hs
  | some t =>
      dsimp only
      cases ho : t.acceptsOutput with
      | false => exact .closing hs ho
      | true =>
          by_cases hd : data = []
          · subst hd
            rw [enqueue, hs]
            exact .empty hs ho rfl
          · rw [enqueue_of_session hs hd]
            exact .queued hs ho hd (flush_update (m := e.record (.queued h data))
              (f := fun u => { u with outbound := t.outbound.append data }) hs fun _ => rfl)

end Engine
end WebServer
