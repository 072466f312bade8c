import WebServer.Proofs.Engine.Acts

/-! # Polls

A poll ends the sessions that were idle for too long or take too long to close, queues a closing frame on the
WebSocket sessions that were idle for too long, and leaves all others as they are. -/

namespace WebServer

variable {τ κ σ : Type}

namespace Session

/-- An HTTP session that was idle for too long, or a session that takes too long to close. -/
def Overdue (config : Config) (now : Nat) (t : Session κ) : Prop :=
  (t.isEnding = false ∧ t.mode = .http ∧ ∃ limit, config.httpIdleLimit = some limit ∧ limit < now - t.lastActivity) ∨
    (t.isEnding = true ∧ ∃ limit, config.closeWaitLimit = some limit ∧ limit < now - t.lastActivity)

/-- A WebSocket session that was idle for too long. -/
def Stale (config : Config) (now : Nat) (t : Session κ) : Prop :=
  t.isEnding = false ∧ t.mode = .webSocket ∧
    ∃ limit, config.webSocketIdleLimit = some limit ∧ limit < now - t.lastActivity

end Session

namespace IdleAction

variable {t : Session κ} {config : Config} {now : Nat}

theorem exceeds_iff {elapsed : Nat} {limit? : Option Nat} :
    exceeds elapsed limit? = true ↔ ∃ limit, limit? = some limit ∧ limit < elapsed := by
  cases limit? <;> simp [exceeds]

theorem decide_eq_forceClose : IdleAction.decide t config now = .forceClose ↔ t.Overdue config now := by
  rw [IdleAction.decide, Session.Overdue, ← exceeds_iff, ← exceeds_iff]
  cases t.isEnding <;> cases t.mode <;> simp [apply_ite (· = forceClose)]

theorem decide_eq_sendClose : IdleAction.decide t config now = .sendClose ↔ t.Stale config now := by
  rw [IdleAction.decide, Session.Stale, ← exceeds_iff]
  cases t.isEnding <;> cases t.mode <;> simp [apply_ite (· = sendClose)]

end IdleAction

/-- The closing frame of a session that was idle for too long. -/
def idleFrame : Bytes :=
  WebSocket.encode .close (WebSocket.closePayload .goingAway "idle") none

namespace Session

variable {t : Session κ} {config : Config} {now : Nat}

theorem Overdue.not_stale (o : t.Overdue config now) : ¬t.Stale config now := fun s =>
  nomatch (IdleAction.decide_eq_forceClose.mpr o).symm.trans (IdleAction.decide_eq_sendClose.mpr s)

/-- What a session has queued does not matter to a poll. -/
theorem decide_withOutbound (t : Session κ) (queue : OutboundQueue) (config : Config) (now : Nat) :
    IdleAction.decide { t with outbound := queue } config now = IdleAction.decide t config now :=
  rfl

end Session

namespace Engine

variable [DecidableEq κ] [Transport τ κ] {e e' : Engine τ κ σ} {h : Handle} {t : Session κ}

/-- What a poll makes of the session `h`, which was `t`. -/
structure Polled (e : Engine τ κ σ) (h : Handle) (t : Session κ) (e' : Engine τ κ σ) : Prop where
  /-- It goes if it is overdue. -/
  gone : e'.session? h = none ↔ t.Overdue e.config e.now
  /-- If it is stale, its closing frame is queued, and nothing else. -/
  stale : t.Stale e.config e.now → queuedOn h e'.journal = queuedOn h e.journal ++ [idleFrame] ∧
    ∃ queue, e'.session? h = some { t with outbound := queue, closeSent := true, lastActivity := e.now }
  /-- Otherwise nothing is queued, and it stays as it is if it stays. -/
  kept : ¬t.Stale e.config e.now → queuedOn h e'.journal = queuedOn h e.journal ∧
    ∀ u, e'.session? h = some u → ∃ queue, u = { t with outbound := queue }

omit [DecidableEq κ] [Transport τ κ] in
theorem Polled.congr {m m' : Engine τ κ σ} (p : Polled m h t m') (hc : m.config = e.config) (hn : m.now = e.now)
    (hq : queuedOn h m.journal = queuedOn h e.journal) (hs' : e'.session? h = m'.session? h)
    (hq' : queuedOn h e'.journal = queuedOn h m'.journal) : Polled e h t e' where
  gone := by
    rw [hs', ← hc, ← hn]
    exact p.gone
  stale := by
    rw [hs', hq', ← hc, ← hn, ← hq]
    exact p.stale
  kept := by
    rw [hs', hq', ← hc, ← hn, ← hq]
    exact p.kept

/-- The end of a session is no output. -/
theorem forceClose_queuedOn (w : e.registry.WellFormed) (hs : e.session? h = some t) :
    queuedOn h (e.forceClose h).journal = queuedOn h e.journal := by
  rw [(forceClose_spec w hs).journal, List.append_assoc, queuedOn_append_silent silent_of_mem_heard]
  exact queuedOn_append_silent (by simp [Entry.Silent, Entry.begins, Entry.queuedOn]) _

omit [DecidableEq κ] [Transport τ κ] in
theorem noteIdle_queuedOn (e : Engine τ κ σ) (h : Handle) (idle : Bool) :
    queuedOn h (e.noteIdle h idle).journal = queuedOn h e.journal := by
  rw [noteIdle_journal]
  refine queuedOn_append_silent ?_ _
  cases idle with
  | true => exact silent_of_mem_heard
  | false => simp

omit [DecidableEq κ] in
/-- A flush changes the queue of its session and nothing else of it, and queues nothing. -/
theorem flush_quiet (hs : e.session? h = some t) : ∃ queue, queue.buffers.length = t.outbound.buffers.length ∧
    (e.flush h).session? h = some { t with outbound := queue } ∧
    queuedOn h (e.flush h).journal = queuedOn h e.journal := by
  obtain ⟨queue, offers, hlen, hoffers, hsession, -, hj⟩ := flush_spec hs
  exact ⟨queue, hlen, hsession, hj ▸ queuedOn_append_silent (fun entry hm => (hoffers entry hm).silent) _⟩

/-- A poll of one session, after its output was pushed. -/
theorem pollSession_polled (r : e.registry.Regular) (hs : e.session? h = some t) : Polled e h t (e.pollSession h) := by
  obtain ⟨queue, hlen, hsession, hqueued⟩ := flush_quiet hs
  obtain ⟨hconfig, hclock⟩ := flush_settings e h
  have hnow : (e.flush h).now = e.now := congrArg Clock.millis hclock
  have hpushed : Moves {} e (e.flush h) := flush_moves e h
  have w := hpushed.wellFormed r.wellFormed
  rw [pollSession]
  dsimp only
  generalize e.flush h = m at *
  rw [hsession]
  dsimp only
  rw [Session.decide_withOutbound, hconfig, hnow]
  cases hd : IdleAction.decide t e.config e.now with
  | keep =>
      have hoverdue : ¬t.Overdue e.config e.now := by simp [← IdleAction.decide_eq_forceClose, hd]
      have hstale : ¬t.Stale e.config e.now := by simp [← IdleAction.decide_eq_sendClose, hd]
      dsimp only
      rw [finishClose_of_settled hsession ((r.at hs).settled.of_length rfl hlen)]
      refine ⟨by simp [hsession, hoverdue], fun h => absurd h hstale, fun _ => ⟨hqueued, fun u hu => ⟨queue, ?_⟩⟩⟩
      exact Option.some.inj (hu.symm.trans hsession)
  | sendClose =>
      have hstale := IdleAction.decide_eq_sendClose.mp hd
      have hflags := Session.flags_of_open hstale.1
      have hidle : (m.noteIdle h true).session? h = some { t with outbound := queue } := by
        rw [noteIdle_session?, hsession]
      obtain ⟨queue', -, hsend⟩ := sendClose_of_open hidle hflags.1 .goingAway "idle"
      have hclose := queueClose_session? hidle idleFrame queue'
      obtain ⟨queue'', -, hflushed, hqueued'⟩ := flush_quiet hclose
      rw [noteIdle_now, hnow] at hflushed
      have hjournal : queuedOn h ((m.noteIdle h true).queueClose h idleFrame queue').journal =
          queuedOn h e.journal ++ [idleFrame] := by
        rw [← hqueued, ← noteIdle_queuedOn m h true]
        exact queuedOn_queued h idleFrame _
      change Polled e h t (((m.noteIdle h true).sendClose h .goingAway "idle").finishClose h)
      rw [hsend, ← idleFrame, finishClose_of_settled hflushed (Session.settled_of_open hflags.2)]
      refine ⟨?_, fun _ => ⟨hqueued'.trans hjournal, queue'', hflushed⟩, fun h => absurd hstale h⟩
      exact ⟨fun hnone => absurd (hnone.symm.trans hflushed) (Option.some_ne_none _).symm, fun o => absurd hstale o.not_stale⟩
  | forceClose =>
      have hoverdue := IdleAction.decide_eq_forceClose.mp hd
      have hidle (idle : Bool) : (m.noteIdle h idle).session? h = some { t with outbound := queue } := by
        rw [noteIdle_session?, hsession]
      have w' (idle : Bool) : (m.noteIdle h idle).registry.WellFormed := by
        have hnoted : Moves {} m (m.noteIdle h idle) := noteIdle_moves m h idle
        exact hnoted.wellFormed w
      have hend : (if t.isEnding then m else m.notify h .idle) = m.noteIdle h !t.isEnding := by
        cases t.isEnding <;> rfl
      have hgone := (forceClose_spec (w' !t.isEnding) (hidle _)).session
      change Polled e h t ((if t.isEnding then m else m.notify h .idle).forceClose h)
      rw [hend]
      refine ⟨by simp [hgone, hoverdue], fun h => absurd h hoverdue.not_stale, fun _ => ⟨?_, fun u hu => ?_⟩⟩
      · rw [forceClose_queuedOn (w' _) (hidle _), noteIdle_queuedOn, hqueued]
      · exact absurd (hu.symm.trans hgone) (Option.some_ne_none u)

/-- Polls of other sessions matter neither to a session nor to what a poll makes of it. -/
theorem foldl_pollSession_frame {hs : List Handle} (hh : h ∉ hs) (r : e.registry.Regular) :
    let e' := hs.foldl pollSession e
    e'.registry.Regular ∧ e'.session? h = e.session? h ∧ queuedOn h e'.journal = queuedOn h e.journal ∧
      e'.config = e.config ∧ e'.now = e.now := by
  have hacts : Acts { forces := True, on := (· ∈ hs) } e (hs.foldl pollSession e) :=
    foldl_acts (fun _ _ hg => pollSession_acts hg trivial) e
  obtain ⟨hsession, gained, hj, hgained⟩ := hacts.frame r hh
  refine ⟨hacts.regular r, hsession, ?_, (hacts.moves r).config, (hacts.moves r).now.resolve_left id⟩
  rw [hj]
  exact queuedOn_append_silent (fun entry hm => Entry.silent_of_handle (hgained entry hm)) _

/-- A poll of all sessions is a poll of each. -/
theorem poll_polled (r : e.registry.Regular) (hs : e.session? h = some t) : Polled e h t e.poll := by
  have hmem : h ∈ e.registry.liveHandles :=
    List.mem_map.mpr ⟨t, Registry.mem_of_get? hs, Registry.handle_of_get? hs⟩
  have hnodup : e.registry.liveHandles.Nodup := r.wellFormed.handles_nodup
  obtain ⟨before, behind, hlist⟩ := List.append_of_mem hmem
  rw [hlist, List.nodup_append, List.nodup_cons] at hnodup
  have hbefore : h ∉ before := fun hm => hnodup.2.2 h hm h List.mem_cons_self rfl
  rw [poll, hlist, List.foldl_append, List.foldl_cons]
  obtain ⟨r₁, hs₁, hq₁, hc₁, hn₁⟩ := foldl_pollSession_frame hbefore r
  generalize before.foldl pollSession e = e₁ at *
  have hpoll := pollSession_polled r₁ (hs₁.trans hs)
  have hacts : Acts { forces := True } e₁ (e₁.pollSession h) := pollSession_acts trivial trivial
  have r₂ := hacts.regular r₁
  obtain ⟨-, hs₃, hq₃, -, -⟩ := foldl_pollSession_frame hnodup.2.1.1 r₂
  exact hpoll.congr hc₁ hn₁ hq₁ hs₃ hq₃

end Engine

end WebServer
