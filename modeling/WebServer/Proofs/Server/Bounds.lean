import WebServer.Proofs.Inbound.Fragments
import WebServer.Proofs.Server.Chunking
import WebServer.Proofs.Server.Moments

/-! # What a server holds of what it receives

Once bytes have been dealt with, no session holds a complete message, and none holds more than its limit. The rounds in
which messages are taken off come to an end, because every round takes off a byte at least and none gives one back. -/

namespace WebServer

variable {τ κ σ : Type}

section

variable [DecidableEq κ] [Transport τ κ]

omit [DecidableEq κ] [Transport τ κ] in
theorem Surroundings.still_allows (e : Engine τ κ σ) {c : Call τ κ σ} (hc : ∀ conn, c ≠ .accept conn) :
    Engine.Allows (.still τ) e c := by
  cases c with
  | accept conn => exact absurd rfl (hc conn)
  | _ => trivial

namespace Server

/-! ## Rounds -/

/-- Messages of a session are taken off and handed over, until none is complete. -/
inductive Rounds (run : Runner τ κ σ) (h : Handle) : Server τ κ σ → Server τ κ σ → Prop where
  | last {s : Server τ κ σ} {engine : Engine τ κ σ} (hn : s.engine.next h = (.wait, engine)) :
      Rounds run h s { s with engine }
  | round {s s' : Server τ κ σ} {d : Delivery} {engine : Engine τ κ σ} (hd : d ≠ .wait)
      (hn : s.engine.next h = (d, engine)) (took : engine.pending h < s.engine.pending h)
      (kept : (handOver run h d { s with engine }).engine.pending h ≤ engine.pending h)
      (hr : Rounds run h (handOver run h d { s with engine }) s') : Rounds run h s s'

/-- The rounds end in one way. -/
theorem Rounds.eq {run : Runner τ κ σ} {h : Handle} {s s' s'' : Server τ κ σ} (hr : Rounds run h s s')
    (hr' : Rounds run h s s'') : s' = s'' := by
  induction hr with
  | last hn =>
      cases hr' with
      | last hn' => rw [(Prod.mk.inj (hn.symm.trans hn')).2]
      | round hd hn' => exact absurd (Prod.mk.inj (hn'.symm.trans hn)).1 hd
  | round hd hn _ _ _ ih =>
      cases hr' with
      | last hn' => exact absurd (Prod.mk.inj (hn.symm.trans hn')).1 hd
      | round hd' hn' _ _ hr' =>
          obtain ⟨rfl, rfl⟩ := Prod.mk.inj (hn.symm.trans hn')
          exact ih hr'

/-- Handlers that make calls put nothing in front of the next message. -/
theorem runBy_leads_still (receive : κ → Bytes → Server τ κ σ → Nat × Server τ κ σ) (program : Program τ κ σ)
    (s : Server τ κ σ) (hprogram : program.Within (.applicationCalls τ κ σ))
    (hs : s.handlers.Within (.applicationCalls τ κ σ)) :
    Leads (.still τ) (.applicationCalls τ κ σ) s (runBy receive program s).2 :=
  runBy_leads (fun e _ hc => Surroundings.still_allows e hc) (fun hr => False.elim hr) program s hprogram hs

section

variable {run : Runner τ κ σ} {h : Handle} {s s' : Server τ κ σ} {limit : Nat}
  (hleads : ∀ program s, program.Within (.applicationCalls τ κ σ) → s.handlers.Within (.applicationCalls τ κ σ) →
    Leads (.still τ) (.applicationCalls τ κ σ) s (run program s).2)
include hleads

/-- The loop makes all rounds, if it may make one more than there are bytes. -/
theorem rounds_dispatchLoop (hs : s.handlers.Within (.applicationCalls τ κ σ)) (w : s.engine.registry.WellFormed)
    {fuel : Nat} (hf : s.engine.pending h < fuel) : Rounds run h s (dispatchLoop run h fuel s) := by
  induction fuel generalizing s with
  | zero => exact absurd hf (Nat.not_lt_zero _)
  | succ fuel ih =>
      cases hn : s.engine.next h with
      | mk d engine =>
          by_cases hd : d = .wait
          · subst hd
            rw [dispatchLoop_of_wait hn]
            exact .last hn
          · have took := Engine.next_pending (h := h) w (by rwa [hn])
            have hmoves : Engine.Moves {} s.engine (s.engine.next h).2 := Engine.next_moves trivial trivial s.engine h
            rw [hn] at took hmoves
            have w' := hmoves.wellFormed w
            have hover := handOver_leads hleads h d (s := { s with engine }) hs
            have kept := Engine.pending_of_moves hover.moves id id w' h
            have hless := Nat.lt_of_le_of_lt kept took
            rw [dispatchLoop_of_next hd hn]
            exact .round hd hn took kept (ih hover.handlers (hover.moves.wellFormed w') (by omega))

variable (hanswered : ∀ program s, program.Within (.applicationCalls τ κ σ) →
    s.handlers.Within (.applicationCalls τ κ σ) → s.engine.registry.Coherent → Answered s (run program s).2)
include hanswered

/-- After the last round the session rests, if all others did. -/
theorem Rounds.rests (hr : Rounds run h s s') (hs : s.handlers.Within (.applicationCalls τ κ σ))
    (c : s.engine.registry.Coherent) (hl : s.engine.config.maxRequestBytes = limit)
    (hsafe : ∀ buffer, WebSocket.Safe limit buffer)
    (others : ∀ g, g ≠ h → s.engine.registry.At g (Session.Rests limit)) (g : Handle) :
    s'.engine.registry.At g (Session.Rests limit) := by
  have left {s : Server τ κ σ} (c : s.engine.registry.Coherent) {d : Delivery} {engine : Engine τ κ σ}
      (hn : s.engine.next h = (d, engine)) {g : Handle} (hg : g ≠ h)
      (a : s.engine.registry.At g (Session.Rests limit)) : engine.registry.At g (Session.Rests limit) := by
    have hsame := Engine.next_session?_of_ne c.regular hg
    rw [hn] at hsame
    exact fun t ht => a t (hsame.symm.trans ht)
  induction hr with
  | @last s engine hn =>
      by_cases hg : g = h
      · have hrests := Engine.next_rests (h := h) c.wellFormed (hl ▸ hsafe) (congrArg Prod.fst hn)
        rw [hn, hl] at hrests
        exact hg ▸ hrests
      · exact left c hn hg (others g hg)
  | @round s s' d engine hd hn _ _ _ ih =>
      have hmoves : Engine.Moves {} s.engine (s.engine.next h).2 := Engine.next_moves trivial trivial s.engine h
      rw [hn] at hmoves
      have hover := handOver_leads hleads h d (s := { s with engine }) hs
      refine ih hover.handlers (handOver_coherent hanswered hs hn c) ?_ fun g hg => ?_
      · rw [hover.moves.config]
        exact (congrArg Config.maxRequestBytes hmoves.config).trans hl
      · exact Engine.rests_of_moves hover.moves (hmoves.wellFormed c.wellFormed) (left c hn hg (others g hg))

end

/-! ## Receiving -/

/-- The programs of handlers are run as far as a receive lets them. -/
abbrev runInside : Runner τ κ σ :=
  runBy (receiveWithin (receiveDepth - 1))

theorem receive_eq (conn : κ) (data : Bytes) (s : Server τ κ σ) :
    s.receive conn data = receiveBy runInside conn data s := rfl

section

variable {s : Server τ κ σ} {conn : κ} {t : Session κ} {limit : Nat}

theorem receive_rounds (hs : s.handlers.Within (.applicationCalls τ κ σ)) (w : s.engine.registry.WellFormed)
    (hc : s.engine.registry.ofConn? conn = some t) (ho : t.closing = false) (data : Bytes) :
    Rounds runInside t.handle { s with engine := s.engine.gather t.handle data } (s.receive conn data).2 := by
  have hmoves : Engine.Moves {} s.engine (s.engine.gather t.handle data) := Engine.gather_moves trivial _ _ _
  rw [receive_eq, receiveBy_of_open w hc ho]
  exact rounds_dispatchLoop (runBy_leads_still _) (s := { s with engine := s.engine.gather t.handle data }) hs
    (hmoves.wellFormed w) (Nat.lt_succ_self _)

/-- A server between two operations. -/
structure AtRest (limit : Nat) (s : Server τ κ σ) : Prop where
  handlers : s.handlers.Within (.applicationCalls τ κ σ)
  coherent : s.engine.registry.Coherent
  config : s.engine.config.maxRequestBytes = limit
  rests : ∀ h, s.engine.registry.At h (Session.Rests limit)

theorem AtRest.receive (a : s.AtRest limit) (hsafe : ∀ buffer, WebSocket.Safe limit buffer) (conn : κ) (data : Bytes) (h : Handle) :
    (s.receive conn data).2.engine.registry.At h (Session.Rests limit) := by
  cases hc : s.engine.registry.ofConn? conn with
  | none =>
      rw [receive_eq, receiveBy_of_none hc]
      exact a.rests h
  | some t =>
      cases ho : t.closing with
      | true =>
          rw [receive_eq, receiveBy_of_closing hc ho]
          exact a.rests h
      | false =>
          have hsession := a.coherent.wellFormed.get?_of_ofConn? hc
          refine (receive_rounds a.handlers a.coherent.wellFormed hc ho data).rests (runBy_leads_still _)
            (fun _ _ hp hs c => runBy_answered hp hs c) a.handlers (Engine.gather_coherent a.coherent hsession ho data)
            a.config hsafe (fun g hg => ?_) h
          intro u hu
          refine a.rests g u (Eq.trans (Engine.update_session?_of_ne ?_ hg).symm hu)
          exact fun _ => Session.touch_handle _ _

omit [Transport τ κ] in
theorem accept_rests {e : Engine τ κ σ} (w : e.registry.WellFormed)
    (a : ∀ h, e.registry.At h (Session.Rests limit)) (conn : κ) (h : Handle) :
    (e.accept conn).2.registry.At h (Session.Rests limit) := by
  rw [Engine.accept]
  split
  · rename_i h' registry hc
    have hr := Registry.registered_of_create hc
    dsimp only
    rw [Engine.notify_registry]
    by_cases hh : h = h'
    · refine .of_get? (hh ▸ hr.get?_self w) fun _ => ?_
      exact Session.waiting_of_empty rfl
    · exact fun t ht => a h t ((hr.get?_of_ne w hh).symm.trans ht)
  · rename_i hc
    exact (Registry.eq_of_create_error hc).symm ▸ a h

theorem AtRest.apply (a : s.AtRest limit) (hsafe : ∀ buffer, WebSocket.Safe limit buffer) {o : Operation τ κ σ} (ho : o.Installs (.applicationCalls τ κ σ)) :
    (s.apply o).AtRest limit := by
  have hl : Leads {} (.applicationCalls τ κ σ) s (s.apply o) :=
    apply_leads trivial trivial trivial (fun e c _ => Engine.allows_any e c) a.handlers ho
      fun c _ => Engine.allows_any s.engine c
  refine ⟨hl.handlers, apply_coherent a.handlers a.coherent o,
    (congrArg Config.maxRequestBytes hl.moves.config).trans a.config, fun h => ?_⟩
  cases o with
  | call c =>
      by_cases haccept : ∃ conn, c = .accept conn
      · obtain ⟨conn, rfl⟩ := haccept
        exact accept_rests a.coherent.wellFormed a.rests conn h
      · have hallows := Surroundings.still_allows s.engine fun conn hc => haccept ⟨conn, hc⟩
        exact Engine.rests_of_moves (Engine.perform_moves s.engine c hallows) a.coherent.wellFormed (a.rests h)
  | receive conn data => exact a.receive hsafe conn data h
  | onRequest | onMessage | onBinary => exact a.rests h

end

end Server

/-! ## Fragments -/

/-- Nothing but taking a message off makes a session keep a fragment. -/
theorem Deed.fragments {e : Engine τ κ σ} {limit : Nat} (d : Deed τ κ σ) (r : e.registry.Regular)
    (hl : e.config.maxRequestBytes = limit) (f : e.registry.FragmentsWithin limit) :
    (d.act e).registry.FragmentsWithin limit := by
  cases d with
  | took h => exact Engine.next_fragments r hl f
  | call c => exact (c.acts e).fragments r (by cases c <;> exact id) f
  | received h data => exact (Deed.acts (.received h data) e).fragments r id f
  | handed h m => exact (Deed.acts (.handed h m) e).fragments r id f
  | concluded h reply => exact (Deed.acts (.concluded h reply) e).fragments r id f

theorem Engine.after_fragments {e : Engine τ κ σ} {limit : Nat} (r : e.registry.Regular)
    (hl : e.config.maxRequestBytes = limit) (f : e.registry.FragmentsWithin limit) (ds : List (Deed τ κ σ)) :
    (e.after ds).registry.FragmentsWithin limit := by
  induction ds generalizing e with
  | nil => exact f
  | cons d ds ih =>
      have hconfig := ((d.acts e).moves r).config
      exact ih ((d.acts e).regular r) ((congrArg Config.maxRequestBytes hconfig).trans hl) (d.fragments r hl f)

namespace Server

/-! ## Every run -/

/-- What is held of what was received, when `data` arrives on a connection of the server `s`, which came from `start`
by the deeds `ds`. -/
structure HoldsWithin (limit : Nat) (start : Engine τ κ σ) (ds : List (Deed τ κ σ)) (s : Server τ κ σ) (conn : κ)
    (data : Bytes) : Prop where
  /-- The rounds come to an end, and nothing that was received makes the reader of frames fail in memory. -/
  rounds : ∀ t, s.engine.registry.ofConn? conn = some t → t.closing = false →
    Rounds runInside t.handle { s with engine := s.engine.gather t.handle data } (s.receive conn data).2
  safe : ∀ buffer, WebSocket.Safe limit buffer
  /-- Nothing complete is left when the bytes have been dealt with. -/
  inbound : ∀ t ∈ (s.receive conn data).2.engine.registry.sessions,
    t.closing = true ∧ t.inbound = [] ∨ t.closing = false ∧ t.Waiting limit
  /-- At no moment, nor between the calls of a handler, more is kept of an unfinished message. -/
  fragments : ∀ past, past <+: ds ++ s.deeds (.receive conn data) →
    (start.after past).registry.FragmentsWithin limit

/-- Whatever happens to a server whose handlers only make calls, and whatever arrives then, what it holds of a message
stays within the configured size. -/
theorem holdsWithin_of_course {config : Config} {transport : τ} {app : σ} {s : Server τ κ σ} {ds : List (Deed τ κ σ)}
    (hmax : config.maxRequestBytes < 2 ^ 63)
    (hc : Course (fun _ o => o.Installs (.applicationCalls τ κ σ)) (new config transport app) ds s) (conn : κ)
    (data : Bytes) : HoldsWithin config.maxRequestBytes (new config transport app).engine ds s conn data := by
  have hsafe (buffer : Bytes) : WebSocket.Safe config.maxRequestBytes buffer := by
    have hsize : sizeLimit = 2 ^ 64 := rfl
    rcases WebSocket.safe_or_overflow config.maxRequestBytes buffer with hsafe | ⟨-, hle⟩
    · exact hsafe
    · omega
  have a : s.AtRest config.maxRequestBytes := by
    induction hc with
    | start => exact ⟨Handlers.within_none _, Registry.coherent_new _, rfl, fun h => .of_none rfl⟩
    | step _ ho ih => exact ih.apply hsafe ho
  have hcoherent := apply_coherent a.handlers a.coherent (.receive conn data)
  refine ⟨fun t hconn ho => receive_rounds a.handlers a.coherent.wellFormed hconn ho data, hsafe,
    fun t ht => ?_, fun past _ => ?_⟩
  · have hrests := (a.receive hsafe conn data t.handle).of_mem hcoherent.wellFormed ht rfl
    cases hclosing : t.closing with
    | true => exact .inl ⟨rfl, (hcoherent.steady t ht).inbound hclosing⟩
    | false => exact .inr ⟨rfl, hrests hclosing⟩
  · exact Engine.after_fragments (Registry.regular_new _) rfl (fun _ ht => absurd ht List.not_mem_nil) past

/-- The second fragment of a message has come but for its last byte. -/
theorem holdsWithin_of_unfinished_message :
    let upgrade := Text.utf8 ("GET / HTTP/1.1\r\nHost: a\r\nOrigin: a\r\nUpgrade: websocket\r\n" ++
      "Connection: Upgrade\r\nSec-WebSocket-Version: 13\r\nSec-WebSocket-Key: x\r\n\r\n")
    let operations : List (Operation (Transport.InMemory Nat) Nat Unit) :=
      [.call (.accept 7), .receive 7 upgrade, .receive 7 [0x01, 2, 72, 105]]
    let start : Server (Transport.InMemory Nat) Nat Unit := new { maxRequestBytes := 200 } {} ()
    let s := operations.foldl apply start
    HoldsWithin 200 start.engine (deedsOf operations start) s 7 [0x80, 2, 33] ∧
      (s.receive 7 [0x80, 2, 33]).2.engine.registry.sessions.map (fun t => (t.inbound, t.fragment)) =
        [([0x80, 2, 33], some ⟨.text, [72, 105]⟩)] := by
  have hmax : ({ maxRequestBytes := 200 } : Config).maxRequestBytes < 2 ^ 63 := by decide
  refine ⟨holdsWithin_of_course hmax (course_deedsOf ?_) 7 [0x80, 2, 33], ?_⟩
  · simp [Operation.Installs]
  · decide +kernel

end Server

end

end WebServer
