import WebServer.Proofs.Engine.Effects
import WebServer.Proofs.Http.RoundTrip
import WebServer.Proofs.Server.Chunking

/-! # Requests in a row

A session that stays open hands over the requests of a stream one after the other, however the stream is cut: what
has not been handed over yet is a part of the next request. To hand over a request is to run the handler on it, and to
flush what it has sent. -/

namespace WebServer

variable {τ κ σ : Type}

/-! ## Requests in a journal -/

def Entry.requestOn (h : Handle) : Entry κ → List Http.Request
  | .request h' r => if h' = h then [r] else []
  | _ => []

/-- The requests of a session that were handed over, oldest first. -/
def requestsOn (h : Handle) (journal : List (Entry κ)) : List Http.Request :=
  journal.reverse.flatMap (Entry.requestOn h)

theorem requestsOn_append (h : Handle) (gained journal : List (Entry κ)) :
    requestsOn h (gained ++ journal) = requestsOn h journal ++ requestsOn h gained := by
  rw [requestsOn, List.reverse_append, List.flatMap_append]
  rfl

theorem requestsOn_eq_nil {h : Handle} {gained : List (Entry κ)} (hg : ∀ entry ∈ gained, entry.requestOn h = []) :
    requestsOn h gained = [] :=
  List.flatMap_eq_nil_iff.mpr fun entry hm => hg entry (List.mem_reverse.mp hm)

theorem Entry.Offers.requestOn {g : Handle} {conn : κ} {entry : Entry κ} (ho : entry.Offers g conn) (h : Handle) :
    entry.requestOn h = [] := by
  cases ho <;> rfl

/-! ## What does not concern a session -/

namespace Engine

/-- The engine `e'` came from `e` by something that leaves a session open with what it has received, and by which none
of its requests was handed over. -/
structure Spares (h : Handle) (e e' : Engine τ κ σ) : Prop where
  session : ∀ t, e.session? h = some t → ∃ u, e'.session? h = some u ∧ u.conn = t.conn ∧ u.mode = t.mode ∧
    u.closing = t.closing ∧ u.inbound = t.inbound
  requests : requestsOn h e'.journal = requestsOn h e.journal

variable {h : Handle} {e e' e'' : Engine τ κ σ}

theorem Spares.refl (h : Handle) (e : Engine τ κ σ) : Spares h e e :=
  ⟨fun t hs => ⟨t, hs, rfl, rfl, rfl, rfl⟩, rfl⟩

theorem Spares.trans (hs : Spares h e e') (hs' : Spares h e' e'') : Spares h e e'' where
  session t ht := by
    obtain ⟨u, hu, hconn, hmode, hclosing, hinbound⟩ := hs.session t ht
    obtain ⟨v, hv, hconn', hmode', hclosing', hinbound'⟩ := hs'.session u hu
    exact ⟨v, hv, hconn'.trans hconn, hmode'.trans hmode, hclosing'.trans hclosing, hinbound'.trans hinbound⟩
  requests := hs'.requests.trans hs.requests

/-- Output of any session does not concern what has been received. -/
theorem spares_of_outbound (h : Handle) {g : Handle} {queue : OutboundQueue} {gained : List (Entry κ)}
    (hr : e'.registry = e.registry.update g fun u => { u with outbound := queue })
    (hj : e'.journal = gained ++ e.journal) (hg : ∀ entry ∈ gained, entry.requestOn h = []) : Spares h e e' where
  session t ht := by
    have hget : e'.session? h = some (if t.handle = g then { t with outbound := queue } else t) := by
      rw [session?, hr, Registry.get?_update (f := fun u : Session κ => { u with outbound := queue }) fun _ => rfl]
      exact congrArg (Option.map _) ht
    refine ⟨_, hget, ?_⟩
    split <;> exact ⟨rfl, rfl, rfl, rfl⟩
  requests := by
    rw [hj, requestsOn_append, requestsOn_eq_nil hg, List.append_nil]

theorem flush_spares [Transport τ κ] (h : Handle) (e : Engine τ κ σ) (g : Handle) : Spares h e (e.flush g) := by
  cases hs : e.session? g with
  | none =>
      rw [flush_of_none hs]
      exact .refl h e
  | some t =>
      obtain ⟨queue, -, hr⟩ := flush_registry hs
      obtain ⟨offers, hj, hoffers⟩ := flush_grown hs
      exact spares_of_outbound h hr hj fun entry hm => (hoffers entry hm).requestOn h

theorem enqueue_spares (h : Handle) (e : Engine τ κ σ) (g : Handle) (data : Bytes) :
    Spares h e (e.enqueue g data).2 := by
  rw [enqueue]
  split
  · exact .refl h e
  · split
    · exact .refl h e
    · exact spares_of_outbound h rfl (show _ = [.queued g data] ++ e.journal from rfl) (by simp [Entry.requestOn])

theorem send_spares [Transport τ κ] (h : Handle) (e : Engine τ κ σ) (g : Handle) (data : Bytes) :
    Spares h e (e.send g data).2 := by
  rw [send]
  split
  · exact .refl h e
  · split
    · exact .refl h e
    · have hq := enqueue_spares h e g data
      generalize e.enqueue g data = result at hq
      obtain ⟨outcome, queued⟩ := result
      cases outcome with
      | error err => exact hq
      | ok _ => exact hq.trans (flush_spares h queued g)

/-- A session that may be handed requests. -/
def AwaitsRequests (e : Engine τ κ σ) (h : Handle) : Prop :=
  ∃ t, e.session? h = some t ∧ t.mode = .http ∧ t.closing = false

end Engine

namespace Server

/-! ## Handlers that keep connections open -/

/-- Handlers of requests that always keep the connection open: each says so, leaves the session alone, and is replaced
only by such a handler. -/
def KeepOpen (run : Runner τ κ σ) (handlers : (Handle → Http.Request → Program τ κ σ) → Prop) : Prop :=
  ∀ handler, handlers handler → ∀ (h : Handle) (r : Http.Request) (s : Server τ κ σ), s.engine.registry.WellFormed →
    s.engine.AwaitsRequests h → s.handlers.request = none →
      (run (handler h r) s).1 = { handled := true, keepOpen := true } ∧
        s.engine.Spares h (run (handler h r) s).2.engine ∧
        ∀ other ∈ (run (handler h r) s).2.handlers.request, handlers other

/-- A server that hands the requests over a connection to such a handler. -/
structure Attends (handlers : (Handle → Http.Request → Program τ κ σ) → Prop) (h : Handle) (conn : κ) (inbound : Bytes)
    (s : Server τ κ σ) : Prop where
  wellFormed : s.engine.registry.WellFormed
  handler : ∃ handler, s.handlers.request = some handler ∧ handlers handler
  session : ∃ t, s.engine.session? h = some t ∧ t.conn = conn ∧ t.mode = .http ∧ t.closing = false ∧ t.inbound = inbound

/-- A way to run programs that keeps the registry in order and the configuration as it is. -/
def Runner.Orderly (run : Runner τ κ σ) : Prop :=
  ∀ program s, s.engine.registry.WellFormed →
    (run program s).2.engine.registry.WellFormed ∧ (run program s).2.engine.config = s.engine.config

variable {handlers : (Handle → Http.Request → Program τ κ σ) → Prop} {h : Handle} {conn : κ} {inbound : Bytes}
  {s s' s'' : Server τ κ σ} {run : Runner τ κ σ}

theorem Attends.of_spares (a : Attends handlers h conn inbound s) (hs : s.engine.Spares h s'.engine)
    (w : s'.engine.registry.WellFormed) (hh : ∃ handler, s'.handlers.request = some handler ∧ handlers handler) :
    Attends handlers h conn inbound s' := by
  obtain ⟨t, ht, hconn, hmode, hclosing, hinbound⟩ := a.session
  obtain ⟨u, hu, hconn', hmode', hclosing', hinbound'⟩ := hs.session t ht
  exact ⟨w, hh, u, hu, hconn'.trans hconn, hmode'.trans hmode, hclosing'.trans hclosing, hinbound'.trans hinbound⟩

variable [DecidableEq κ] [Transport τ κ]

/-! ## What is handed over -/

/-- The handler of requests ran on the request `r` and kept the connection open. Its place was empty meanwhile; now what
it has sent is flushed. -/
inductive Handled (run : Runner τ κ σ) (h : Handle) (r : Http.Request) (s : Server τ κ σ) : Server τ κ σ → Prop where
  | intro {handler : Handle → Http.Request → Program τ κ σ} {u : Server τ κ σ} (hslot : s.handlers.request = some handler)
      (hrun : run (handler h r) { s with
        engine := s.engine.record (.request h r), handlers := { s.handlers with request := none } } =
          ({ handled := true, keepOpen := true }, u)) :
      Handled run h r s { u with
        engine := u.engine.flush h, handlers := { u.handlers with request := u.handlers.request.or (some handler) } }

/-- The server `s` came from `start` by running the handler on some requests, one after the other. Each of them was taken
off the front of the bytes that had arrived, and whatever else was done leaves the session alone. -/
inductive RanFor (run : Runner τ κ σ) (h : Handle) (start : Server τ κ σ) : List Http.Request → Server τ κ σ → Prop where
  | start : RanFor run h start [] start
  | arrived {requests : List Http.Request} {s : Server τ κ σ} (hs : RanFor run h start requests s) (data : Bytes) :
      RanFor run h start requests { s with engine := s.engine.gather h data }
  | handled {requests : List Http.Request} {r : Http.Request} {s s' : Server τ κ σ} (hs : RanFor run h start requests s)
      (hr : Handled run h r { s with engine := s.engine.dropInbound h r.raw.length } s') :
      RanFor run h start (requests ++ [r]) s'
  | spared {requests : List Http.Request} {s : Server τ κ σ} {o : Operation τ κ σ} (hs : RanFor run h start requests s)
      (hspares : s.engine.Spares h (s.apply o).engine) : RanFor run h start requests (s.apply o)

theorem RanFor.trans {first second : List Http.Request} (hf : RanFor run h s first s')
    (hs : RanFor run h s' second s'') : RanFor run h s (first ++ second) s'' := by
  induction hs with
  | start => exact (List.append_nil first).symm ▸ hf
  | arrived _ data ih => exact ih.arrived data
  | handled _ hr ih =>
      rw [← List.append_assoc]
      exact ih.handled hr
  | spared _ hspares ih => exact ih.spared hspares

/-- The server `s'` came from `s`, and some requests of a session were handed over meanwhile: its handler ran on them, and
the journal shows them. -/
structure HandedOver (run : Runner τ κ σ) (h : Handle) (rs : List Http.Request) (s s' : Server τ κ σ) : Prop where
  config : s'.engine.config = s.engine.config
  ran : RanFor run h s rs s'
  requests : requestsOn h s'.engine.journal = requestsOn h s.engine.journal ++ rs

theorem HandedOver.trans {first second : List Http.Request} (hf : HandedOver run h first s s')
    (hs : HandedOver run h second s' s'') : HandedOver run h (first ++ second) s s'' where
  config := hs.config.trans hf.config
  ran := hf.ran.trans hs.ran
  requests := by rw [hs.requests, hf.requests, List.append_assoc]

theorem HandedOver.refl (run : Runner τ κ σ) (h : Handle) (s : Server τ κ σ) : HandedOver run h [] s s :=
  ⟨rfl, .start, (List.append_nil _).symm⟩

/-! ## One request -/

/-- A connection that is kept open is flushed. -/
theorem conclude_kept (a : Attends handlers h conn inbound s) :
    s.conclude h { handled := true, keepOpen := true } = { s with engine := s.engine.flush h } := by
  obtain ⟨t, ht, -⟩ := a.session
  rw [conclude, ht]
  rfl

theorem Attends.flush (a : Attends handlers h conn inbound s) :
    Attends handlers h conn inbound { s with engine := s.engine.flush h } :=
  have hmoves : Engine.Moves {} s.engine (s.engine.flush h) := Engine.flush_moves s.engine h
  a.of_spares (Engine.flush_spares h s.engine h) (hmoves.wellFormed a.wellFormed) a.handler

/-- A request is handed over, and the server attends to the session as before. -/
theorem handleRequest_kept (orderly : Runner.Orderly run) (keep : KeepOpen run handlers)
    (a : Attends handlers h conn inbound s) (r : Http.Request) :
    Attends handlers h conn inbound (handleRequest run h r s) ∧ Handled run h r s (handleRequest run h r s) ∧
      (handleRequest run h r s).engine.config = s.engine.config ∧
      requestsOn h (handleRequest run h r s).engine.journal = requestsOn h s.engine.journal ++ [r] := by
  obtain ⟨handler, hslot, hhandler⟩ := a.handler
  obtain ⟨t, ht, hconn, hmode, hclosing, hinbound⟩ := a.session
  have hnote := requestsOn_append h [.request h r] s.engine.journal
  rw [show requestsOn h [(.request h r : Entry κ)] = [r] by simp [requestsOn, Entry.requestOn]] at hnote
  rw [handleRequest, hslot]
  dsimp only
  have hkeep := keep handler hhandler h r { s with
    engine := s.engine.record (.request h r), handlers := { s.handlers with request := none } }
    a.wellFormed ⟨t, ht, hmode, hclosing⟩ rfl
  have horderly := orderly (handler h r) { s with
    engine := s.engine.record (.request h r), handlers := { s.handlers with request := none } } a.wellFormed
  generalize hrun : run (handler h r) _ = result at hkeep horderly ⊢
  obtain ⟨reply, u⟩ := result
  obtain ⟨rfl, hspares, hothers⟩ := hkeep
  obtain ⟨v, hv, hconn', hmode', hclosing', hinbound'⟩ := hspares.session t ht
  have hback : Attends handlers h conn inbound { u with
      handlers := { u.handlers with request := u.handlers.request.or (some handler) } } := by
    refine ⟨horderly.1, ?_, v, hv, hconn'.trans hconn, hmode'.trans hmode, hclosing'.trans hclosing,
      hinbound'.trans hinbound⟩
    cases hslot' : u.handlers.request with
    | none => exact ⟨handler, rfl, hhandler⟩
    | some other => exact ⟨other, rfl, hothers other hslot'⟩
  have hflush := Engine.flush_spares h u.engine h
  have hmoves : Engine.Moves {} u.engine (u.engine.flush h) := Engine.flush_moves u.engine h
  rw [conclude_kept hback]
  exact ⟨hback.flush, .intro hslot hrun, hmoves.config.trans horderly.2,
    hflush.requests.trans (hspares.requests.trans hnote)⟩

/-- The next message of a session that has received a complete request. -/
theorem next_of_message {m : Http.Message} {rest : Bytes} (a : Attends handlers h conn (m.bytes ++ rest) s)
    (hm : m.WritableWithin s.engine.config.maxRequestBytes) (hu : m.request.isUpgrade = false) :
    s.engine.next h = (.request m.request, s.engine.dropInbound h m.bytes.length) := by
  obtain ⟨t, ht, -, hmode, hclosing, hinbound⟩ := a.session
  have hne : t.inbound.isEmpty = false := by
    rw [hinbound, Http.Message.bytes]
    simp [Bytes.blankLine]
  have hhead : ({ raw := t.inbound.take m.head.totalLength, head := m.head } : Http.Request) = m.request := by
    rw [hinbound, Http.Message.totalLength_head hm.size, List.take_left' rfl]
    rfl
  rw [Engine.next, ht]
  dsimp only
  rw [hclosing, hne, if_neg (by decide), hmode]
  dsimp only
  rw [Engine.nextRequest, show Http.Head.read _ t.inbound = _ from hinbound ▸ hm.writable.read_bytes hm.limit hm.size rest]
  dsimp only
  rw [hhead, hu, Http.Message.totalLength_head hm.size]
  rfl

/-- A session that has received a part of a request waits for the rest. -/
theorem next_of_part (a : Attends handlers h conn inbound s)
    (hpart : inbound = [] ∨ Http.Head.read s.engine.config.maxRequestBytes inbound = .notYet ∧
      inbound.length ≤ s.engine.config.maxRequestBytes) : s.engine.next h = (.wait, s.engine) := by
  obtain ⟨t, ht, -, hmode, hclosing, rfl⟩ := a.session
  rw [Engine.next, ht]
  dsimp only
  rw [hclosing, Bool.false_or]
  rcases hpart with hnil | ⟨hread, hle⟩
  · rw [hnil]
    rfl
  · split
    · rfl
    · rw [hmode]
      dsimp only
      rw [Engine.nextRequest, hread]
      dsimp only
      rw [if_neg (Nat.not_lt.mpr hle)]

omit [DecidableEq κ] [Transport τ κ] in
theorem Attends.dropInbound {front rest : Bytes} (a : Attends handlers h conn (front ++ rest) s) :
    Attends handlers h conn rest { s with engine := s.engine.dropInbound h front.length } := by
  obtain ⟨t, ht, hconn, hmode, hclosing, hinbound⟩ := a.session
  refine ⟨a.wellFormed.update (fun _ => rfl) fun _ => rfl, a.handler,
    { t with inbound := t.inbound.drop front.length }, ?_, hconn, hmode, hclosing, ?_⟩
  · rw [Engine.dropInbound, Engine.update_session?, ht]
    · rfl
    · exact fun _ => rfl
  · rw [hinbound]
    exact List.drop_left' rfl

/-! ## Requests in a row -/

/-- Complete requests are handed over one after the other, up to a part of another one. -/
theorem dispatchLoop_kept (orderly : Runner.Orderly run) (keep : KeepOpen run handlers) {ms : List Http.Message}
    {part : Bytes} (a : Attends handlers h conn (ms.flatMap Http.Message.bytes ++ part) s)
    (hms : ∀ m ∈ ms, m.WritableWithin s.engine.config.maxRequestBytes ∧ m.request.isUpgrade = false)
    (hpart : part = [] ∨ Http.Head.read s.engine.config.maxRequestBytes part = .notYet ∧
      part.length ≤ s.engine.config.maxRequestBytes) {fuel : Nat} (hf : ms.length < fuel) :
    Attends handlers h conn part (dispatchLoop run h fuel s) ∧
      HandedOver run h (ms.map Http.Message.request) s (dispatchLoop run h fuel s) := by
  obtain ⟨fuel, rfl⟩ := Nat.exists_eq_add_one_of_ne_zero (Nat.ne_zero_of_lt hf)
  induction ms generalizing s fuel with
  | nil =>
      rw [dispatchLoop_of_wait (next_of_part a hpart)]
      exact ⟨a, .refl run h s⟩
  | cons m ms ih =>
      rw [List.forall_mem_cons] at hms
      rw [List.flatMap_cons, List.append_assoc] at a
      rw [List.length_cons] at hf
      obtain ⟨fuel, rfl⟩ := Nat.exists_eq_add_one_of_ne_zero (show fuel ≠ 0 by omega)
      have hloop : dispatchLoop run h (fuel + 1 + 1) s = dispatchLoop run h (fuel + 1) (handleRequest run h m.request
          { s with engine := s.engine.dropInbound h m.bytes.length }) :=
        dispatchLoop_of_next (by simp) (next_of_message a hms.1.1 hms.1.2) (fuel + 1)
      obtain ⟨hkept, hhandled, hconfig, hrequests⟩ := handleRequest_kept orderly keep a.dropInbound m.request
      generalize handleRequest run h m.request _ = s' at hloop hkept hhandled hconfig hrequests
      have hgiven : HandedOver run h [m.request] s s' := ⟨hconfig, RanFor.start.handled hhandled, hrequests⟩
      obtain ⟨hafter, hothers⟩ := ih hkept (hgiven.config ▸ hms.2) (hgiven.config ▸ hpart) fuel (by omega)
      rw [hloop]
      exact ⟨hafter, hgiven.trans hothers⟩

/-- Bytes that complete some requests have these handed over. -/
theorem receiveBy_kept (orderly : Runner.Orderly run) (keep : KeepOpen run handlers) {ms : List Http.Message}
    {data part : Bytes} (a : Attends handlers h conn inbound s)
    (hdata : inbound ++ data = ms.flatMap Http.Message.bytes ++ part)
    (hms : ∀ m ∈ ms, m.WritableWithin s.engine.config.maxRequestBytes ∧ m.request.isUpgrade = false)
    (hpart : part = [] ∨ Http.Head.read s.engine.config.maxRequestBytes part = .notYet ∧
      part.length ≤ s.engine.config.maxRequestBytes) :
    Attends handlers h conn part (receiveBy run conn data s).2 ∧
      HandedOver run h (ms.map Http.Message.request) s (receiveBy run conn data s).2 := by
  obtain ⟨t, ht, hconn, hmode, hclosing, hinbound⟩ := a.session
  have hof : s.engine.registry.ofConn? conn = some t :=
    a.wellFormed.ofConn?_eq_some.mpr ⟨Registry.mem_of_get? ht, hconn⟩
  have hhandle : t.handle = h := Registry.handle_of_get? ht
  have hmoves : Engine.Moves {} s.engine (s.engine.gather h data) := Engine.gather_moves trivial s.engine h data
  have hgathered : Attends handlers h conn (ms.flatMap Http.Message.bytes ++ part)
      { s with engine := s.engine.gather h data } := by
    refine ⟨hmoves.wellFormed a.wellFormed, a.handler, _, gather_session ht data, ?_⟩
    rw [Session.touch_conn, Session.touch_mode, Session.touch_closing, Session.touch_inbound, hinbound, hdata]
    exact ⟨hconn, hmode, hclosing, rfl⟩
  have hfuel : ms.length < t.inbound.length + data.length + 1 := by
    have hle := Text.length_le_flatMap Http.Message.length_bytes_pos ms
    have hlength := congrArg List.length hdata
    rw [List.length_append, List.length_append, ← hinbound] at hlength
    omega
  obtain ⟨hafter, hgiven⟩ := dispatchLoop_kept orderly keep hgathered hms hpart hfuel
  have hreceive : (receiveBy run conn data s).2 =
      dispatchLoop run h (t.inbound.length + data.length + 1) { s with engine := s.engine.gather h data } := by
    rw [receiveBy, hof]
    dsimp only
    rw [hclosing, if_neg (by decide), hhandle]
    rfl
  rw [hreceive]
  exact ⟨hafter, hgiven.config, (RanFor.start.arrived data).trans hgiven.ran, hgiven.requests⟩

/-! ## Programs that answer -/

/-- Programs that answer by calls that leave every session alone, and report that the connection stays open. -/
inductive Answers : Program τ κ σ → Prop where
  | done : Answers (.done { handled := true, keepOpen := true })
  | call {c : Call τ κ σ} {next : c.Result → Program τ κ σ} (hc : ∀ h (e : Engine τ κ σ), e.Spares h (e.perform c).2)
      (hn : ∀ answer, Answers (next answer)) : Answers (.call c next)

theorem runBy_of_answers (receive : κ → Bytes → Server τ κ σ → Nat × Server τ κ σ) {program : Program τ κ σ}
    (hp : Answers program) (h : Handle) (s : Server τ κ σ) :
    (runBy receive program s).1 = { handled := true, keepOpen := true } ∧
      s.engine.Spares h (runBy receive program s).2.engine ∧ (runBy receive program s).2.handlers = s.handlers := by
  induction hp generalizing s with
  | done => exact ⟨rfl, .refl h s.engine, rfl⟩
  | @call c next hc _ ih =>
      obtain ⟨hreply, hspares, hhandlers⟩ := ih (s.engine.perform c).1 { s with engine := (s.engine.perform c).2 }
      exact ⟨hreply, (hc h s.engine).trans hspares, hhandlers⟩

theorem keepOpen_of_answers (receive : κ → Bytes → Server τ κ σ → Nat × Server τ κ σ) :
    KeepOpen (runBy receive) fun handler => ∀ h r, Answers (handler h r) := by
  intro handler hhandler h r s _ _ hslot
  obtain ⟨hreply, hspares, hhandlers⟩ := runBy_of_answers receive (hhandler h r) h s
  refine ⟨hreply, hspares, fun other hother => ?_⟩
  rw [hhandlers, hslot] at hother
  cases hother

/-! ## Streams in chunks -/

theorem runBy_leads_any (depth : Nat) (program : Program τ κ σ) (s : Server τ κ σ) :
    Leads {} (.any τ κ σ) s (runBy (receiveWithin depth) program s).2 := by
  refine runBy_leads (fun e c _ => Engine.allows_any e c) (fun _ conn data s hs => ?_) program s program.within_any
    s.handlers.within_any
  exact receiveWithin_leads trivial trivial trivial (fun e c _ => Engine.allows_any e c) depth conn data s hs

theorem runBy_orderly (depth : Nat) : Runner.Orderly (runBy (receiveWithin depth) : Runner τ κ σ) :=
  fun program s w => ⟨(runBy_leads_any depth program s).moves.wellFormed w, (runBy_leads_any depth program s).moves.config⟩

/-- The server `s` came from `start` by taking the given bytes of a connection, in chunks of any size, and by
operations that leave its session alone. -/
inductive Fed (handlers : (Handle → Http.Request → Program τ κ σ) → Prop) (h : Handle) (conn : κ)
    (start : Server τ κ σ) : Bytes → Server τ κ σ → Prop where
  | start : Fed handlers h conn start [] start
  | received {data : Bytes} {s : Server τ κ σ} (hs : Fed handlers h conn start data s) (chunk : Bytes) :
      Fed handlers h conn start (data ++ chunk) (s.apply (.receive conn chunk))
  | spared {data : Bytes} {s : Server τ κ σ} {o : Operation τ κ σ} (hs : Fed handlers h conn start data s)
      (hspares : s.engine.Spares h (s.apply o).engine)
      (hslot : ∃ handler, (s.apply o).handlers.request = some handler ∧ handlers handler) :
      Fed handlers h conn start data (s.apply o)

theorem apply_config (s : Server τ κ σ) (o : Operation τ κ σ) : (s.apply o).engine.config = s.engine.config :=
  (runBy_leads_any receiveDepth o.program s).moves.config

theorem apply_wellFormed {s : Server τ κ σ} (w : s.engine.registry.WellFormed) (o : Operation τ κ σ) :
    (s.apply o).engine.registry.WellFormed :=
  (runBy_leads_any receiveDepth o.program s).moves.wellFormed w

/-- Whatever part of a stream has come, its complete requests have been handed over, and the rest is kept. -/
theorem Fed.kept (keep : KeepOpen (runBy (receiveWithin (receiveDepth - 1))) handlers) {start : Server τ κ σ}
    (a : Attends handlers h conn [] start) {ms : List Http.Message}
    (hms : ∀ m ∈ ms, m.WritableWithin start.engine.config.maxRequestBytes ∧ m.request.isUpgrade = false)
    {data more : Bytes} (hf : Fed handlers h conn start data s) (hd : data ++ more = ms.flatMap Http.Message.bytes) :
    ∃ done rest part, ms = done ++ rest ∧ part ++ more = rest.flatMap Http.Message.bytes ∧
      (∀ m ∈ rest.head?, part.length < m.bytes.length) ∧ Attends handlers h conn part s ∧
      HandedOver (runBy (receiveWithin (receiveDepth - 1))) h (done.map Http.Message.request) start s := by
  induction hf generalizing more with
  | start =>
      exact ⟨[], ms, [], rfl, hd, fun m _ => m.length_bytes_pos, a, .refl _ h start⟩
  | @received data s _ chunk ih =>
      rw [List.append_assoc] at hd
      obtain ⟨done, rest, part, rfl, hrest, -, hattends, hgiven⟩ := ih hd
      rw [← List.append_assoc] at hrest
      obtain ⟨done', rest', part', rfl, hchunk, hpart, hnext⟩ := Text.split_flatMap hrest
      rw [← hgiven.config] at hms
      have hleft := Http.read_of_flatMap (fun m hm => (hms m (by simp [hm])).1) hpart hnext
      obtain ⟨hafter, hmore⟩ := receiveBy_kept (runBy_orderly _) keep hattends hchunk
        (fun m hm => hms m (by simp [hm])) hleft
      refine ⟨done ++ done', rest', part', (List.append_assoc ..).symm, hpart, hnext, hafter, ?_⟩
      rw [List.map_append]
      exact hgiven.trans hmore
  | @spared data s o _ hspares hslot ih =>
      obtain ⟨done, rest, part, hdone, hrest, hnext, hattends, hgiven⟩ := ih hd
      refine ⟨done, rest, part, hdone, hrest, hnext,
        hattends.of_spares hspares (apply_wellFormed hattends.wellFormed o) hslot,
        (apply_config s o).trans hgiven.config, hgiven.ran.spared hspares, hspares.requests.trans hgiven.requests⟩

/-- Requests that are written one behind the other are read back one by one, as they are. A session whose handler
keeps the connection open hands over just these, in their order, however the stream is cut: its handler runs on each. -/
theorem requests_of_stream {limit : Nat} {ms : List Http.Message} (hms : ∀ m ∈ ms, m.WritableWithin limit) :
    (∀ rest, Http.takeMessages limit ms.length (ms.flatMap Http.Message.bytes ++ rest) =
        some (ms.map fun m => (m, m.bytes.length), rest)) ∧
      (∀ m ∈ ms, Http.Message.ofRequest m.request = m ∧ m.request.bytes = m.bytes) ∧
      ∀ (handlers : (Handle → Http.Request → Program τ κ σ) → Prop) (h : Handle) (conn : κ) (start s : Server τ κ σ),
        KeepOpen (runBy (receiveWithin (receiveDepth - 1))) handlers → Attends handlers h conn [] start →
        start.engine.config.maxRequestBytes = limit → (∀ m ∈ ms, m.request.isUpgrade = false) →
        Fed handlers h conn start (ms.flatMap Http.Message.bytes) s →
          Attends handlers h conn [] s ∧ HandedOver (runBy (receiveWithin (receiveDepth - 1))) h
            (ms.map Http.Message.request) start s := by
  refine ⟨Http.takeMessages_flatMap hms, fun m hm => Http.Message.ofRequest_request (hms m hm).size, ?_⟩
  intro handlers h conn start s keep a hlimit hupgrade hf
  have hboth : ∀ m ∈ ms, m.WritableWithin start.engine.config.maxRequestBytes ∧ m.request.isUpgrade = false :=
    fun m hm => ⟨hlimit ▸ hms m hm, hupgrade m hm⟩
  obtain ⟨done, rest, part, rfl, hpart, hnext, hattends, hgiven⟩ := hf.kept keep a hboth (List.append_nil _)
  -- Nothing more comes, so there is no next request of which only a part has come.
  have hrest : rest = [] := by
    rw [List.append_nil] at hpart
    cases rest with
    | nil => rfl
    | cons m rest =>
        have hlt := hnext m rfl
        rw [hpart, List.flatMap_cons, List.length_append] at hlt
        omega
  subst hrest
  obtain rfl : part = [] := (List.append_eq_nil_iff.mp hpart).1
  rw [List.append_nil]
  exact ⟨hattends, hgiven⟩

/-- Two requests, the second of which comes in two pieces, for a handler that keeps and answers what it is given. -/
theorem requests_of_stream_of_get_and_post :
    let answer : Handle → Http.Request → Program (Transport.InMemory Nat) Nat (List Http.Request) := fun h r =>
      .call .inspect fun e => .call (.setApp (e.app ++ [r])) fun _ =>
        .call (.send h (Text.utf8 r.head.method)) fun _ => .done { handled := true, keepOpen := true }
    let start : Server (Transport.InMemory Nat) Nat (List Http.Request) :=
      [.call (.accept 7), .onRequest answer].foldl apply (new {} {} [])
    let get : Http.Message := ⟨"GET", "/", "HTTP/1.1", [⟨"Host", "a"⟩], []⟩
    let post : Http.Message := ⟨"POST", "/b", "HTTP/1.1", [⟨"Content-Length", "2"⟩], [104, 105]⟩
    let a := Text.utf8 "GET / HTTP/1.1\r\nHost: a\r\n\r\nPOST /b HT"
    let b := Text.utf8 "TP/1.1\r\nContent-Length: 2\r\n\r\nhi"
    let s := (start.apply (.receive 7 a)).apply (.receive 7 b)
    Http.takeMessages 16384 2 (a ++ b ++ [71]) = some ([(get, 27), (post, 41)], [71]) ∧
      HandedOver (runBy (receiveWithin (receiveDepth - 1))) .first [get.request, post.request] start s ∧
      s.engine.app = [get.request, post.request] ∧ (s.engine.transport.link 7).written = Text.utf8 "GETPOST" := by
  intro answer start get post a b s
  have hreaches : Reaches (fun _ _ => True) (new {} {} []) start := reaches_foldl .start (by simp)
  have hget : get.WritableWithin 16384 := ⟨by decide, by decide, by decide⟩
  have hpost : post.WritableWithin 16384 := ⟨by decide, by decide, by decide⟩
  have hms : ∀ m ∈ [get, post], m.WritableWithin 16384 := by
    simp [hget, hpost]
  have hanswers : ∀ h r, Answers (answer h r) := fun _ _ =>
    .call (fun h e => .refl h e) fun _ => .call (fun h e => ⟨fun t ht => ⟨t, ht, rfl, rfl, rfl, rfl⟩, rfl⟩) fun _ =>
      .call (fun h e => Engine.send_spares h e _ _) fun _ => .done
  have hattends : Attends (fun handler => ∀ h r, Answers (handler h r)) .first 7 [] start :=
    ⟨hreaches.wellFormed, ⟨answer, rfl, hanswers⟩, .accepted .first 7 0, rfl, rfl, rfl, rfl, rfl⟩
  have hfed : Fed (fun handler => ∀ h r, Answers (handler h r)) .first 7 start (a ++ b) s :=
    .received (.received .start a) b
  have hstream : a ++ b = [get, post].flatMap Http.Message.bytes := by decide
  obtain ⟨hread, -, hserver⟩ :=
    @requests_of_stream (Transport.InMemory Nat) Nat (List Http.Request) _ _ 16384 [get, post] hms
  refine ⟨?_, ?_, by decide +kernel, by decide +kernel⟩
  · rw [hstream]
    exact (hread [71]).trans (by decide)
  · exact (hserver _ .first 7 start _ (keepOpen_of_answers _) hattends rfl (by decide) (hstream ▸ hfed)).2

end Server
end WebServer
