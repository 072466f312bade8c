import WebServer.Proofs.Http.Sent
import WebServer.Proofs.Server.Fragmentation
import WebServer.Proofs.Server.Upgrading

/-! # The limit on the size of a request

A request of any size comes in any pieces. As long as it is neither complete nor refused, its bytes are gathered and
nothing else happens. If it keeps to the limit it is dispatched with its last byte, as if all of it came at once. If it
does not, the session is answered for the last time as soon as that is known, and drops the rest. -/

namespace WebServer

open Http (SentRequest)

variable {τ κ σ : Type} [DecidableEq κ] [Transport τ κ]

namespace Engine

variable {e : Engine τ κ σ} {h : Handle} {t : Session κ} {response : Bytes}

/-! ## Bytes that are gathered -/

/-- The engine when a session has received bytes in pieces, and nothing was done about them. -/
def gatherAll (e : Engine τ κ σ) (h : Handle) (chunks : List Bytes) : Engine τ κ σ :=
  chunks.foldl (fun e chunk => e.gather h chunk) e

omit [DecidableEq κ] [Transport τ κ] in
theorem gather_gather (e : Engine τ κ σ) (h : Handle) (a b : Bytes) :
    (e.gather h a).gather h b = e.gather h (a ++ b) := by
  rw [gather, gather, gather, update_update e (f := fun t => Session.touch e.now { t with inbound := t.inbound ++ a })
    fun _ => Session.touch_handle _ _]
  congr 1
  funext u
  simp only [Session.touch_eq, Session.isEnding, List.append_assoc]
  cases u.closeSent <;> cases u.closing <;> rfl

omit [DecidableEq κ] [Transport τ κ] in
/-- Bytes behind those that came in pieces are gathered as if all had come at once. -/
theorem gatherAll_gather (e : Engine τ κ σ) (h : Handle) (chunks : List Bytes) (last : Bytes) :
    (e.gatherAll h chunks).gather h last = e.gather h (chunks.flatten ++ last) := by
  induction chunks generalizing e with
  | nil => rfl
  | cons chunk chunks ih =>
      rw [gatherAll, List.foldl_cons, List.flatten_cons, List.append_assoc, ← gather_gather]
      exact ih (e.gather h chunk)

/-! ## Last answers -/

/-- An open session is answered for the last time by one change of it and a flush. -/
theorem replyAndClose_eq (w : e.registry.WellFormed) (hs : e.session? h = some t) (ho : t.isEnding = false)
    (hr : response ≠ []) : e.replyAndClose h response = (((e.record (.queued h response)).update h fun _ =>
      t.dismissed e.now response).flush h).finishClose h := by
  obtain ⟨hsent, hclosing⟩ := Session.flags_of_open ho
  have hqueued := update_session?_of_some (e := e.record (.queued h response)) hs
    (f := fun u => { u with outbound := t.outbound.append response }) fun _ => rfl
  rw [replyAndClose, enqueue_of_session hs hr]
  refine (beginClose_eq hqueued hclosing).trans ?_
  rw [update_update _ (f := fun u => { u with outbound := t.outbound.append response }) fun _ => rfl]
  refine congrArg (fun m => (flush m h).finishClose h) (update_congr (e := e.record (.queued h response)) w hs ?_)
  rw [Session.dismissed, hsent]
  rfl

/-- What an open session has received, and when, does not matter to its last answer. -/
theorem replyAndClose_update (w : e.registry.WellFormed) (hs : e.session? h = some t) (ho : t.isEnding = false)
    (hr : response ≠ []) {f : Session κ → Session κ} (hf : ∀ u, (f u).handle = u.handle) (hc : ∀ u, (f u).conn = u.conn)
    {inbound : Bytes} {time : Nat} (hft : f t = { t with inbound, lastActivity := time }) :
    (e.update h f).replyAndClose h response = e.replyAndClose h response := by
  have hs' := update_session?_of_some hs hf
  have ho' : (f t).isEnding = false := hft ▸ ho
  rw [replyAndClose_eq (w.update hf hc) hs' ho' hr, replyAndClose_eq w hs ho hr]
  have hdismissed : (f t).dismissed (e.update h f).now response = t.dismissed e.now response := by
    rw [hft]
    rfl
  rw [hdismissed]
  exact congrArg (fun m => (flush m h).finishClose h) (update_update (e.record (.queued h response)) hf)

end Engine

namespace Server

variable {s : Server τ κ σ} {conn : κ} {h : Handle} {t : Session κ}

/-! ## One piece -/

/-- The server has an open session that speaks HTTP, and nothing else with its connection. -/
structure Serves (s : Server τ κ σ) (h : Handle) (conn : κ) (t : Session κ) : Prop where
  wellFormed : s.engine.registry.WellFormed
  session : s.engine.session? h = some t
  conn : t.conn = conn
  mode : t.mode = .http
  isOpen : t.isEnding = false

omit [DecidableEq κ] [Transport τ κ] in
theorem Serves.closing (v : Serves s h conn t) : t.closing = false :=
  (Session.flags_of_open v.isOpen).2

omit [Transport τ κ] in
theorem Serves.ofConn? (v : Serves s h conn t) : s.engine.registry.ofConn? conn = some t :=
  v.wellFormed.ofConn?_eq_some.mpr ⟨Registry.mem_of_get? v.session, v.conn⟩

theorem Serves.gather (v : Serves s h conn t) (data : Bytes) : Serves { s with engine := s.engine.gather h data } h conn
    { t with inbound := t.inbound ++ data, lastActivity := s.engine.now } := by
  have hmoves : Engine.Moves {} s.engine (s.engine.gather h data) := Engine.gather_moves trivial s.engine h data
  exact ⟨hmoves.wellFormed v.wellFormed, gather_session_of_open v.session v.isOpen data, v.conn, v.mode, v.isOpen⟩

theorem Serves.receive_eq (v : Serves s h conn t) (data : Bytes) :
    (s.receive conn data).2 = dispatch runInside h { s with engine := s.engine.gather h data } := by
  have hhandle : t.handle = h := Registry.handle_of_get? v.session
  rw [Server.receive_eq, receiveBy_of_open v.wellFormed v.ofConn? v.closing, hhandle]

/-- Bytes that are neither a whole request nor too many are gathered. -/
theorem Serves.receive_of_part (v : Serves s h conn t) {data : Bytes}
    (hr : Http.Head.read s.engine.config.maxRequestBytes (t.inbound ++ data) = .notYet)
    (hle : (t.inbound ++ data).length ≤ s.engine.config.maxRequestBytes) :
    (s.receive conn data).2 = { s with engine := s.engine.gather h data } := by
  have v' := v.gather data
  rw [v.receive_eq]
  exact dispatch_of_wait (Engine.next_of_notYet v'.session v'.mode v'.isOpen hr hle)

/-- Bytes that are refused are dropped with those before them. -/
theorem Serves.receive_of_refused (v : Serves s h conn t) {data response : Bytes}
    (hr : Http.Refused s.engine.config.maxRequestBytes (t.inbound ++ data) response) :
    (s.receive conn data).2 = { s with engine := s.engine.replyAndClose h response } := by
  have v' := v.gather data
  have hnext := Engine.next_of_refused v'.session v'.mode v'.isOpen hr
  have hclear := Engine.replyAndClose_update (f := fun u => { u with inbound := [] }) v'.wellFormed v'.session v'.isOpen
    hr.response_ne_nil (fun _ => rfl) (fun _ => rfl) rfl
  have hgather : (s.engine.gather h data).replyAndClose h response = s.engine.replyAndClose h response :=
    Engine.replyAndClose_update v.wellFormed v.session v.isOpen hr.response_ne_nil (fun _ => Session.touch_handle _ _)
      (fun _ => Session.touch_conn _ _)
      (Session.touch_of_open (t := { t with inbound := t.inbound ++ data }) v.isOpen s.engine.now)
  rw [v.receive_eq, dispatch_of_wait hnext]
  exact congrArg (fun engine => ({ s with engine } : Server τ κ σ)) (hclear.trans hgather)

/-! ## All pieces -/

/-- The bytes are a part of a request, as far as one can tell, and not too many. -/
structure Part (limit : Nat) (buffer : Bytes) : Prop where
  read : Http.Head.read limit buffer = .notYet
  length : buffer.length ≤ limit

theorem receiveAll_append (conn : κ) (front back : List Bytes) (s : Server τ κ σ) :
    receiveAll conn (front ++ back) s = receiveAll conn back (receiveAll conn front s) :=
  List.foldl_append

/-- A session that is closing drops whatever comes. -/
theorem receiveAll_of_closing (hof : s.engine.registry.ofConn? conn = some t) (hc : t.closing = true)
    (chunks : List Bytes) : receiveAll conn chunks s = s := by
  induction chunks with
  | nil => rfl
  | cons chunk chunks ih =>
      rw [receiveAll, List.foldl_cons, Server.receive_eq, receiveBy_of_closing hof hc]
      exact ih

/-- Pieces that leave the request a part are gathered. -/
theorem Serves.receiveAll_of_parts (v : Serves s h conn t) {chunks : List Bytes}
    (hparts : ∀ front, front <+: chunks → front ≠ [] →
      Part s.engine.config.maxRequestBytes (t.inbound ++ front.flatten)) :
    receiveAll conn chunks s = { s with engine := s.engine.gatherAll h chunks } := by
  induction chunks generalizing s t with
  | nil => rfl
  | cons chunk chunks ih =>
      have hfirst := hparts [chunk] (by simp) (by simp)
      rw [List.flatten_singleton] at hfirst
      have hreceive := v.receive_of_part hfirst.read hfirst.length
      rw [receiveAll, List.foldl_cons, hreceive]
      refine ih (v.gather chunk) fun front hfront _ => ?_
      have hlonger := hparts (chunk :: front) ((List.prefix_cons_inj chunk).mpr hfront) (by simp)
      rwa [List.flatten_cons, ← List.append_assoc] at hlonger

theorem Serves.gatherAll (v : Serves s h conn t) (chunks : List Bytes) :
    ∃ u, Serves { s with engine := s.engine.gatherAll h chunks } h conn u := by
  induction chunks generalizing s t with
  | nil => exact ⟨t, v⟩
  | cons chunk chunks ih => exact ih (v.gather chunk)

/-- With the piece behind them it is as if all had come at once. -/
theorem Serves.receiveAll_concat (v : Serves s h conn t) {chunks : List Bytes}
    (hparts : ∀ front, front <+: chunks → front ≠ [] →
      Part s.engine.config.maxRequestBytes (t.inbound ++ front.flatten)) (last : Bytes) :
    receiveAll conn (chunks ++ [last]) s = (s.receive conn (chunks.flatten ++ last)).2 := by
  obtain ⟨u, vu⟩ := v.gatherAll chunks
  have hlast := vu.receive_eq last
  rw [Engine.gatherAll_gather] at hlast
  rw [receiveAll_append, v.receiveAll_of_parts hparts, v.receive_eq]
  exact hlast

/-- The first pieces that are refused decide, and what comes behind them is dropped. -/
theorem Serves.receiveAll_of_refused (v : Serves s h conn t) {front : List Bytes}
    (hparts : ∀ part, part <+: front → part ≠ [] → Part s.engine.config.maxRequestBytes (t.inbound ++ part.flatten))
    {chunk response : Bytes}
    (hr : Http.Refused s.engine.config.maxRequestBytes (t.inbound ++ (front.flatten ++ chunk)) response)
    (back : List Bytes) :
    receiveAll conn (front ++ chunk :: back) s = { s with engine := s.engine.replyAndClose h response } := by
  obtain ⟨queue, -, hsession⟩ := (Engine.replyAndClose_dismisses v.session v.isOpen hr.response_ne_nil).session
  have hmoves : Engine.Moves {} s.engine (s.engine.replyAndClose h response) := Engine.replyAndClose_moves _ _ _
  have w := hmoves.wellFormed v.wellFormed
  have hof := w.ofConn?_eq_some.mpr ⟨Registry.mem_of_get? hsession, v.conn⟩
  rw [List.append_cons, receiveAll_append, v.receiveAll_concat hparts, v.receive_of_refused hr]
  exact receiveAll_of_closing (s := { s with engine := s.engine.replyAndClose h response }) hof rfl back

/-- Pieces of which not all beginnings have a property, and the first piece that breaks it. -/
theorem exists_first (chunks : List Bytes) {P : List Bytes → Prop} (hnil : P []) (hall : ¬P chunks) :
    ∃ front chunk back, chunks = front ++ chunk :: back ∧ (∀ part, part <+: front → P part) ∧ ¬P (front ++ [chunk]) := by
  induction chunks generalizing P with
  | nil => exact absurd hnil hall
  | cons chunk chunks ih =>
      by_cases hfirst : P [chunk]
      · obtain ⟨front, last, back, rfl, hparts, hbreaks⟩ := ih (P := fun part => P (chunk :: part)) hfirst hall
        refine ⟨chunk :: front, last, back, rfl, fun part hpart => ?_, hbreaks⟩
        cases part with
        | nil => exact hnil
        | cons first part =>
            obtain ⟨rfl, hrest⟩ := List.cons_prefix_cons.mp hpart
            exact hparts part hrest
      · refine ⟨[], chunk, chunks, rfl, fun part hpart => ?_, hfirst⟩
        rwa [List.prefix_nil.mp hpart]

/-! ## Requests that are too large -/

section

variable {r : SentRequest} {chunks : List Bytes} {limit : Nat}

/-- More bytes than the limit allows came before the head was there. -/
def HeadOverflows (limit : Nat) (r : SentRequest) (chunks : List Bytes) : Prop :=
  ∃ front, front <+: chunks ∧ limit < front.flatten.length ∧ front.flatten.length < r.front.length

/-- The server `s'` came from `s` by answering the session `t` once and for all, which no handler knows of. -/
structure RefusedWith (s : Server τ κ σ) (h : Handle) (t : Session κ) (response : Bytes) (s' : Server τ κ σ) : Prop where
  server : s' = { s with engine := s.engine.replyAndClose h response }
  dismisses : Engine.Dismisses s.engine h t response s'.engine
  queued : queuedOn h s'.engine.journal = queuedOn h s.engine.journal ++ [response]
  unhandled : handedOver s'.engine.journal = handedOver s.engine.journal
  session : ∃ u, s'.engine.session? h = some u ∧ u.closing = true ∧ u.inbound = []

theorem refusedWith (hs : s.engine.session? h = some t) (ho : t.isEnding = false) {response : Bytes}
    (hr : response ≠ []) {s' : Server τ κ σ} (hs' : s' = { s with engine := s.engine.replyAndClose h response }) :
    RefusedWith s h t response s' := by
  have hdismisses : Engine.Dismisses s.engine h t response s'.engine := hs' ▸ Engine.replyAndClose_dismisses hs ho hr
  obtain ⟨queue, -, hsession⟩ := hdismisses.session
  exact ⟨hs', hdismisses, hdismisses.queuedOn, hdismisses.handedOver, _, hsession, rfl, rfl⟩

section

variable (hw : r.WellFormed) {part more : Bytes} (hp : part ++ more = r.bytes)
include hw hp

/-- A part is refused for its size, with the head or before it. -/
theorem refused_for_size (hlarge : limit < r.bytes.length) (hn : ¬Part limit part)
    (hsize : r.bytes.length < sizeLimit ∨ part.length < r.front.length) :
    Http.Refused limit part Http.Response.payloadTooLarge := by
  by_cases hlt : part.length < r.front.length
  · have hread := hw.read_of_lt_front hp hlt limit
    exact .long hread (Nat.lt_of_not_le fun hle => hn ⟨hread, hle⟩)
  · exact .failed (hw.read_of_large (hsize.resolve_right hlt) hlarge hp (Nat.le_of_not_lt hlt))

/-- A part with a head that declares a length that is no size is refused for that. -/
theorem refused_for_length (hlong : sizeLimit ≤ r.bytes.length) (hle : r.front.length ≤ part.length) :
    Http.Refused limit part Http.Response.badRequest := by
  obtain ⟨value, hread⟩ := hw.read_of_long hlong hp hle limit
  exact .failed hread

end

/-- It is the piece where the request stops being a part of one that tells whether the head is too large. -/
theorem headOverflows_iff (hw : r.WellFormed) {front back : List Bytes} {chunk : Bytes}
    (hsplit : (front ++ [chunk]).flatten ++ back.flatten = r.bytes)
    (hparts : ∀ part, part <+: front → Part limit part.flatten) (hbreaks : ¬Part limit (front ++ [chunk]).flatten) :
    HeadOverflows limit r (front ++ chunk :: back) ↔ (front ++ [chunk]).flatten.length < r.front.length := by
  constructor
  · rintro ⟨early, hearly, hover, hlt⟩
    rw [List.append_cons] at hearly
    rcases List.prefix_or_prefix_of_prefix hearly (List.prefix_append (front ++ [chunk]) back) with hle | ⟨others, rfl⟩
    · rcases List.prefix_concat_iff.mp hle with rfl | hfront
      · exact hlt
      · exact absurd (hparts early hfront).length (Nat.not_le.mpr hover)
    · rw [List.flatten_append, List.length_append] at hlt
      omega
  · intro hlt
    have hover := Nat.lt_of_not_le fun hle => hbreaks ⟨hw.read_of_lt_front hsplit hlt limit, hle⟩
    exact ⟨front ++ [chunk], ⟨back, (List.append_cons front chunk back).symm⟩, hover, hlt⟩

/-- A request beyond the limit is refused, whatever pieces it comes in. -/
theorem Serves.receiveAll_of_large (v : Serves s h conn t) (ht : t.inbound = []) (hw : r.WellFormed)
    (hr : chunks.flatten = r.bytes) (hlarge : s.engine.config.maxRequestBytes < r.bytes.length) :
    (r.bytes.length < sizeLimit ∨ HeadOverflows s.engine.config.maxRequestBytes r chunks →
        RefusedWith s h t Http.Response.payloadTooLarge (receiveAll conn chunks s)) ∧
      (sizeLimit ≤ r.bytes.length → ¬HeadOverflows s.engine.config.maxRequestBytes r chunks →
        RefusedWith s h t Http.Response.badRequest (receiveAll conn chunks s)) := by
  obtain ⟨front, chunk, back, rfl, hparts, hbreaks⟩ := exists_first chunks
    (P := fun part => Part s.engine.config.maxRequestBytes part.flatten) ⟨rfl, Nat.zero_le _⟩
    fun hall => absurd hall.length (Nat.not_le.mpr (hr ▸ hlarge))
  have hsplit : (front ++ [chunk]).flatten ++ back.flatten = r.bytes := by
    rw [← hr, ← List.flatten_append, ← List.append_cons]
  rw [headOverflows_iff hw hsplit hparts hbreaks]
  have hserver {response : Bytes}
      (hrefused : Http.Refused s.engine.config.maxRequestBytes (front ++ [chunk]).flatten response) :
      RefusedWith s h t response (receiveAll conn (front ++ chunk :: back) s) := by
    refine refusedWith v.session v.isOpen hrefused.response_ne_nil ?_
    refine v.receiveAll_of_refused (fun part hpart _ => ?_) ?_ back
    · rw [ht]
      exact hparts part hpart
    · rw [ht, List.nil_append]
      rwa [List.flatten_append, List.flatten_singleton] at hrefused
  constructor
  · intro hsize
    exact hserver (refused_for_size hw hsplit hlarge hbreaks hsize)
  · intro hlong hnot
    exact hserver (refused_for_length hw hsplit hlong (Nat.le_of_not_lt hnot))

/-! ## Requests that are not -/

/-- A part of a request within the limit is a part, as far as one can tell. -/
theorem part_of_request (hw : r.WellFormed) (hsize : r.bytes.length < sizeLimit) (hlimit : r.bytes.length ≤ limit)
    {part more : Bytes} (hp : part ++ more = r.bytes) (hmore : more ≠ []) : Part limit part := by
  have hlength := congrArg List.length hp
  rw [List.length_append] at hlength
  exact ⟨hw.read_part hsize hlimit hp hmore, by omega⟩

omit [DecidableEq κ] [Transport τ κ] in
/-- All of a request is taken off when it is dispatched. -/
theorem Serves.dropInbound_gather (v : Serves s h conn t) (ht : t.inbound = []) (data : Bytes) :
    (s.engine.gather h data).dropInbound h data.length = s.engine.gather h [] := by
  rw [Engine.gather, Engine.dropInbound, Engine.gather, Engine.update_update s.engine
    (f := fun u => Session.touch s.engine.now { u with inbound := u.inbound ++ data }) fun _ => Session.touch_handle _ _]
  refine Engine.update_congr v.wellFormed v.session ?_
  simp [Session.touch_eq, Session.isEnding, ht]

/-- A whole request that asks for no upgrade is dispatched. -/
theorem Serves.receive_of_request (v : Serves s h conn t) (ht : t.inbound = []) {line : Http.RequestLine}
    (hr : Http.Head.read s.engine.config.maxRequestBytes r.bytes = .ready (r.head line))
    (hsize : r.bytes.length < sizeLimit) (hu : (r.request line).isUpgrade = false) :
    (s.receive conn r.bytes).2 = dispatchLoop runInside h r.bytes.length
      (handleRequest runInside h (r.request line) { s with engine := s.engine.gather h [] }) := by
  have v' := v.gather r.bytes
  have hinbound : t.inbound ++ r.bytes = r.bytes := by rw [ht, List.nil_append]
  rw [hinbound] at v'
  have hnext := Engine.next_of_ready v'.session v'.mode v'.isOpen hr
  have hrequest : (⟨r.bytes.take (r.head line).totalLength, r.head line, none⟩ : Http.Request) = r.request line := by
    rw [SentRequest.totalLength_head hsize, List.take_length]
    rfl
  dsimp only at hnext
  rw [hrequest, if_neg (by simp [hu]), SentRequest.totalLength_head hsize, v.dropInbound_gather ht] at hnext
  rw [v.receive_eq, dispatch, Engine.pending_of_session v'.session]
  exact dispatchLoop_of_next (d := .request (r.request line)) (by simp) hnext r.bytes.length

end

/-! ## Requests that are handled -/

end Server

namespace Engine

variable {e : Engine τ κ σ} {h : Handle}

/-- What is left of closing a session when its queue was flushed is no output. -/
theorem drain_queuedOn (w : e.registry.WellFormed) (h : Handle) :
    queuedOn h ((e.flush h).finishClose h).journal = queuedOn h e.journal := by
  cases hs : e.session? h with
  | none => rw [flush_of_none hs, finishClose, hs]
  | some t =>
      obtain ⟨queue, -, hsession, hqueued⟩ := flush_quiet hs
      have hmoves : Moves {} e (e.flush h) := flush_moves e h
      rw [finishClose, hsession]
      dsimp only
      split
      · rw [forceClose_queuedOn (hmoves.wellFormed w) hsession, hqueued]
      · exact hqueued

theorem beginClose_queuedOn (w : e.registry.WellFormed) (h : Handle) :
    queuedOn h (e.beginClose h).journal = queuedOn h e.journal := by
  cases hs : e.session? h with
  | none => rw [beginClose, hs]
  | some t =>
      cases hc : t.closing with
      | true =>
          rw [beginClose, hs]
          dsimp only
          rw [if_pos hc]
          exact drain_queuedOn w h
      | false =>
          rw [beginClose_eq hs hc]
          refine drain_queuedOn (e := e.update h _) ?_ h
          exact w.update (fun _ => rfl) fun _ => rfl

end Engine

/-- The report of a handler leads to no output, or to an answer in its place. -/
theorem Deed.concluded_queuedOn {e : Engine τ κ σ} {h : Handle} (r : e.registry.Regular)
    (a : e.registry.At h fun t => t.mode = .http) (reply : Reply) :
    queuedOn h ((Deed.concluded h reply).act e).journal = queuedOn h e.journal ∨
      queuedOn h ((Deed.concluded h reply).act e).journal = queuedOn h e.journal ++ [Http.Response.notFound] := by
  rw [Deed.act, Server.conclude]
  dsimp only
  cases hs : e.session? h with
  | none => exact .inl rfl
  | some t =>
      dsimp only
      split
      · split
        · exact .inl rfl
        · rename_i ho
          have hopen := Engine.isEnding_of_http r a (.of_get? hs (by simpa using ho)) t hs
          exact .inr (Engine.replyAndClose_dismisses hs hopen (by decide)).queuedOn
      · split
        · obtain ⟨-, -, -, hqueued⟩ := Engine.flush_quiet hs
          exact .inl hqueued
        · exact .inl (Engine.beginClose_queuedOn r.wellFormed h)

namespace Server

variable {s : Server τ κ σ} {conn : κ} {h : Handle} {t : Session κ}

/-- The server that a handler of requests finds, whose place is empty meanwhile. -/
def calling (h : Handle) (r : Http.Request) (s : Server τ κ σ) : Server τ κ σ :=
  { s with engine := s.engine.record (.request h r), handlers := { s.handlers with request := none } }

/-- The engine when the handler of a request has run, and its report is not acted upon yet. -/
def handled (run : Runner τ κ σ) (h : Handle) (r : Http.Request) (s : Server τ κ σ) : Engine τ κ σ :=
  match s.handlers.request with
  | none => s.engine
  | some handler => (run (handler h r) (s.calling h r)).2.engine

theorem handleRequest_engine (run : Runner τ κ σ) (h : Handle) (r : Http.Request) (s : Server τ κ σ) :
    ∃ reply, (handleRequest run h r s).engine = (Deed.concluded h reply).act (handled run h r s) := by
  rw [handleRequest, handled]
  cases s.handlers.request with
  | none => exact ⟨{}, conclude_engine h {} s⟩
  | some handler => exact ⟨_, conclude_engine h _ _⟩

/-- Handlers that make calls hand nothing over. -/
theorem runBy_handedOver (receive : κ → Bytes → Server τ κ σ → Nat × Server τ κ σ) {program : Program τ κ σ}
    (hp : program.Within (.applicationCalls τ κ σ)) (hs : s.handlers.Within (.applicationCalls τ κ σ))
    (r : s.engine.registry.Regular) : (runBy receive program s).2.engine.registry.Regular ∧
      handedOver (runBy receive program s).2.engine.journal = handedOver s.engine.journal := by
  refine (runBy_preserves (I := fun m => m.registry.Regular ∧ handedOver m.journal = handedOver s.engine.journal) receive
    (fun e c _ hI => ?_) (fun hr => False.elim hr) hp hs ⟨r, rfl⟩).1
  refine ⟨(c.acts e).regular hI.1, ((c.acts e).handedOver hI.1 ?_).trans hI.2⟩
  cases c <;> exact id

/-- A session whose bytes are used up waits. -/
theorem dispatchLoop_of_nothing (hp : s.engine.pending h = 0) (run : Runner τ κ σ) (fuel : Nat) :
    dispatchLoop run h fuel s = s := by
  cases fuel with
  | zero => rfl
  | succ fuel => exact dispatchLoop_of_wait (Engine.next_of_pending hp) fuel

section

variable (hs : s.handlers.Within (.applicationCalls τ κ σ)) (r : s.engine.registry.Regular) (h : Handle)
  (request : Http.Request)
include hs r

theorem handled_moves : Engine.Moves (.still τ) s.engine (handled runInside h request s) ∧
    (handled runInside h request s).registry.Regular := by
  rw [handled]
  cases hslot : s.handlers.request with
  | none => exact ⟨.refl, r⟩
  | some handler =>
      have hprogram := hs.request handler hslot h request
      have hnone : (s.calling h request).handlers.Within (.applicationCalls τ κ σ) := hs.withRequest (by simp)
      have hnote : Engine.Moves (.still τ) s.engine (s.calling h request).engine := .single (.noted trivial)
      have hleads := runBy_leads_still (receiveWithin (receiveDepth - 1)) (handler h request) _ hprogram hnone
      exact ⟨hnote.trans hleads.moves, (runBy_handedOver _ hprogram hnone r).1⟩

theorem handleRequest_handedOver {handler : Handle → Http.Request → Program τ κ σ} (hh : handler ∈ s.handlers.request) :
    handedOver (handleRequest runInside h request s).engine.journal =
      handedOver s.engine.journal ++ [.request h request] := by
  obtain ⟨reply, hengine⟩ := handleRequest_engine runInside h request s
  have hregular := (handled_moves hs r h request).2
  have hnone : (s.calling h request).handlers.Within (.applicationCalls τ κ σ) := hs.withRequest (by simp)
  have hprogram := runBy_handedOver (receiveWithin (receiveDepth - 1)) (hs.request handler hh h request) hnone r
  rw [hengine, ((Deed.concluded h reply).acts _).handedOver hregular id, handled, hh]
  exact hprogram.2.trans (handedOver_cons rfl s.engine.journal)

theorem handleRequest_queuedOn (a : s.engine.registry.At h fun t => t.mode = .http) :
    queuedOn h (handleRequest runInside h request s).engine.journal =
        queuedOn h (handled runInside h request s).journal ∨
      queuedOn h (handleRequest runInside h request s).engine.journal =
        queuedOn h (handled runInside h request s).journal ++ [Http.Response.notFound] := by
  obtain ⟨reply, hengine⟩ := handleRequest_engine runInside h request s
  obtain ⟨hmoves, hregular⟩ := handled_moves hs r h request
  have hmode : (handled runInside h request s).registry.At h fun t => t.mode = .http :=
    hmoves.at id r.wellFormed a fun t u hc hm => (hc.mode.resolve_right fun hup => hup.1).trans hm
  rw [hengine]
  exact Deed.concluded_queuedOn hregular hmode reply

/-- Nothing is left to take off when the request of a session was the last. -/
theorem dispatchLoop_handleRequest (hp : s.engine.pending h = 0) (fuel : Nat) :
    dispatchLoop runInside h fuel (handleRequest runInside h request s) = handleRequest runInside h request s := by
  have hleads := handleRequest_leads (runBy_leads_still (receiveWithin (receiveDepth - 1))) h request hs
  have hle := Engine.pending_of_moves hleads.moves id id r.wellFormed h
  exact dispatchLoop_of_nothing (Nat.le_zero.mp (hp ▸ hle)) runInside fuel

end

/-! ## The limit -/

/-- What a server makes of a request within the limit that comes in pieces: it gathers them until the last byte is
there, and then deals with the request as if all of it had come at once. -/
structure Dispatches (s : Server τ κ σ) (h : Handle) (conn : κ) (t : Session κ) (r : SentRequest)
    (line : Http.RequestLine) (chunks : List Bytes) : Prop where
  waits : ∀ front, front <+: chunks → front ≠ chunks →
    receiveAll conn front s = { s with engine := s.engine.gatherAll h front }
  atOnce : receiveAll conn chunks s = (s.receive conn r.bytes).2
  handed : (r.request line).isUpgrade = false → receiveAll conn chunks s = dispatchLoop runInside h r.bytes.length
    (handleRequest runInside h (r.request line) { s with engine := s.engine.gather h [] })
  /-- A handler that makes calls is called this once. -/
  once : (r.request line).isUpgrade = false → s.handlers.Within (.applicationCalls τ κ σ) →
    receiveAll conn chunks s = handleRequest runInside h (r.request line) { s with engine := s.engine.gather h [] } ∧
      ∀ handler ∈ s.handlers.request, handedOver (receiveAll conn chunks s).engine.journal =
        handedOver s.engine.journal ++ [.request h (r.request line)]
  /-- What is queued then the handler has queued, or it is the answer in place of a handler. -/
  queued : (r.request line).isUpgrade = false → s.handlers.Within (.applicationCalls τ κ σ) →
    ∀ data ∈ queuedOn h (receiveAll conn chunks s).engine.journal, data = Http.Response.notFound ∨
      data ∈ queuedOn h (handled runInside h (r.request line) { s with engine := s.engine.gather h [] }).journal
  upgrade : (r.request line).isUpgrade = true → ∃ fuel, AnswersUpgrade (receiveDepth - 1) fuel h
    { t with inbound := r.bytes, lastActivity := s.engine.now } (r.head line)
    { s with engine := s.engine.gather h r.bytes } (receiveAll conn chunks s)
  answered : (r.request line).isUpgrade = true → ∃ answer, answer ≠ Http.Response.payloadTooLarge ∧
    queuedOn h (receiveAll conn chunks s).engine.journal = queuedOn h s.engine.journal ++ [answer] ∧
    handedOver (receiveAll conn chunks s).engine.journal = handedOver s.engine.journal

theorem switchingProtocols_ne_payloadTooLarge (accept : String) :
    WebSocket.switchingProtocols accept ≠ Http.Response.payloadTooLarge := by
  intro he
  have hversion := congrArg (fun bytes : Bytes => bytes[7]?) he
  rw [WebSocket.switchingProtocols, Text.utf8] at hversion
  simp only [String.toList_append] at hversion
  exact absurd hversion (show some 49 ≠ some 48 by decide)

/-- A request for an upgrade with nothing behind it is answered once, and not for its size. -/
theorem AnswersUpgrade.answered {depth fuel : Nat} {head : Http.Head} {s' : Server τ κ σ}
    (au : AnswersUpgrade depth fuel h t head s s') (hrest : t.inbound.drop head.totalLength = []) :
    ∃ answer, answer ≠ Http.Response.payloadTooLarge ∧
      queuedOn h s'.engine.journal = queuedOn h s.engine.journal ++ [answer] ∧
      handedOver s'.engine.journal = handedOver s.engine.journal := by
  by_cases hk : ∃ key, WebSocket.Handshake ⟨t.inbound.take head.totalLength, head, none⟩ key
  · obtain ⟨key, hk⟩ := hk
    obtain ⟨e', up⟩ := au.accepted key hk
    obtain ⟨queue, -, hsession⟩ := up.switches.session
    have hpending : e'.pending h = 0 := by
      rw [Engine.pending_of_session hsession, Session.switched, hrest]
      rfl
    have hs' := up.continues.trans (dispatchLoop_of_nothing (s := { s with engine := e' }) hpending _ fuel)
    rw [hs']
    exact ⟨_, switchingProtocols_ne_payloadTooLarge _, up.queued, up.unhandled⟩
  · obtain ⟨e', refused⟩ := au.refused (not_exists.mp hk)
    rw [refused.ends]
    exact ⟨Http.Response.badRequest, by decide, refused.queued, refused.unhandled⟩

/-- A request within the limit comes in pieces on a session that has received nothing before. -/
structure Comes (s : Server τ κ σ) (t : Session κ) (r : SentRequest) (chunks : List Bytes) : Prop where
  first : t.inbound = []
  wellFormed : r.WellFormed
  size : r.bytes.length < sizeLimit
  limit : r.bytes.length ≤ s.engine.config.maxRequestBytes
  pieces : ∀ chunk ∈ chunks, chunk ≠ []
  bytes : chunks.flatten = r.bytes

section

variable {r : SentRequest} {chunks : List Bytes} (v : Serves s h conn t) (c : Comes s t r chunks)

omit [DecidableEq κ] [Transport τ κ] in
include c in
theorem Comes.part {front : List Bytes} (hfront : front <+: chunks) (hproper : front.length < chunks.length) :
    Part s.engine.config.maxRequestBytes (t.inbound ++ front.flatten) := by
  obtain ⟨back, rfl⟩ := hfront
  have hbytes := c.bytes
  rw [List.flatten_append] at hbytes
  rw [c.first, List.nil_append]
  refine part_of_request c.wellFormed c.size c.limit hbytes ?_
  rw [List.length_append] at hproper
  obtain ⟨chunk, back, rfl⟩ := List.exists_cons_of_length_pos (show 0 < back.length by omega)
  rw [List.flatten_cons, Ne, List.append_eq_nil_iff]
  exact fun hback => c.pieces chunk (by simp) hback.1

include v c

theorem Serves.receiveAll_of_front {front : List Bytes} (hfront : front <+: chunks)
    (hproper : front.length < chunks.length) :
    receiveAll conn front s = { s with engine := s.engine.gatherAll h front } := by
  apply v.receiveAll_of_parts
  intro part hpart _
  exact c.part (hpart.trans hfront) (Nat.lt_of_le_of_lt hpart.length_le hproper)

theorem Serves.receiveAll_of_request : receiveAll conn chunks s = (s.receive conn r.bytes).2 := by
  rcases List.eq_nil_or_concat' chunks with rfl | ⟨front, last, rfl⟩
  · have hlength := congrArg List.length c.bytes
    have hpos := r.length_front_pos
    rw [SentRequest.length_bytes, List.flatten_nil, List.length_nil] at hlength
    omega
  · rw [← c.bytes, List.flatten_append, List.flatten_singleton]
    apply v.receiveAll_concat
    intro part hpart _
    have hproper : part.length < (front ++ [last]).length := by
      rw [List.length_append]
      exact Nat.lt_add_one_of_le hpart.length_le
    exact c.part (hpart.trans (List.prefix_append _ _)) hproper

variable (hregular : s.engine.registry.Regular) {line : Http.RequestLine} (hline : r.line? = some line)
include hline

theorem Serves.receiveAll_of_no_upgrade (hu : (r.request line).isUpgrade = false) :
    receiveAll conn chunks s = dispatchLoop runInside h r.bytes.length
      (handleRequest runInside h (r.request line) { s with engine := s.engine.gather h [] }) := by
  have hread := c.wellFormed.read_bytes hline c.size c.limit
  exact (v.receiveAll_of_request c).trans (v.receive_of_request c.first hread c.size hu)

include hregular

theorem Serves.receiveAll_handles (hu : (r.request line).isUpgrade = false)
    (hs : s.handlers.Within (.applicationCalls τ κ σ)) : receiveAll conn chunks s =
      handleRequest runInside h (r.request line) { s with engine := s.engine.gather h [] } := by
  have hgathered : (s.engine.gather h []).registry.Regular := Engine.after_regular hregular [.received h []]
  have hpending : (s.engine.gather h []).pending h = 0 := by
    rw [Engine.pending_of_session (v.gather []).session, c.first]
    rfl
  rw [v.receiveAll_of_no_upgrade c hline hu]
  exact dispatchLoop_handleRequest (s := { s with engine := s.engine.gather h [] }) hs hgathered h (r.request line)
    hpending r.bytes.length

theorem Serves.receiveAll_answersUpgrade (hu : (r.request line).isUpgrade = true) :
    ∃ fuel, AnswersUpgrade (receiveDepth - 1) fuel h { t with inbound := r.bytes, lastActivity := s.engine.now }
      (r.head line) { s with engine := s.engine.gather h r.bytes } (receiveAll conn chunks s) := by
  have hsession : ({ t with inbound := r.bytes, lastActivity := s.engine.now } : Session κ) =
      { t with inbound := t.inbound ++ r.bytes, lastActivity := s.engine.now } := by
    rw [c.first, List.nil_append]
  have hrequest : (⟨r.bytes.take (r.head line).totalLength, r.head line, none⟩ : Http.Request) = r.request line := by
    rw [SentRequest.totalLength_head c.size, List.take_length]
    rfl
  have ask : AsksUpgrade s.engine.config.maxRequestBytes { t with inbound := r.bytes, lastActivity := s.engine.now }
      (r.head line) := ⟨v.mode, v.closing, c.wellFormed.read_bytes hline c.size c.limit, hrequest ▸ hu⟩
  obtain ⟨fuel, -, answers⟩ := (upgradesWhole_of_regular hregular h).received conn t (r.head line) r.bytes v.ofConn?
    (Registry.handle_of_get? v.session) _ hsession ask
  rw [v.receiveAll_of_request c]
  exact ⟨fuel, answers⟩

/-- A request within the limit is dispatched as if all of it had come at once. -/
theorem Serves.dispatches : Dispatches s h conn t r line chunks where
  waits front hfront hproper := by
    refine v.receiveAll_of_front c hfront (Nat.lt_of_le_of_ne hfront.length_le ?_)
    exact fun hlength => hproper (hfront.eq_of_length hlength)
  atOnce := v.receiveAll_of_request c
  handed hu := v.receiveAll_of_no_upgrade c hline hu
  once hu hs := by
    have hhandles := v.receiveAll_handles c hregular hline hu hs
    have hgathered : (s.engine.gather h []).registry.Regular := Engine.after_regular hregular [.received h []]
    refine ⟨hhandles, fun handler hh => ?_⟩
    rw [hhandles]
    exact handleRequest_handedOver (s := { s with engine := s.engine.gather h [] }) hs hgathered h _ hh
  queued hu hs data hdata := by
    have hgathered : (s.engine.gather h []).registry.Regular := Engine.after_regular hregular [.received h []]
    have hqueued := handleRequest_queuedOn (s := { s with engine := s.engine.gather h [] }) hs hgathered h
      (r.request line) (.of_get? (v.gather []).session v.mode)
    rw [v.receiveAll_handles c hregular hline hu hs] at hdata
    rcases hqueued with hsame | hanswer
    · exact .inr (hsame ▸ hdata)
    · rw [hanswer, List.mem_append, List.mem_singleton] at hdata
      exact hdata.symm
  upgrade hu := v.receiveAll_answersUpgrade c hregular hline hu
  answered hu := by
    obtain ⟨fuel, answers⟩ := v.receiveAll_answersUpgrade c hregular hline hu
    refine answers.answered ?_
    rw [SentRequest.totalLength_head c.size]
    exact List.drop_length

end

/-- What becomes of a request that comes in pieces on the session `t`. -/
structure LimitsExactly (s : Server τ κ σ) (h : Handle) (conn : κ) (t : Session κ) (r : SentRequest)
    (chunks : List Bytes) : Prop where
  within : r.bytes.length ≤ s.engine.config.maxRequestBytes →
    ∃ line, r.line? = some line ∧ Dispatches s h conn t r line chunks
  large : s.engine.config.maxRequestBytes < r.bytes.length → r.bytes.length < sizeLimit →
    RefusedWith s h t Http.Response.payloadTooLarge (receiveAll conn chunks s)
  /-- A length that is no size is not measured, so that only the head can be too large. -/
  overflowing : sizeLimit ≤ r.bytes.length → HeadOverflows s.engine.config.maxRequestBytes r chunks →
    RefusedWith s h t Http.Response.payloadTooLarge (receiveAll conn chunks s)
  unmeasured : sizeLimit ≤ r.bytes.length → ¬HeadOverflows s.engine.config.maxRequestBytes r chunks →
    RefusedWith s h t Http.Response.badRequest (receiveAll conn chunks s)

theorem Serves.limitsExactly {r : SentRequest} {chunks : List Bytes} (v : Serves s h conn t)
    (hregular : s.engine.registry.Regular) (ht : t.inbound = [])
    (hlimit : s.engine.config.maxRequestBytes < sizeLimit) (hw : r.WellFormed) (hne : ∀ chunk ∈ chunks, chunk ≠ [])
    (hr : chunks.flatten = r.bytes) : LimitsExactly s h conn t r chunks where
  within hle := by
    obtain ⟨line, hline⟩ := Option.isSome_iff_exists.mp hw.line
    have c : Comes s t r chunks := ⟨ht, hw, Nat.lt_of_le_of_lt hle hlimit, hle, hne, hr⟩
    exact ⟨line, hline, v.dispatches c hregular hline⟩
  large hlt hsize := (v.receiveAll_of_large ht hw hr hlt).1 (.inl hsize)
  overflowing hlong hover := (v.receiveAll_of_large ht hw hr (Nat.lt_of_lt_of_le hlimit hlong)).1 (.inr hover)
  unmeasured hlong hnot := (v.receiveAll_of_large ht hw hr (Nat.lt_of_lt_of_le hlimit hlong)).2 hlong hnot

/-- In any run, the first request of a session is dispatched with its last byte if its size, with the empty lines in
front of it and the body that it declares, is within the limit. If it is not, and is a size at all, the request is
answered as too large as soon as that is known, and no handler hears of it, whatever pieces it comes in. -/
theorem limitsExactly_of_reaches {config : Config} {transport : τ} {app : σ} {time : Nat} {r : SentRequest}
    {chunks : List Bytes} (hs : Reaches (fun _ _ => True) (new config transport app) s)
    (hsession : s.engine.session? h = some (.accepted h conn time)) (hlimit : config.maxRequestBytes < sizeLimit)
    (hw : r.WellFormed) (hne : ∀ chunk ∈ chunks, chunk ≠ []) (hr : chunks.flatten = r.bytes) :
    LimitsExactly s h conn (.accepted h conn time) r chunks := by
  obtain ⟨ds, hc⟩ := hs.course
  have hstart : (new config transport app : Server τ κ σ).engine.registry.Regular := Registry.regular_new _
  have hregular := Engine.after_regular hstart ds
  have hconfig := congrArg Config.maxRequestBytes (Engine.after_config hstart ds)
  rw [← hc.engine] at hregular hconfig
  have v : Serves s h conn (.accepted h conn time) := ⟨hregular.wellFormed, hsession, rfl, rfl, rfl⟩
  exact v.limitsExactly hregular rfl (hconfig.trans_lt hlimit) hw hne hr

/-- A request behind an empty line that is just within the limit, and the same request where the limit is one byte
less. -/
theorem limitsExactly_of_boundary :
    let answer : Handle → Http.Request → Program (Transport.InMemory Nat) Nat Unit := fun h _ =>
      .call (.send h [111, 107]) fun _ => .done { handled := true, keepOpen := true }
    let start (limit : Nat) : Server (Transport.InMemory Nat) Nat Unit :=
      [.call (.accept 7), .onRequest answer].foldl apply (new { maxRequestBytes := limit } {} ())
    let r : SentRequest := ⟨1, "POST / HTTP/1.1\r\nContent-Length: 2".toList, [104, 105]⟩
    let chunks := [r.front, [104], [105]]
    r.bytes.length = 42 ∧ (∀ limit, limit < sizeLimit →
        LimitsExactly (start limit) .first 7 (.accepted .first 7 0) r chunks) ∧
      queuedOn .first (receiveAll 7 chunks (start 42)).engine.journal = [[111, 107]] ∧
      queuedOn .first (receiveAll 7 chunks (start 41)).engine.journal = [Http.Response.payloadTooLarge] := by
  intro answer start r chunks
  have hw : r.WellFormed := ⟨by decide, by decide, by decide, by decide,
    .inl ⟨"2", by decide, ['2'], .inl rfl, by decide, List.all_eq_true.mp (by decide), by decide⟩⟩
  refine ⟨by decide, fun limit hlimit => ?_, by decide, by decide⟩
  have hreaches : Reaches (fun _ _ => True) (new { maxRequestBytes := limit } {} ()) (start limit) :=
    reaches_foldl .start (by simp)
  exact limitsExactly_of_reaches hreaches rfl hlimit hw (by decide) (by decide)

/-- A request that declares the largest size for its body. -/
def declaringMaxSize (body : Bytes) : SentRequest :=
  ⟨0, "POST / HTTP/1.1\r\nContent-Length: 18446744073709551615".toList, body⟩

theorem declaringMaxSize_wellFormed {body : Bytes} (hbody : body.length = maxSize) :
    (declaringMaxSize body).WellFormed where
  size := (by decide : (declaringMaxSize []).front.length < sizeLimit)
  line := (by decide : (declaringMaxSize []).line?.isSome)
  begins := (by decide : ¬Bytes.crlf <+: (declaringMaxSize []).lines)
  ends := (by decide : ∀ n < (Text.encode (declaringMaxSize []).text).length,
    ¬Bytes.blankLine <+: (declaringMaxSize []).lines.drop n)
  body := by
    have hvalue : Http.Head.valueOf? (declaringMaxSize []).headers "Content-Length" = some "18446744073709551615" := by
      decide
    have hdigits : Text.digitsValue "18446744073709551615".toList = maxSize := by decide
    have hall : "18446744073709551615".toList.all Char.isDigit = true := by decide
    exact .inl ⟨_, hvalue, "18446744073709551615".toList, .inl rfl, by decide, List.all_eq_true.mp hall,
      hdigits.trans hbody.symm⟩

/-- A request far beyond the limit that is not refused for its size, since the length it declares does not fit one. -/
theorem badRequest_of_declared_maxSize :
    let start : Server (Transport.InMemory Nat) Nat Unit := [.call (.accept 7)].foldl apply (new {} {} ())
    let r := declaringMaxSize (List.replicate maxSize 0)
    let s := receiveAll 7 [r.front, r.body] start
    start.engine.session? .first = some (.accepted .first 7 0) ∧ r.WellFormed ∧ [r.front, r.body].flatten = r.bytes ∧
      (∀ chunk ∈ [r.front, r.body], chunk ≠ []) ∧ start.engine.config.maxRequestBytes < r.bytes.length ∧
      queuedOn .first s.engine.journal = [Http.Response.badRequest] ∧
      Http.Response.badRequest ≠ Http.Response.payloadTooLarge := by
  intro start
  have hbody := List.length_replicate (n := maxSize) (a := (0 : UInt8))
  generalize List.replicate maxSize (0 : UInt8) = body at hbody
  intro r s
  have hw : r.WellFormed := declaringMaxSize_wellFormed hbody
  have hfront : r.front.length = 57 := (by decide : (declaringMaxSize []).front.length = 57)
  have hlength : r.bytes.length = 57 + maxSize := by rw [SentRequest.length_bytes, hfront]; exact congrArg _ hbody
  have hflatten : [r.front, r.body].flatten = r.bytes := by simp [SentRequest.bytes]
  have hlarge : start.engine.config.maxRequestBytes < r.bytes.length :=
    hlength ▸ (by decide : start.engine.config.maxRequestBytes < 57 + maxSize)
  have hlong : sizeLimit ≤ r.bytes.length := hlength ▸ (by decide : sizeLimit ≤ 57 + maxSize)
  have hreaches : Reaches (fun _ _ => True) (new {} {} ()) start := reaches_foldl .start (by simp)
  have v : Serves start .first 7 (.accepted .first 7 0) := ⟨hreaches.wellFormed, rfl, rfl, rfl, rfl⟩
  -- The head comes whole, so that it is never too large.
  have hnot : ¬HeadOverflows start.engine.config.maxRequestBytes r [r.front, r.body] := by
    rintro ⟨front, hprefix, hover, hlt⟩
    cases front with
    | nil => exact absurd hover (Nat.not_lt_zero _)
    | cons first others =>
        obtain ⟨rfl, -⟩ := List.cons_prefix_cons.mp hprefix
        rw [List.flatten_cons, List.length_append] at hlt
        omega
  have hrefused : RefusedWith start .first (.accepted .first 7 0) Http.Response.badRequest s :=
    (v.receiveAll_of_large rfl hw hflatten hlarge).2 hlong hnot
  have hqueued := hrefused.queued
  rw [(by decide : queuedOn .first start.engine.journal = []), List.nil_append] at hqueued
  have hsession : start.engine.session? .first = some (.accepted .first 7 0) := rfl
  have hne : Http.Response.badRequest ≠ Http.Response.payloadTooLarge := by decide
  refine ⟨hsession, hw, hflatten, ?_, hlarge, hqueued, hne⟩
  have hfirst : r.front ≠ [] := List.ne_nil_of_length_pos r.length_front_pos
  have hsecond : r.body ≠ [] := List.ne_nil_of_length_pos (hbody ▸ (by decide : 0 < maxSize))
  simp [hfirst, hsecond]

end Server

end WebServer
