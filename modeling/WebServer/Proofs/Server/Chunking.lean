import WebServer.Proofs.Inbound.Cut
import WebServer.Proofs.Server.Runs
import WebServer.Transport.InMemory

/-! # Received bytes come in any pieces

Handlers that only send and close do not notice whether more bytes have come behind the message they are given.
So bytes that come in two pieces do what they do in one. -/

namespace WebServer

variable {τ κ σ : Type}

/-- An engine without the bytes it has received. -/
def Engine.withoutInbound (e : Engine τ κ σ) : Engine τ κ σ :=
  { e with registry := { e.registry with sessions := e.registry.sessions.map fun t => { t with inbound := [] } } }

/-- Programs that send and close, and do not see the bytes that are not part of a message yet. -/
def Permit.output (τ κ σ : Type) : Permit τ κ σ where
  call
    | .send .. | .sendMessage .. | .sendBinary .. | .broadcast _ | .serve .. | .close _ | .inspect | .setApp _ => True
    | _ => False
  reenter := False
  alike
    | .inspect, answer, answer' => Engine.withoutInbound answer = Engine.withoutInbound answer'
    | _, _, _ => False

def Server.extend (h : Handle) (more : Bytes) (s : Server τ κ σ) : Server τ κ σ :=
  { s with engine := s.engine.extend h more }

namespace Engine

variable [DecidableEq κ] [Transport τ κ]

omit [DecidableEq κ] [Transport τ κ] in
theorem withoutInbound_extend (h : Handle) (more : Bytes) (e : Engine τ κ σ) :
    (e.extend h more).withoutInbound = e.withoutInbound := by
  simp only [withoutInbound, extend, Registry.extend, List.map_map]
  congr 3
  funext t
  simp only [Function.comp_apply, Session.extend]
  split <;> rfl

/-- A call that sends or closes does the same with more bytes received, and its answer does not tell. -/
theorem perform_extend (h : Handle) (more : Bytes) (e : Engine τ κ σ) {c : Call τ κ σ}
    (hc : (Permit.output τ κ σ).call c) :
    ((e.extend h more).perform c).2 = (e.perform c).2.extend h more ∧
      (((e.extend h more).perform c).1 = (e.perform c).1 ∨
        (Permit.output τ κ σ).alike c ((e.extend h more).perform c).1 (e.perform c).1) := by
  have told {β : Type} {P : Prop} {answer answer' : β × Engine τ κ σ}
      (he : answer' = Prod.map id (extend h more) answer) :
      answer'.2 = answer.2.extend h more ∧ (answer'.1 = answer.1 ∨ P) := by
    rw [he]
    exact ⟨rfl, .inl rfl⟩
  cases c with
  | send k data => exact told (send_extend h more e k data)
  | sendMessage k text => exact told (sendFrame_extend h more e k .text (Text.utf8 text))
  | sendBinary k data => exact told (sendFrame_extend h more e k .binary data)
  | broadcast text => exact told (broadcast_extend h more e text)
  | serve files k r => exact told (serve_extend h more e files k r)
  | close k => exact told (close_extend h more e k)
  | inspect => exact ⟨rfl, .inr (withoutInbound_extend h more e)⟩
  | setApp app => exact ⟨rfl, .inl rfl⟩
  | _ => exact hc.elim

end Engine

namespace Server

variable [DecidableEq κ] [Transport τ κ]

/-! ## Handlers -/

theorem runBy_extend (receive : κ → Bytes → Server τ κ σ → Nat × Server τ κ σ) {program : Program τ κ σ}
    (hp : program.Within (.output τ κ σ)) (h : Handle) (more : Bytes) (s : Server τ κ σ) :
    runBy receive program (s.extend h more) = Prod.map id (Server.extend h more) (runBy receive program s) := by
  induction hp generalizing s with
  | done reply => rfl
  | @call c next hc ha _ ih =>
      obtain ⟨hengine, hanswer⟩ := s.engine.perform_extend h more hc
      have hnext : next ((s.extend h more).engine.perform c).1 = next (s.engine.perform c).1 := by
        rcases hanswer with heq | halike
        · exact congrArg next heq
        · exact ha _ _ halike
      have hserver : ({ s.extend h more with engine := ((s.extend h more).engine.perform c).2 } : Server τ κ σ) =
          Server.extend h more { s with engine := (s.engine.perform c).2 } :=
        congrArg (fun engine => ({ s with engine } : Server τ κ σ)) hengine
      rw [runBy, runBy]
      dsimp only
      rw [hnext, hserver, ih]
  -- Nothing else is permitted.
  | receive hr => exact hr.elim
  | onRequest hr => exact hr.elim
  | onMessage hr => exact hr.elim
  | onBinary hr => exact hr.elim

theorem conclude_extend (h : Handle) (more : Bytes) (k : Handle) (reply : Reply) (s : Server τ κ σ) :
    (s.extend h more).conclude k reply = (s.conclude k reply).extend h more := by
  have he : (s.extend h more).engine = s.engine.extend h more := rfl
  rw [conclude, conclude, he, Engine.session?_extend]
  cases s.engine.session? k with
  | none => rfl
  | some t =>
      dsimp only [Option.map_some]
      rw [Session.extend_closing]
      split
      · split
        · rfl
        · exact congrArg (fun engine => ({ s with engine } : Server τ κ σ)) (s.engine.replyAndClose_extend h more k _)
      · split
        · exact congrArg (fun engine => ({ s with engine } : Server τ κ σ)) (s.engine.flush_extend h more k)
        · exact congrArg (fun engine => ({ s with engine } : Server τ κ σ)) (s.engine.beginClose_extend h more k)

section

variable {run : Runner τ κ σ} (h : Handle) (more : Bytes)
  (hrun : ∀ program s, program.Within (.output τ κ σ) →
    run program (s.extend h more) = Prod.map id (Server.extend h more) (run program s))
include hrun

theorem handleRequest_extend (k : Handle) (r : Http.Request) {s : Server τ κ σ}
    (hs : s.handlers.Within (.output τ κ σ)) :
    handleRequest run k r (s.extend h more) = (handleRequest run k r s).extend h more := by
  have hsame : (s.extend h more).handlers.request = s.handlers.request := rfl
  rw [handleRequest, handleRequest, hsame]
  cases hslot : s.handlers.request with
  | none => exact conclude_extend h more k {} s
  | some handler =>
      dsimp only
      have hcalled : ({ s.extend h more with
          engine := (s.extend h more).engine.record (.request k r),
          handlers := { (s.extend h more).handlers with request := none } } : Server τ κ σ) =
        Server.extend h more { s with
          engine := s.engine.record (.request k r), handlers := { s.handlers with request := none } } := rfl
      rw [hcalled, hrun _ _ (hs.request handler hslot k r)]
      dsimp only [Prod.map_apply, id]
      generalize run (handler k r) _ = result
      exact conclude_extend h more k result.1 { result.2 with
        handlers := { result.2.handlers with request := result.2.handlers.request.or (some handler) } }

omit [DecidableEq κ] [Transport τ κ] in
theorem handleMessage_extend (k : Handle) (text : String) {s : Server τ κ σ}
    (hs : s.handlers.Within (.output τ κ σ)) :
    handleMessage run k text (s.extend h more) = (handleMessage run k text s).extend h more := by
  have hsame : (s.extend h more).handlers.message = s.handlers.message := rfl
  rw [handleMessage, handleMessage, hsame]
  cases hslot : s.handlers.message with
  | none => rfl
  | some handler =>
      dsimp only
      have hcalled : ({ s.extend h more with
          engine := (s.extend h more).engine.record (.text k text),
          handlers := { (s.extend h more).handlers with message := none } } : Server τ κ σ) =
        Server.extend h more { s with
          engine := s.engine.record (.text k text), handlers := { s.handlers with message := none } } := rfl
      rw [hcalled, hrun _ _ (hs.message handler hslot k text)]
      rfl

omit [DecidableEq κ] [Transport τ κ] in
theorem handleBinary_extend (k : Handle) (data : Bytes) {s : Server τ κ σ}
    (hs : s.handlers.Within (.output τ κ σ)) :
    handleBinary run k data (s.extend h more) = (handleBinary run k data s).extend h more := by
  have hsame : (s.extend h more).handlers.binary = s.handlers.binary := rfl
  rw [handleBinary, handleBinary, hsame]
  cases hslot : s.handlers.binary with
  | none => rfl
  | some handler =>
      dsimp only
      have hcalled : ({ s.extend h more with
          engine := (s.extend h more).engine.record (.binary k data),
          handlers := { (s.extend h more).handlers with binary := none } } : Server τ κ σ) =
        Server.extend h more { s with
          engine := s.engine.record (.binary k data), handlers := { s.handlers with binary := none } } := rfl
      rw [hcalled, hrun _ _ (hs.binary handler hslot k data)]
      rfl

/-- What the application does about a message does not depend on the bytes behind it. -/
theorem handOver_extend (k : Handle) (d : Delivery) {s : Server τ κ σ} (hs : s.handlers.Within (.output τ κ σ)) :
    handOver run k d (s.extend h more) = (handOver run k d s).extend h more := by
  cases d with
  | wait | again => rfl
  | request r => exact handleRequest_extend h more hrun k r hs
  | text text => exact handleMessage_extend h more hrun k text hs
  | binary data => exact handleBinary_extend h more hrun k data hs

end

omit [DecidableEq κ] [Transport τ κ] in
theorem output_allows {takes : Prop} (e : Engine τ κ σ) {c : Call τ κ σ} (hc : (Permit.output τ κ σ).call c) :
    Engine.Allows (.sealed τ takes) e c := by
  cases c with
  | accept | advance | setTransport => exact hc.elim
  | _ => trivial

/-- A way to run programs that neither takes bytes from outside nor sees those that have come. -/
structure Runner.Sealed (run : Runner τ κ σ) : Prop where
  leads (takes : Prop) : ∀ program s, program.Within (.output τ κ σ) → s.handlers.Within (.output τ κ σ) →
    Leads (.sealed τ takes) (.output τ κ σ) s (run program s).2
  extend (h : Handle) (more : Bytes) : ∀ program s, program.Within (.output τ κ σ) →
    run program (s.extend h more) = Prod.map id (Server.extend h more) (run program s)

theorem runBy_sealed (receive : κ → Bytes → Server τ κ σ → Nat × Server τ κ σ) :
    Runner.Sealed (runBy receive) where
  leads _ := runBy_leads (fun e _ hc => output_allows e hc) fun hr => hr.elim
  extend h more _ s hp := runBy_extend receive hp h more s

/-! ## The dispatch -/

/-- Deal with every message that a session has received. -/
def dispatch (run : Runner τ κ σ) (h : Handle) (s : Server τ κ σ) : Server τ κ σ :=
  dispatchLoop run h (s.engine.pending h + 1) s

/-- A server whose handlers send and close only, and whose registry is in order. -/
structure Sound (s : Server τ κ σ) : Prop where
  handlers : s.handlers.Within (.output τ κ σ)
  wellFormed : s.engine.registry.WellFormed

section

variable {run : Runner τ κ σ} {h : Handle} {s s' : Server τ κ σ} {d : Delivery} {engine : Engine τ κ σ}

theorem Sound.of_leads {takes : Prop} (i : s.Sound) (hl : Leads (.sealed τ takes) (.output τ κ σ) s s') : s'.Sound :=
  ⟨hl.handlers, hl.moves.wellFormed i.wellFormed⟩

theorem moves_of_next (hn : s.engine.next h = (d, engine)) : Engine.Moves (.sealed τ True) s.engine engine := by
  have hnext : Engine.Moves (.sealed τ True) s.engine (s.engine.next h).2 := Engine.next_moves trivial trivial s.engine h
  rwa [hn] at hnext

theorem Sound.of_next (i : s.Sound) (hn : s.engine.next h = (d, engine)) : ({ s with engine } : Server τ κ σ).Sound :=
  ⟨i.handlers, (moves_of_next hn).wellFormed i.wellFormed⟩

theorem dispatch_of_wait (hn : s.engine.next h = (.wait, engine)) : dispatch run h s = { s with engine } :=
  dispatchLoop_of_wait hn _

theorem dispatch_of_closing (closing : s.engine.registry.At h fun t => t.closing = true) : dispatch run h s = s :=
  dispatch_of_wait (Engine.next_of_closing closing)

variable (sealing : Runner.Sealed run)
include sealing

theorem pending_of_next (i : s.Sound) (hd : d ≠ .wait) (hn : s.engine.next h = (d, engine)) :
    (handOver run h d { s with engine }).engine.pending h < s.engine.pending h := by
  have hlt := Engine.next_pending (h := h) i.wellFormed (by rwa [hn])
  have hl := handOver_leads (sealing.leads False) h d (i.of_next hn).handlers
  rw [hn] at hlt
  exact Nat.lt_of_le_of_lt (Engine.pending_of_moves hl.moves id id (i.of_next hn).wellFormed h) hlt

theorem Sound.of_handOver (i : s.Sound) (h : Handle) (d : Delivery) : (handOver run h d s).Sound :=
  i.of_leads (handOver_leads (sealing.leads False) h d i.handlers)

/-- The loop ends before its fuel does. -/
theorem dispatchLoop_eq_dispatch (i : s.Sound) {fuel : Nat} (hf : s.engine.pending h < fuel) :
    dispatchLoop run h fuel s = dispatch run h s := by
  -- Any two amounts of fuel beyond the pending bytes do, since every round uses up a byte at least.
  have key {fuel fuel' : Nat} {s : Server τ κ σ} (i : s.Sound) (hf : s.engine.pending h < fuel)
      (hf' : s.engine.pending h < fuel') : dispatchLoop run h fuel s = dispatchLoop run h fuel' s := by
    induction fuel generalizing s fuel' with
    | zero => exact absurd hf (Nat.not_lt_zero _)
    | succ fuel ih =>
        obtain ⟨fuel', rfl⟩ := Nat.exists_eq_add_one_of_ne_zero (Nat.ne_zero_of_lt hf')
        cases hn : s.engine.next h with
        | mk d engine =>
            by_cases hd : d = .wait
            · subst hd
              rw [dispatchLoop_of_wait hn, dispatchLoop_of_wait hn]
            · have hlt := pending_of_next sealing i hd hn
              rw [dispatchLoop_of_next hd hn, dispatchLoop_of_next hd hn]
              exact ih ((i.of_next hn).of_handOver sealing h d) (by omega) (by omega)
  exact key i hf (Nat.lt_succ_self _)

theorem dispatch_of_next (i : s.Sound) (hd : d ≠ .wait) (hn : s.engine.next h = (d, engine)) :
    dispatch run h s = dispatch run h (handOver run h d { s with engine }) := by
  rw [dispatch, dispatchLoop_of_next hd hn]
  exact dispatchLoop_eq_dispatch sealing ((i.of_next hn).of_handOver sealing h d) (pending_of_next sealing i hd hn)

/-- Bytes that come once the messages in front of them are dealt with do what they do at once. -/
theorem dispatch_extend (i : s.Sound) {more : Bytes}
    (a : s.engine.registry.At h (Session.Admits s.engine.config.maxRequestBytes more)) :
    dispatch run h (s.extend h more) = dispatch run h ((dispatch run h s).extend h more) := by
  -- By induction on the bytes left: the message in front is taken off in both runs, or in neither.
  induction hp : s.engine.pending h using Nat.strongRecOn generalizing s with
  | ind n ih =>
      have iextend : (s.extend h more).Sound := ⟨i.handlers, Engine.extend_wellFormed i.wellFormed h more⟩
      cases Engine.next_cut i.wellFormed a with
      | waits hn => rw [dispatch_of_wait hn]
      | @ends engine hn hm closing =>
          have hsame : Server.extend h more { s with engine } = { s with engine } :=
            congrArg (fun engine => ({ s with engine } : Server τ κ σ))
              (Engine.extend_of_closing (i.of_next hn).wellFormed closing more)
          rw [dispatch_of_wait hn, hsame, dispatch_of_closing (s := { s with engine }) closing]
          exact dispatch_of_wait hm
      | @goesOn d engine hd hn hm admits =>
          have hl := handOver_leads (sealing.leads False) h d (i.of_next hn).handlers
          have hconfig : (handOver run h d { s with engine }).engine.config = s.engine.config :=
            hl.moves.config.trans (moves_of_next hn).config
          have hover : handOver run h d { s.extend h more with engine := engine.extend h more } =
              (handOver run h d { s with engine }).extend h more :=
            handOver_extend h more (sealing.extend h more) h d (s := { s with engine }) i.handlers
          rw [dispatch_of_next sealing i hd hn, dispatch_of_next sealing iextend hd hm, hover]
          refine ih _ (hp ▸ pending_of_next sealing i hd hn) ((i.of_next hn).of_handOver sealing h d) ?_ rfl
          rw [hconfig]
          exact Engine.admits_of_moves hl.moves (i.of_next hn).wellFormed admits

end

/-! ## Receiving -/

omit [DecidableEq κ] [Transport τ κ] in
theorem gather_session {e : Engine τ κ σ} {h : Handle} {t : Session κ} (hs : e.session? h = some t) (data : Bytes) :
    (e.gather h data).session? h = some ({ t with inbound := t.inbound ++ data }.touch e.now) := by
  rw [Engine.gather, Engine.session?_update_self, hs]
  · rfl
  · exact fun u => Session.touch_handle e.now _

omit [DecidableEq κ] [Transport τ κ] in
/-- Bytes that were received with others might have come behind them. -/
theorem gather_append {e : Engine τ κ σ} (w : e.registry.WellFormed) {h : Handle} {t : Session κ}
    (hs : e.session? h = some t) (ho : t.closing = false) (a b : Bytes) :
    e.gather h (a ++ b) = (e.gather h a).extend h b := by
  simp only [Engine.gather, Engine.update, Engine.extend, Registry.update, Registry.extend, List.map_map]
  congr 2
  refine List.map_congr_left fun u hu => ?_
  simp only [Function.comp_apply]
  split
  · rename_i hh
    have hut : u = t := Option.some.inj ((w.get?_eq_some.mpr ⟨hu, hh⟩).symm.trans hs)
    subst hut
    rw [Session.touch_extend h b (t := { u with inbound := u.inbound ++ a }) hh ho, List.append_assoc]
  · rename_i hh
    rw [Session.extend, if_neg fun he => hh he.1]

omit [DecidableEq κ] [Transport τ κ] in
/-- A session that was active just now only takes the bytes. -/
theorem gather_of_fresh {e : Engine τ κ σ} (w : e.registry.WellFormed) {h : Handle} {t : Session κ}
    (hs : e.session? h = some t) (ho : t.closing = false) (hf : t.Fresh e.now) (data : Bytes) :
    e.gather h data = e.extend h data := by
  simp only [Engine.gather, Engine.update, Engine.extend, Registry.update, Registry.extend]
  congr 2
  refine List.map_congr_left fun u hu => ?_
  split
  · rename_i hh
    have hut : u = t := Option.some.inj ((w.get?_eq_some.mpr ⟨hu, hh⟩).symm.trans hs)
    subst hut
    rw [← Session.touch_extend h data hh ho, Session.touch_of_fresh hf]
  · rename_i hh
    rw [Session.extend, if_neg fun he => hh he.1]

section

variable {run : Runner τ κ σ} {s : Server τ κ σ} {conn : κ} {t : Session κ}

theorem receiveBy_of_closing (hc : s.engine.registry.ofConn? conn = some t) (hclosing : t.closing = true)
    (data : Bytes) : (receiveBy run conn data s).2 = s := by
  rw [receiveBy, hc]
  dsimp only
  rw [if_pos hclosing]

theorem receiveBy_of_open (w : s.engine.registry.WellFormed) (hc : s.engine.registry.ofConn? conn = some t)
    (ho : t.closing = false) (data : Bytes) : (receiveBy run conn data s).2 =
      dispatch run t.handle { s with engine := s.engine.gather t.handle data } := by
  have hs : s.engine.session? t.handle = some t := w.get?_of_ofConn? hc
  have hpending : (s.engine.gather t.handle data).pending t.handle = t.inbound.length + data.length := by
    rw [Engine.pending_of_session (gather_session hs data), Session.touch_inbound, List.length_append]
  rw [receiveBy, hc, dispatch, hpending]
  dsimp only
  rw [if_neg (by simp [ho])]
  rfl

/-- A session that has taken bytes in. -/
theorem gather_spec (i : s.Sound) (hs : s.engine.session? t.handle = some t) (ho : t.closing = false)
    (hconn : t.conn = conn) {a b : Bytes} (admits : t.Admits s.engine.config.maxRequestBytes (a ++ b)) :
    let e := s.engine.gather t.handle a
    ({ s with engine := e } : Server τ κ σ).Sound ∧
      (∀ u ∈ e.registry.sessions, u.conn = conn ↔ u.handle = t.handle) ∧
      e.registry.At t.handle (Session.Admits e.config.maxRequestBytes b) ∧
      e.registry.At t.handle (Session.Fresh e.now) := by
  have hs' := gather_session hs a
  have hmoves : Engine.Moves {} s.engine (s.engine.gather t.handle a) := Engine.gather_moves trivial _ _ _
  have w' := hmoves.wellFormed i.wellFormed
  refine ⟨⟨i.handlers, w'⟩, fun u hu => ?_, .of_get? hs' ⟨?_, fun _ hm => ?_⟩, .of_get? hs' (Session.touch_fresh _ _)⟩
  · have ht' := Registry.mem_of_get? hs'
    constructor
    · intro hu'
      rw [w'.eq_of_conn hu ht' (by rw [hu', Session.touch_conn, hconn]), Session.touch_handle]
    · intro hu'
      rw [w'.eq_of_handle hu ht' (by rw [hu', Session.touch_handle]), Session.touch_conn, hconn]
  · rw [Session.touch_inbound, List.length_append, Nat.add_assoc, ← List.length_append]
    exact admits.room
  · rw [Session.touch_mode] at hm
    rw [Session.touch_inbound, List.append_assoc]
    exact admits.plain ho hm

/-- A session that was active just now deals with more bytes as if they had been there. -/
theorem receiveBy_of_fresh (i : s.Sound) {h : Handle} (hc : s.engine.registry.ofConn? conn = s.engine.session? h)
    (fresh : s.engine.registry.At h (Session.Fresh s.engine.now)) (data : Bytes) :
    (receiveBy run conn data s).2 = dispatch run h (s.extend h data) := by
  have ended (closing : s.engine.registry.At h fun t => t.closing = true) : dispatch run h (s.extend h data) = s := by
    have hsame : s.extend h data = s := congrArg (fun engine => ({ s with engine } : Server τ κ σ))
      (Engine.extend_of_closing i.wellFormed closing data)
    rw [hsame, dispatch_of_closing closing]
  cases hs : s.engine.session? h with
  | none => rw [receiveBy_of_none (hc.trans hs), ended (.of_none hs)]
  | some t =>
      cases ho : t.closing with
      | true => rw [receiveBy_of_closing (hc.trans hs) ho, ended (.of_get? hs ho)]
      | false =>
          rw [receiveBy_of_open i.wellFormed (hc.trans hs) ho, Registry.handle_of_get? hs,
            gather_of_fresh i.wellFormed hs ho (fresh t hs)]
          rfl

variable (sealing : Runner.Sealed run)
include sealing

/-- Whatever the messages lead to, the connection goes with the same session, which was active just now. -/
theorem dispatch_keeps (i : s.Sound) (h : Handle) (hconn : ∀ u ∈ s.engine.registry.sessions, u.conn = conn ↔ u.handle = h)
    (fresh : s.engine.registry.At h (Session.Fresh s.engine.now)) :
    (dispatch run h s).Sound ∧
      (dispatch run h s).engine.registry.ofConn? conn = (dispatch run h s).engine.session? h ∧
      (dispatch run h s).engine.registry.At h (Session.Fresh (dispatch run h s).engine.now) := by
  have hl : Leads (.sealed τ True) (.output τ κ σ) s (dispatch run h s) :=
    dispatchLoop_leads trivial trivial (sealing.leads True) h _ i.handlers
  have hsound := i.of_leads hl
  refine ⟨hsound, ?_, ?_⟩
  · refine Option.ext fun u => ?_
    rw [hsound.wellFormed.ofConn?_eq_some, Engine.session?, hsound.wellFormed.get?_eq_some]
    refine and_congr_right fun hu => ?_
    obtain ⟨v, hv, hc⟩ := hl.moves.continues id i.wellFormed hu
    rw [hc.conn, hc.handle]
    exact hconn v hv
  · have hnow : (dispatch run h s).engine.now = s.engine.now := by
      rcases hl.moves.now with hfalse | hnow
      · exact hfalse.elim
      · exact hnow
    rw [hnow]
    refine hl.moves.at id i.wellFormed fresh fun v u hc hv => ?_
    rcases hc.fresh with hfalse | hfresh
    · exact hfalse.elim
    · exact hfresh hv

theorem receiveBy_append (i : s.Sound) (hc : s.engine.registry.ofConn? conn = some t) {a b : Bytes}
    (admits : t.Admits s.engine.config.maxRequestBytes (a ++ b)) :
    (receiveBy run conn b (receiveBy run conn a s).2).2 = (receiveBy run conn (a ++ b) s).2 := by
  cases ho : t.closing with
  | true => rw [receiveBy_of_closing hc ho, receiveBy_of_closing hc ho, receiveBy_of_closing hc ho]
  | false =>
      have hconn : t.conn = conn := (i.wellFormed.ofConn?_eq_some.mp hc).2
      have hs : s.engine.session? t.handle = some t := i.wellFormed.get?_of_ofConn? hc
      rw [receiveBy_of_open i.wellFormed hc ho a, receiveBy_of_open i.wellFormed hc ho (a ++ b), gather_append i.wellFormed hs ho]
      obtain ⟨i₁, hconn₁, admits₁, fresh₁⟩ := gather_spec i hs ho hconn admits
      obtain ⟨i₂, hc₂, fresh₂⟩ := dispatch_keeps sealing i₁ t.handle hconn₁ fresh₁
      rw [receiveBy_of_fresh i₂ hc₂ fresh₂]
      exact (dispatch_extend sealing i₁ admits₁).symm

end

/-- Bytes that come in two pieces do what they do in one, whatever a server has been through: the same messages are
handed over, the same notices delivered, the same chunks offered to the transport. -/
theorem receive_append {config : Config} {transport : τ} {app : σ} {s : Server τ κ σ}
    (hr : Reaches (fun _ _ => True) (new config transport app) s) (hs : s.handlers.Within (.output τ κ σ)) {conn : κ}
    {t : Session κ} (hc : s.engine.registry.ofConn? conn = some t) {a b : Bytes}
    (admits : t.Admits s.engine.config.maxRequestBytes (a ++ b)) :
    (receive conn b (receive conn a s).2).2 = (receive conn (a ++ b) s).2 := by
  exact receiveBy_append (runBy_sealed _) ⟨hs, hr.wellFormed⟩ hc admits

/-- A request that is cut in its first line is answered like one that is not. -/
theorem receive_append_of_request_line :
    let answer : Handle → Http.Request → Program (Transport.InMemory Nat) Nat Unit := fun h _ =>
      .call (.send h [111, 107]) fun _ => .done { handled := true, keepOpen := true }
    let s : Server (Transport.InMemory Nat) Nat Unit :=
      [.call (.accept 7), .onRequest answer].foldl apply (new {} {} ())
    let a := Text.utf8 "GET / HT"
    let b := Text.utf8 "TP/1.1\r\n\r\n"
    (receive 7 b (receive 7 a s).2).2 = (receive 7 (a ++ b) s).2 ∧
      ((receive 7 (a ++ b) s).2.engine.transport.link 7).written = [111, 107] := by
  intro answer s a b
  have hreaches : Reaches (fun _ _ => True) (new {} {} ()) s := reaches_foldl .start (by simp)
  have hread : Http.HeadBlock.read (a ++ b) = .ready ⟨⟨"GET", "/", "HTTP/1.1"⟩, [], 18⟩ := by decide
  have hplain : Http.Plain (a ++ b) := by
    intro block hb
    obtain rfl := Reading.ready.inj (hread.symm.trans hb)
    rfl
  have hhead : Http.Head.read 16384 (a ++ b) = .ready ⟨"GET", "/", "HTTP/1.1", [], 18, 0⟩ := by decide
  have hstream : Http.PlainStream 16384 (a ++ b) := .of_ready hplain hhead (.of_notYet (by nofun) (by decide))
  refine ⟨receive_append hreaches ⟨?_, by nofun, by nofun⟩ (t := .accepted .first 7 0) (by rfl)
    ⟨by decide, fun _ _ => hstream⟩, by decide⟩
  intro handler hm h r
  obtain rfl := Option.some.inj (show some answer = some handler from hm)
  exact .call trivial (fun _ _ hf => hf.elim) fun _ => .done _

end Server
end WebServer
