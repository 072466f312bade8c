import WebServer.Proofs.Engine.Reordering
import WebServer.Proofs.Server.Runs

/-! # Isolated sessions

As long as handlers look at the session whose message they are given and at no other, what happens to a connection does
not show to the sessions of the others. -/

namespace WebServer

open Transport (Separate)

variable {τ κ σ : Type}

/-- Programs that send on one session and close it, and see nothing but that session, the configuration and the
clock. -/
def Permit.own (h : Handle) : Permit τ κ σ where
  call
    | .send g _ | .sendMessage g _ | .sendBinary g _ | .serve _ g _ | .close g => g = h
    | .inspect => True
    | _ => False
  reenter := False
  alike
    | .inspect, answer, answer' => Engine.Alike h answer answer'
    | _, _, _ => False

/-- Handlers that deal with the session whose message they are given, and with no other. -/
structure Handlers.Own (hs : Handlers τ κ σ) : Prop where
  request : ∀ handler ∈ hs.request, ∀ h r, (handler h r).Within (.own h)
  message : ∀ handler ∈ hs.message, ∀ h text, (handler h text).Within (.own h)
  binary : ∀ handler ∈ hs.binary, ∀ h data, (handler h data).Within (.own h)

/-- What may happen to a connection that was accepted. -/
inductive Happening where
  | received (data : Bytes)
  | acknowledged (count : Nat)
  | polled
  | remoteClosed
  | failed

def Happening.on (conn : κ) : Happening → Operation τ κ σ
  | .received data => .receive conn data
  | .acknowledged count => .call (.sent conn count)
  | .polled => .call (.pollConn conn)
  | .remoteClosed => .call (.remoteClosed conn)
  | .failed => .call (.failed conn)

variable [DecidableEq κ] [Transport τ κ] [Separate τ κ] {h : Handle} {conn : κ} {b b' : Engine τ κ σ}

namespace Engine

/-- A call that deals with one session answers alike, as far as a handler of that session may tell. -/
theorem perform_inStep {e e' : Engine τ κ σ} (s : InStep h conn b b' e e') {c : Call τ κ σ}
    (hc : (Permit.own h).call c) :
    ((e.perform c).1 = (e'.perform c).1 ∨ (Permit.own h).alike c (e.perform c).1 (e'.perform c).1) ∧
      InStep h conn b b' (e.perform c).2 (e'.perform c).2 := by
  have told {α : Type} {P : Prop} {x x' : α × Engine τ κ σ} (a : Agree h conn b b' x x') :
      (x.1 = x'.1 ∨ P) ∧ InStep h conn b b' x.2 x'.2 := by
    cases a with
    | intro answer s => exact ⟨.inl rfl, s⟩
  cases c with
  | send g data =>
      obtain rfl : g = h := hc
      exact told (send_agree s data)
  | sendMessage g text =>
      obtain rfl : g = h := hc
      exact told (sendFrame_agree s .text (Text.utf8 text))
  | sendBinary g data =>
      obtain rfl : g = h := hc
      exact told (sendFrame_agree s .binary data)
  | serve files g r =>
      obtain rfl : g = h := hc
      exact told (serve_agree s files r)
  | close g =>
      obtain rfl : g = h := hc
      exact told (close_agree s)
  | inspect => exact ⟨.inr s.alike, s⟩
  | _ => exact hc.elim

end Engine

namespace Server

/-- Two servers in step on one session, with the same handlers. -/
structure InStep (h : Handle) (conn : κ) (b b' : Engine τ κ σ) (hs : Handlers τ κ σ) (s s' : Server τ κ σ) : Prop where
  engine : Engine.InStep h conn b b' s.engine s'.engine
  handlers : s.handlers = hs
  handlers' : s'.handlers = hs

variable {hs : Handlers τ κ σ} {s s' : Server τ κ σ}

theorem InStep.withEngine (i : InStep h conn b b' hs s s') {e e' : Engine τ κ σ} (he : Engine.InStep h conn b b' e e') :
    InStep h conn b b' hs { s with engine := e } { s' with engine := e' } :=
  ⟨he, i.handlers, i.handlers'⟩

/-! ## Handlers -/

theorem runBy_inStep (receive : κ → Bytes → Server τ κ σ → Nat × Server τ κ σ) {program : Program τ κ σ}
    (hp : program.Within (.own h)) (i : InStep h conn b b' hs s s') :
    (runBy receive program s).1 = (runBy receive program s').1 ∧
      InStep h conn b b' hs (runBy receive program s).2 (runBy receive program s').2 := by
  induction hp generalizing s s' with
  | done reply => exact ⟨rfl, i⟩
  | @call c next hc ha _ ih =>
      obtain ⟨hanswer, hengine⟩ := Engine.perform_inStep i.engine hc
      have hnext : next (s.engine.perform c).1 = next (s'.engine.perform c).1 := by
        rcases hanswer with heq | halike
        · exact congrArg next heq
        · exact ha _ _ halike
      rw [runBy, runBy]
      dsimp only
      rw [← hnext]
      exact ih _ (i.withEngine hengine)
  -- Nothing else is permitted.
  | receive hr => exact hr.elim
  | onRequest hr => exact hr.elim
  | onMessage hr => exact hr.elim
  | onBinary hr => exact hr.elim

theorem conclude_inStep (i : InStep h conn b b' hs s s') (reply : Reply) :
    InStep h conn b b' hs (s.conclude h reply) (s'.conclude h reply) := by
  rw [conclude, conclude, i.engine.session]
  cases s.engine.session? h with
  | none => exact i
  | some t =>
      dsimp only
      split
      · split
        · exact i
        · exact i.withEngine (Engine.replyAndClose_inStep i.engine _)
      · split
        · exact i.withEngine (Engine.flush_inStep i.engine)
        · exact i.withEngine (Engine.beginClose_inStep i.engine)

section

variable (ho : hs.Own) {receive : κ → Bytes → Server τ κ σ → Nat × Server τ κ σ}
include ho

theorem handleRequest_inStep (i : InStep h conn b b' hs s s') (r : Http.Request) :
    InStep h conn b b' hs (handleRequest (runBy receive) h r s) (handleRequest (runBy receive) h r s') := by
  rw [handleRequest, handleRequest, i.handlers, i.handlers']
  cases hslot : hs.request with
  | none => exact conclude_inStep i {}
  | some handler =>
      have hrequest : (Entry.request h r).About h conn := ⟨rfl, by simp [Entry.request?]⟩
      have hcalled : InStep h conn b b' { hs with request := none }
          { s with engine := s.engine.record (.request h r), handlers := { hs with request := none } }
          { s' with engine := s'.engine.record (.request h r), handlers := { hs with request := none } } :=
        ⟨i.engine.record hrequest, rfl, rfl⟩
      have hback : ({ hs with request := some handler } : Handlers τ κ σ) = hs := by rw [← hslot]
      obtain ⟨hreply, hrun⟩ := runBy_inStep receive (ho.request handler hslot h r) hcalled
      dsimp only
      rw [← hreply, hrun.handlers, hrun.handlers']
      refine conclude_inStep ?_ _
      exact ⟨hrun.engine, hback, hback⟩

theorem handleMessage_inStep (i : InStep h conn b b' hs s s') (text : String) :
    InStep h conn b b' hs (handleMessage (runBy receive) h text s) (handleMessage (runBy receive) h text s') := by
  rw [handleMessage, handleMessage, i.handlers, i.handlers']
  cases hslot : hs.message with
  | none => exact i
  | some handler =>
      have htext : (Entry.text h text).About h conn := ⟨rfl, by simp [Entry.request?]⟩
      have hcalled : InStep h conn b b' { hs with message := none }
          { s with engine := s.engine.record (.text h text), handlers := { hs with message := none } }
          { s' with engine := s'.engine.record (.text h text), handlers := { hs with message := none } } :=
        ⟨i.engine.record htext, rfl, rfl⟩
      have hback : ({ hs with message := some handler } : Handlers τ κ σ) = hs := by rw [← hslot]
      obtain ⟨-, hrun⟩ := runBy_inStep receive (ho.message handler hslot h text) hcalled
      dsimp only
      rw [hrun.handlers, hrun.handlers']
      exact ⟨hrun.engine, hback, hback⟩

theorem handleBinary_inStep (i : InStep h conn b b' hs s s') (data : Bytes) :
    InStep h conn b b' hs (handleBinary (runBy receive) h data s) (handleBinary (runBy receive) h data s') := by
  rw [handleBinary, handleBinary, i.handlers, i.handlers']
  cases hslot : hs.binary with
  | none => exact i
  | some handler =>
      have hbinary : (Entry.binary h data).About h conn := ⟨rfl, by simp [Entry.request?]⟩
      have hcalled : InStep h conn b b' { hs with binary := none }
          { s with engine := s.engine.record (.binary h data), handlers := { hs with binary := none } }
          { s' with engine := s'.engine.record (.binary h data), handlers := { hs with binary := none } } :=
        ⟨i.engine.record hbinary, rfl, rfl⟩
      have hback : ({ hs with binary := some handler } : Handlers τ κ σ) = hs := by rw [← hslot]
      obtain ⟨-, hrun⟩ := runBy_inStep receive (ho.binary handler hslot h data) hcalled
      dsimp only
      rw [hrun.handlers, hrun.handlers']
      exact ⟨hrun.engine, hback, hback⟩

theorem handOver_inStep (i : InStep h conn b b' hs s s') (d : Delivery) :
    InStep h conn b b' hs (handOver (runBy receive) h d s) (handOver (runBy receive) h d s') := by
  cases d with
  | wait => exact i
  | again => exact i
  | request r => exact handleRequest_inStep ho i r
  | text text => exact handleMessage_inStep ho i text
  | binary data => exact handleBinary_inStep ho i data

theorem dispatchLoop_inStep (i : InStep h conn b b' hs s s') (fuel : Nat) :
    InStep h conn b b' hs (dispatchLoop (runBy receive) h fuel s) (dispatchLoop (runBy receive) h fuel s') := by
  induction fuel generalizing s s' with
  | zero => exact i
  | succ fuel ih =>
      have hnext := Engine.next_agree i.engine
      generalize hn : s.engine.next h = result at hnext
      generalize hn' : s'.engine.next h = result' at hnext
      obtain ⟨d, he⟩ := hnext
      by_cases hd : d = .wait
      · subst hd
        rw [dispatchLoop_of_wait hn, dispatchLoop_of_wait hn']
        exact i.withEngine he
      · rw [dispatchLoop_of_next hd hn, dispatchLoop_of_next hd hn']
        exact ih (handOver_inStep ho (i.withEngine he) d)

theorem receiveBy_inStep (i : InStep h conn b b' hs s s') (data : Bytes) :
    InStep h conn b b' hs (receiveBy (runBy receive) conn data s).2 (receiveBy (runBy receive) conn data s').2 := by
  rw [receiveBy, receiveBy, i.engine.keeps.ofConn?_self, i.engine.keeps'.ofConn?_self, i.engine.session]
  cases hs : s.engine.session? h with
  | none => exact i
  | some t =>
      have hh : t.handle = h := Registry.handle_of_get? hs
      dsimp only
      rw [hh]
      split
      · exact i
      · exact dispatchLoop_inStep ho (i.withEngine (Engine.gather_inStep i.engine data)) _

/-- Whatever happens to a connection concerns its session alone. -/
theorem apply_inStep (i : InStep h conn b b' hs s s') (x : Happening) :
    InStep h conn b b' hs (s.apply (x.on conn)) (s'.apply (x.on conn)) := by
  cases x with
  | received data => exact receiveBy_inStep ho i data
  | acknowledged count => exact i.withEngine (Engine.sent_inStep i.engine count)
  | polled => exact i.withEngine (Engine.pollConn_inStep i.engine)
  | remoteClosed => exact i.withEngine (Engine.remoteClosed_inStep i.engine)
  | failed => exact i.withEngine (Engine.failed_inStep i.engine)

end

/-- What a happening makes of an engine below given handlers. -/
def act (hs : Handlers τ κ σ) (x : Happening) (conn : κ) (e : Engine τ κ σ) : Engine τ κ σ :=
  (apply { engine := e, handlers := hs } (x.on conn)).engine

theorem deals_act (ho : hs.Own) (x : Happening) : Engine.Deals h conn (act hs x conn) :=
  fun _ _ _ _ i => (apply_inStep ho ⟨i, rfl, rfl⟩ x).engine

/-- Handlers that keep to their sessions are in their places again. -/
theorem apply_eq (ho : s.handlers.Own) (o : s.engine.Holds h conn) (x : Happening) :
    s.apply (x.on conn) = { s with engine := act s.handlers x conn s.engine } := by
  have i : InStep h conn s.engine s.engine s.handlers s s := ⟨o.inStep o ⟨rfl, rfl, rfl, rfl⟩ rfl, rfl, rfl⟩
  exact congrArg (Server.mk _) (apply_inStep ho i x).handlers

omit [Transport τ κ] [Separate τ κ] in
theorem holds_of_ofConn? (w : s.engine.registry.WellFormed) {t : Session κ}
    (hc : s.engine.registry.ofConn? conn = some t) : s.engine.Holds t.handle conn :=
  ⟨w, t, w.get?_of_ofConn? hc, (w.ofConn?_eq_some.mp hc).2⟩

/-- What happens to a connection leaves the sessions of the others alone; what happens to two connections may happen in
either order, and a poll may visit the sessions in any order. -/
theorem isolated_of_reaches {config : Config} {transport : τ} {app : σ} {s : Server τ κ σ}
    (hr : Reaches (fun _ _ => True) (new config transport app) s) (ho : s.handlers.Own) {c₁ c₂ : κ} (hne : c₁ ≠ c₂)
    {t₁ t₂ : Session κ} (h₁ : s.engine.registry.ofConn? c₁ = some t₁) (h₂ : s.engine.registry.ofConn? c₂ = some t₂)
    (x₁ x₂ : Happening) :
    (s.apply (x₁.on c₁)).engine.registry.ofConn? c₂ = some t₂ ∧
      ((s.apply (x₁.on c₁)).apply (x₂.on c₂)).handlers = ((s.apply (x₂.on c₂)).apply (x₁.on c₁)).handlers ∧
      Engine.Reordered ((s.apply (x₁.on c₁)).apply (x₂.on c₂)).engine
        ((s.apply (x₂.on c₂)).apply (x₁.on c₁)).engine ∧
      ∀ hs : List Handle, hs.Perm s.engine.registry.liveHandles →
        Engine.Reordered (hs.foldl Engine.pollSession s.engine) s.engine.poll := by
  have w := hr.wellFormed
  have o₁ := holds_of_ofConn? w h₁
  have o₂ := holds_of_ofConn? w h₂
  have hhandle : t₂.handle ≠ t₁.handle := o₁.handle_ne o₂ hne.symm
  have k₁ := ((deals_act ho x₁).inStep o₁).keeps
  have k₂ := ((deals_act ho x₂).inStep o₂).keeps
  have o₁' := k₂.holds o₂ hhandle.symm o₁
  have o₂' := k₁.holds o₁ hhandle o₂
  have hboth := apply_eq (s := { s with engine := act s.handlers x₁ c₁ s.engine }) ho o₂' x₂
  have hboth' := apply_eq (s := { s with engine := act s.handlers x₂ c₂ s.engine }) ho o₁' x₁
  rw [apply_eq ho o₁ x₁, apply_eq ho o₂ x₂, hboth, hboth']
  refine ⟨?_, rfl, (deals_act ho x₁).comm (deals_act ho x₂) o₁ o₂ hhandle, fun hs hp => Engine.poll_reordered w hp⟩
  rw [o₂'.keeps.ofConn?_self, k₁.session?_of_ne hhandle]
  exact w.get?_of_ofConn? h₂

/-- A request on one connection, which is answered as far as there is room, and the end of another connection. -/
theorem isolated_of_request_and_end :
    let reply : Handle → Bool → Program Host.Connections Nat Unit := fun h isOpen =>
      if isOpen then .call (.send h [1, 2, 3, 4, 5]) fun _ => .done { handled := true, keepOpen := true } else .done {}
    let answer : Handle → Http.Request → Program Host.Connections Nat Unit := fun h _ =>
      .call .inspect fun e => reply h (e.isOpen h)
    let host : Host.Connections :=
      { sendBuffer := 4, network := ⟨.ok⟩, links := [(1, 0), (2, 0)], sockets := [(1, {}), (2, {})] }
    let s : Server Host.Connections Nat Unit :=
      [.call (.accept 1), .call (.accept 2), .onRequest answer].foldl apply (new {} host ())
    let x₁ : Happening := .received (Text.utf8 "GET / HTTP/1.1\r\n\r\n")
    let x₂ : Happening := .remoteClosed
    let s₁₂ := (s.apply (x₁.on 1)).apply (x₂.on 2)
    let s₂₁ := (s.apply (x₂.on 2)).apply (x₁.on 1)
    s.handlers.Own ∧ s.engine.registry.ofConn? 1 = some (.accepted ⟨1000⟩ 1 0) ∧
      s.engine.registry.ofConn? 2 = some (.accepted ⟨1001⟩ 2 0) ∧
      (s.apply (x₁.on 1)).engine.registry.ofConn? 2 = some (.accepted ⟨1001⟩ 2 0) ∧
      Engine.Reordered s₁₂.engine s₂₁.engine ∧
      Engine.Reordered ([⟨1001⟩, ⟨1000⟩].foldl Engine.pollSession s.engine) s.engine.poll ∧
      s₁₂.engine.journal.filterMap Entry.request? = [.close 2, .write 1 [1, 2, 3, 4]] ∧
      s₂₁.engine.journal.filterMap Entry.request? = [.write 1 [1, 2, 3, 4], .close 2] := by
  intro reply answer host s x₁ x₂ s₁₂ s₂₁
  have hreaches : Reaches (fun _ _ => True) (new {} host ()) s := reaches_foldl .start fun _ _ _ => trivial
  have hanswer (h : Handle) (r : Http.Request) : (answer h r).Within (.own h) := by
    have hreply (isOpen : Bool) : (reply h isOpen).Within (.own h) := by
      cases isOpen with
      | true => exact .call rfl (fun _ _ hf => hf.elim) fun _ => .done _
      | false => exact .done _
    exact .call trivial (fun _ _ ha => congrArg (fun t? => reply h (Option.any _ t?)) ha.session) fun _ => hreply _
  have hown : s.handlers.Own := ⟨fun handler hm => Option.some.inj hm ▸ hanswer, nofun, nofun⟩
  have h₁ : s.engine.registry.ofConn? 1 = some (.accepted ⟨1000⟩ 1 0) := by decide +kernel
  have h₂ : s.engine.registry.ofConn? 2 = some (.accepted ⟨1001⟩ 2 0) := by decide +kernel
  obtain ⟨hkept, -, hreordered, hpoll⟩ := isolated_of_reaches hreaches hown (by decide) h₁ h₂ x₁ x₂
  refine ⟨hown, h₁, h₂, hkept, hreordered, hpoll _ (by decide +kernel), ?_, ?_⟩
  · decide +kernel
  · decide +kernel

end Server
end WebServer
