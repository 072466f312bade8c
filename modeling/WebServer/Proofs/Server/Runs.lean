import WebServer.Proofs.Engine.Strides
import WebServer.Server

/-! # Runs of a server

A run is a sequence of operations from outside, in any order. Handlers may be held to a permit, which says what
their programs may do. -/

namespace WebServer

inductive Operation (τ κ σ : Type) where
  | call (c : Call τ κ σ)
  | receive (conn : κ) (data : Bytes)
  | onRequest (handler : Handle → Http.Request → Program τ κ σ)
  | onMessage (handler : Handle → String → Program τ κ σ)
  | onBinary (handler : Handle → Bytes → Program τ κ σ)

/-- What the programs of an application may do. -/
structure Permit (τ κ σ : Type) where
  call : Call τ κ σ → Prop
  /-- Whether they may hand over bytes and install handlers. -/
  reenter : Prop
  /-- The answers to a call that they may not tell apart. -/
  alike (c : Call τ κ σ) (answer answer' : c.Result) : Prop := False

variable {τ κ σ : Type}

/-- A program that does only what is permitted, whatever its calls answer. -/
inductive Program.Within (p : Permit τ κ σ) : Program τ κ σ → Prop where
  | done (reply : Reply) : Within p (.done reply)
  | call {c : Call τ κ σ} {next : c.Result → Program τ κ σ} (hc : p.call c)
      (ha : ∀ answer answer', p.alike c answer answer' → next answer = next answer')
      (hn : ∀ answer, Within p (next answer)) : Within p (.call c next)
  | receive {conn : κ} {data : Bytes} {next : Nat → Program τ κ σ} (hp : p.reenter)
      (hn : ∀ count, Within p (next count)) : Within p (.receive conn data next)
  | onRequest {handler : Handle → Http.Request → Program τ κ σ} {next : Program τ κ σ} (hp : p.reenter)
      (hh : ∀ h r, Within p (handler h r)) (hn : Within p next) : Within p (.onRequest handler next)
  | onMessage {handler : Handle → String → Program τ κ σ} {next : Program τ κ σ} (hp : p.reenter)
      (hh : ∀ h text, Within p (handler h text)) (hn : Within p next) : Within p (.onMessage handler next)
  | onBinary {handler : Handle → Bytes → Program τ κ σ} {next : Program τ κ σ} (hp : p.reenter)
      (hh : ∀ h data, Within p (handler h data)) (hn : Within p next) : Within p (.onBinary handler next)

/-- Handlers whose programs do only what is permitted. -/
structure Handlers.Within (p : Permit τ κ σ) (hs : Handlers τ κ σ) : Prop where
  request : ∀ handler ∈ hs.request, ∀ h r, (handler h r).Within p
  message : ∀ handler ∈ hs.message, ∀ h text, (handler h text).Within p
  binary : ∀ handler ∈ hs.binary, ∀ h data, (handler h data).Within p

/-- An operation that installs only handlers that do what is permitted. -/
def Operation.Installs (p : Permit τ κ σ) : Operation τ κ σ → Prop
  | .onRequest handler => ∀ h r, (handler h r).Within p
  | .onMessage handler => ∀ h text, (handler h text).Within p
  | .onBinary handler => ∀ h data, (handler h data).Within p
  | .call _ | .receive .. => True

def Operation.program : Operation τ κ σ → Program τ κ σ
  | .call c => .call c fun _ => .done {}
  | .receive conn data => .receive conn data fun _ => .done {}
  | .onRequest handler => .onRequest handler (.done {})
  | .onMessage handler => .onMessage handler (.done {})
  | .onBinary handler => .onBinary handler (.done {})

/-- Programs that do whatever they like. -/
def Permit.any (τ κ σ : Type) : Permit τ κ σ where
  call _ := True
  reenter := True

/-- An engine that one of the calls of a program leaves. -/
inductive Program.Leaves [DecidableEq κ] [Transport τ κ] : Program τ κ σ → Engine τ κ σ → Engine τ κ σ → Prop where
  | call {c : Call τ κ σ} {next : c.Result → Program τ κ σ} {e : Engine τ κ σ} :
      Leaves (.call c next) e (e.perform c).2
  | later {c : Call τ κ σ} {next : c.Result → Program τ κ σ} {e e' : Engine τ κ σ}
      (hl : Leaves (next (e.perform c).1) (e.perform c).2 e') : Leaves (.call c next) e e'

theorem Program.within_any (program : Program τ κ σ) : program.Within (.any τ κ σ) := by
  induction program with
  | done reply => exact .done reply
  | call c next ih => exact .call trivial (fun _ _ hf => hf.elim) ih
  | receive conn data next ih => exact .receive trivial ih
  | onRequest handler next ihh ih => exact .onRequest trivial ihh ih
  | onMessage handler next ihh ih => exact .onMessage trivial ihh ih
  | onBinary handler next ihh ih => exact .onBinary trivial ihh ih

theorem Operation.installs_any (o : Operation τ κ σ) : o.Installs (.any τ κ σ) := by
  cases o with
  | onRequest handler => exact fun h r => (handler h r).within_any
  | onMessage handler => exact fun h text => (handler h text).within_any
  | onBinary handler => exact fun h data => (handler h data).within_any
  | call | receive => trivial

theorem Engine.allows_any (e : Engine τ κ σ) (c : Call τ κ σ) : Engine.Allows {} e c := by
  cases c <;> trivial

theorem Handlers.within_none (p : Permit τ κ σ) : ({} : Handlers τ κ σ).Within p :=
  ⟨by simp, by simp, by simp⟩

theorem Handlers.within_any (hs : Handlers τ κ σ) : hs.Within (.any τ κ σ) :=
  ⟨fun handler _ h r => (handler h r).within_any, fun handler _ h text => (handler h text).within_any,
    fun handler _ h data => (handler h data).within_any⟩

namespace Handlers.Within

variable {p : Permit τ κ σ} {hs : Handlers τ κ σ}

theorem withRequest (h : hs.Within p) {slot : Option (Handle → Http.Request → Program τ κ σ)}
    (hslot : ∀ handler ∈ slot, ∀ h r, (handler h r).Within p) : Handlers.Within p { hs with request := slot } :=
  ⟨hslot, h.message, h.binary⟩

theorem withMessage (h : hs.Within p) {slot : Option (Handle → String → Program τ κ σ)}
    (hslot : ∀ handler ∈ slot, ∀ h text, (handler h text).Within p) :
    Handlers.Within p { hs with message := slot } :=
  ⟨h.request, hslot, h.binary⟩

theorem withBinary (h : hs.Within p) {slot : Option (Handle → Bytes → Program τ κ σ)}
    (hslot : ∀ handler ∈ slot, ∀ h data, (handler h data).Within p) :
    Handlers.Within p { hs with binary := slot } :=
  ⟨h.request, h.message, hslot⟩

end Handlers.Within

namespace Server

variable [DecidableEq κ] [Transport τ κ]

def apply (s : Server τ κ σ) (o : Operation τ κ σ) : Server τ κ σ :=
  (s.run o.program).2

/-- The servers that `start` may become by operations that are allowed when they happen. -/
inductive Reaches (allowed : Server τ κ σ → Operation τ κ σ → Prop) (start : Server τ κ σ) :
    Server τ κ σ → Prop where
  | start : Reaches allowed start start
  | step {s : Server τ κ σ} {o : Operation τ κ σ} (hs : Reaches allowed start s) (ho : allowed s o) :
      Reaches allowed start (s.apply o)

theorem reaches_foldl {allowed : Server τ κ σ → Operation τ κ σ → Prop} {start s : Server τ κ σ}
    (hs : Reaches allowed start s) {os : List (Operation τ κ σ)} (hos : ∀ o ∈ os, ∀ s, allowed s o) :
    Reaches allowed start (os.foldl apply s) := by
  induction os generalizing s with
  | nil => exact hs
  | cons o os ih =>
      rw [List.forall_mem_cons] at hos
      exact ih (hs.step (hos.1 s)) hos.2

/-- What the calls of a program keep, the program keeps, as long as what it hands over keeps it. -/
theorem runBy_preserves {I : Engine τ κ σ → Prop} {p : Permit τ κ σ}
    (receive : κ → Bytes → Server τ κ σ → Nat × Server τ κ σ)
    (hcall : ∀ e c, p.call c → I e → I (e.perform c).2)
    (hreceive : p.reenter → ∀ conn data s, s.handlers.Within p → I s.engine →
      I (receive conn data s).2.engine ∧ (receive conn data s).2.handlers.Within p)
    {program : Program τ κ σ} (hprogram : program.Within p) {s : Server τ κ σ}
    (hs : s.handlers.Within p) (hI : I s.engine) :
    I (runBy receive program s).2.engine ∧ (runBy receive program s).2.handlers.Within p := by
  induction hprogram generalizing s with
  | done reply => exact ⟨hI, hs⟩
  | call hc _ _ ih => exact ih _ hs (hcall _ _ hc hI)
  | receive hp _ ih =>
      obtain ⟨hI', hs'⟩ := hreceive hp _ _ s hs hI
      exact ih _ hs' hI'
  | onRequest hp hh _ _ ih => exact ih (hs.withRequest fun _ hm => Option.some.inj hm ▸ hh) hI
  | onMessage hp hh _ _ ih => exact ih (hs.withMessage fun _ hm => Option.some.inj hm ▸ hh) hI
  | onBinary hp hh _ _ ih => exact ih (hs.withBinary fun _ hm => Option.some.inj hm ▸ hh) hI

/-- Bytes of a connection without a session are dropped. -/
theorem receiveBy_of_none {run : Runner τ κ σ} {conn : κ} {s : Server τ κ σ}
    (hc : s.engine.registry.ofConn? conn = none) (data : Bytes) : (receiveBy run conn data s).2 = s := by
  rw [receiveBy, hc]

/-! ## Rounds of the dispatch -/

/-- What is done about a message that was taken off. -/
def handOver (run : Runner τ κ σ) (h : Handle) : Delivery → Server τ κ σ → Server τ κ σ
  | .wait, s | .again, s => s
  | .request r, s => handleRequest run h r s
  | .text text, s => handleMessage run h text s
  | .binary data, s => handleBinary run h data s

section

variable {run : Runner τ κ σ} {h : Handle} {s : Server τ κ σ} {engine : Engine τ κ σ}

theorem dispatchLoop_of_wait (hn : s.engine.next h = (.wait, engine)) (fuel : Nat) :
    dispatchLoop run h (fuel + 1) s = { s with engine } := by
  rw [dispatchLoop, hn]

theorem dispatchLoop_of_next {d : Delivery} (hd : d ≠ .wait) (hn : s.engine.next h = (d, engine)) (fuel : Nat) :
    dispatchLoop run h (fuel + 1) s = dispatchLoop run h fuel (handOver run h d { s with engine }) := by
  rw [dispatchLoop, hn]
  cases d with
  | wait => exact absurd rfl hd
  | _ => rfl

end

/-- An engine that a call of a handler leaves while the messages of a session are dealt with. -/
inductive DispatchLeaves (run : Runner τ κ σ) (h : Handle) : Server τ κ σ → Engine τ κ σ → Prop where
  | request {s : Server τ κ σ} {engine e : Engine τ κ σ} {r : Http.Request}
      {handler : Handle → Http.Request → Program τ κ σ} (hn : s.engine.next h = (.request r, engine))
      (hh : handler ∈ s.handlers.request) (hl : (handler h r).Leaves (engine.record (.request h r)) e) :
      DispatchLeaves run h s e
  | text {s : Server τ κ σ} {engine e : Engine τ κ σ} {text : String} {handler : Handle → String → Program τ κ σ}
      (hn : s.engine.next h = (.text text, engine)) (hh : handler ∈ s.handlers.message)
      (hl : (handler h text).Leaves (engine.record (.text h text)) e) : DispatchLeaves run h s e
  | binary {s : Server τ κ σ} {engine e : Engine τ κ σ} {data : Bytes} {handler : Handle → Bytes → Program τ κ σ}
      (hn : s.engine.next h = (.binary data, engine)) (hh : handler ∈ s.handlers.binary)
      (hl : (handler h data).Leaves (engine.record (.binary h data)) e) : DispatchLeaves run h s e
  | later {s : Server τ κ σ} {engine e : Engine τ κ σ} {d : Delivery} (hd : d ≠ .wait)
      (hn : s.engine.next h = (d, engine)) (hl : DispatchLeaves run h (handOver run h d { s with engine }) e) :
      DispatchLeaves run h s e

/-- An engine that an operation leaves, or a call that a handler makes meanwhile. -/
inductive Leaves (s : Server τ κ σ) : Operation τ κ σ → Engine τ κ σ → Prop where
  | apply (o : Operation τ κ σ) : Leaves s o (s.apply o).engine
  | dispatch {conn : κ} {data : Bytes} {t : Session κ} {e : Engine τ κ σ}
      (hc : s.engine.registry.ofConn? conn = some t) (ho : t.closing = false)
      (hl : DispatchLeaves (runBy (receiveWithin (receiveDepth - 1))) t.handle
        { s with engine := s.engine.gather t.handle data } e) : Leaves s (.receive conn data) e

/-! ## Runs are moves -/

variable {env : Surroundings τ} {p : Permit τ κ σ}

/-- `s'` came from `s` by moves, and its handlers do what is permitted. -/
structure Leads (env : Surroundings τ) (p : Permit τ κ σ) (s s' : Server τ κ σ) : Prop where
  moves : Engine.Moves env s.engine s'.engine
  handlers : s'.handlers.Within p

theorem Leads.trans {s s' s'' : Server τ κ σ} (h : Leads env p s s') (h' : Leads env p s' s'') :
    Leads env p s s'' :=
  ⟨h.moves.trans h'.moves, h'.handlers⟩

theorem conclude_leads (h : Handle) (reply : Reply) {s : Server τ κ σ} (hs : s.handlers.Within p) :
    Leads env p s (s.conclude h reply) := by
  rw [conclude]
  split
  · exact ⟨.refl, hs⟩
  · split
    · split
      · exact ⟨.refl, hs⟩
      · exact ⟨Engine.replyAndClose_moves _ _ _, hs⟩
    · split
      · exact ⟨Engine.flush_moves _ _, hs⟩
      · exact ⟨Engine.beginClose_moves _ _, hs⟩

/-- Handlers take their place again after they ran. -/
theorem mem_or {α : Type} {slot : Option α} {handler other : α} {P : α → Prop} (hslot : ∀ a ∈ slot, P a)
    (hhandler : P handler) (hm : other ∈ slot.or (some handler)) : P other := by
  cases slot with
  | none => exact Option.some.inj hm ▸ hhandler
  | some a => exact hslot other hm

section

variable {run : Runner τ κ σ} (hu : env.upgrades) (ht : env.takes) (hr : env.receives)
  (hrun : ∀ program s, program.Within p → s.handlers.Within p → Leads env p s (run program s).2)
include hrun

theorem handleRequest_leads (h : Handle) (r : Http.Request) {s : Server τ κ σ}
    (hs : s.handlers.Within p) : Leads env p s (handleRequest run h r s) := by
  rw [handleRequest]
  split
  · exact conclude_leads h {} hs
  · rename_i handler hslot
    dsimp only
    have hhandler := hs.request handler hslot
    have hnote : Engine.Moves env s.engine (s.engine.record (.request h r)) := .single (.noted trivial)
    have hl := hrun (handler h r) { s with
      engine := s.engine.record (.request h r), handlers := { s.handlers with request := none } }
      (hhandler h r) (hs.withRequest (by simp))
    generalize run (handler h r) _ = result at hl ⊢
    have hback : Leads env p s { result.2 with
        handlers := { result.2.handlers with request := result.2.handlers.request.or (some handler) } } :=
      ⟨hnote.trans hl.moves, hl.handlers.withRequest fun _ hm => mem_or hl.handlers.request hhandler hm⟩
    exact hback.trans (conclude_leads h _ hback.handlers)

theorem handleMessage_leads (h : Handle) (text : String) {s : Server τ κ σ}
    (hs : s.handlers.Within p) : Leads env p s (handleMessage run h text s) := by
  rw [handleMessage]
  split
  · exact ⟨.refl, hs⟩
  · rename_i handler hslot
    dsimp only
    have hhandler := hs.message handler hslot
    have hnote : Engine.Moves env s.engine (s.engine.record (.text h text)) := .single (.noted trivial)
    have hl := hrun (handler h text) { s with
      engine := s.engine.record (.text h text), handlers := { s.handlers with message := none } }
      (hhandler h text) (hs.withMessage (by simp))
    exact ⟨hnote.trans hl.moves,
      hl.handlers.withMessage fun _ hm => mem_or hl.handlers.message hhandler hm⟩

theorem handleBinary_leads (h : Handle) (data : Bytes) {s : Server τ κ σ}
    (hs : s.handlers.Within p) : Leads env p s (handleBinary run h data s) := by
  rw [handleBinary]
  split
  · exact ⟨.refl, hs⟩
  · rename_i handler hslot
    dsimp only
    have hhandler := hs.binary handler hslot
    have hnote : Engine.Moves env s.engine (s.engine.record (.binary h data)) := .single (.noted trivial)
    have hl := hrun (handler h data) { s with
      engine := s.engine.record (.binary h data), handlers := { s.handlers with binary := none } }
      (hhandler h data) (hs.withBinary (by simp))
    exact ⟨hnote.trans hl.moves,
      hl.handlers.withBinary fun _ hm => mem_or hl.handlers.binary hhandler hm⟩

theorem handOver_leads (h : Handle) (d : Delivery) {s : Server τ κ σ} (hs : s.handlers.Within p) :
    Leads env p s (handOver run h d s) := by
  cases d with
  | wait => exact ⟨.refl, hs⟩
  | again => exact ⟨.refl, hs⟩
  | request r => exact handleRequest_leads hrun h r hs
  | text text => exact handleMessage_leads hrun h text hs
  | binary data => exact handleBinary_leads hrun h data hs

include hu ht

theorem dispatchLoop_leads (h : Handle) (fuel : Nat) {s : Server τ κ σ} (hs : s.handlers.Within p) :
    Leads env p s (dispatchLoop run h fuel s) := by
  induction fuel generalizing s with
  | zero => exact ⟨.refl, hs⟩
  | succ fuel ih =>
      have hnext : Engine.Moves env s.engine (s.engine.next h).2 := Engine.next_moves hu ht s.engine h
      cases hn : s.engine.next h with
      | mk d engine =>
          rw [hn] at hnext
          have hl : Leads env p s { s with engine } := ⟨hnext, hs⟩
          by_cases hd : d = .wait
          · subst hd
            rwa [dispatchLoop_of_wait hn]
          · have hr := handOver_leads hrun h d hl.handlers
            rw [dispatchLoop_of_next hd hn]
            exact hl.trans (hr.trans (ih hr.handlers))

include hr

theorem receiveBy_leads (conn : κ) (data : Bytes) {s : Server τ κ σ} (hs : s.handlers.Within p) :
    Leads env p s (receiveBy run conn data s).2 := by
  rw [receiveBy]
  split
  · exact ⟨.refl, hs⟩
  · rename_i t _
    split
    · exact ⟨.refl, hs⟩
    · dsimp only
      have hgather : Leads env p s { s with engine := s.engine.gather t.handle data } :=
        ⟨Engine.gather_moves hr s.engine t.handle data, hs⟩
      exact hgather.trans (dispatchLoop_leads hu ht hrun _ _ hgather.handlers)

end

section

variable (hu : env.upgrades) (ht : env.takes) (hr : env.receives)
  (hp : ∀ e c, p.call c → Engine.Allows env e c)
include hp

theorem runBy_leads {receive : κ → Bytes → Server τ κ σ → Nat × Server τ κ σ}
    (hreceive : p.reenter → ∀ conn data s, s.handlers.Within p → Leads env p s (receive conn data s).2)
    (program : Program τ κ σ) (s : Server τ κ σ) (hprogram : program.Within p)
    (hs : s.handlers.Within p) : Leads env p s (runBy receive program s).2 := by
  have h := runBy_preserves (I := Engine.Moves env s.engine) receive
    (fun e c hc he => he.trans (Engine.perform_moves e c (hp e c hc)))
    (fun hp conn data u hu he =>
      ⟨he.trans (hreceive hp conn data u hu).moves, (hreceive hp conn data u hu).handlers⟩)
    hprogram hs .refl
  exact ⟨h.1, h.2⟩

include hu ht hr

theorem receiveWithin_leads (depth : Nat) (conn : κ) (data : Bytes) (s : Server τ κ σ)
    (hs : s.handlers.Within p) : Leads env p s (receiveWithin depth conn data s).2 := by
  induction depth generalizing conn data s with
  | zero => exact ⟨.refl, hs⟩
  | succ depth ih => exact receiveBy_leads hu ht hr (runBy_leads hp fun _ => ih) conn data hs

/-- An operation moves the engine, and leaves handlers that do what is permitted. -/
theorem apply_leads {s : Server τ κ σ} {o : Operation τ κ σ} (hs : s.handlers.Within p)
    (hinstalls : o.Installs p) (hallows : ∀ c, o = .call c → Engine.Allows env s.engine c) :
    Leads env p s (s.apply o) := by
  cases o with
  | call c => exact ⟨Engine.perform_moves _ c (hallows c rfl), hs⟩
  | receive conn data => exact receiveWithin_leads hu ht hr hp receiveDepth conn data s hs
  | onRequest handler => exact ⟨.refl, hs.withRequest fun _ hm => Option.some.inj hm ▸ hinstalls⟩
  | onMessage handler => exact ⟨.refl, hs.withMessage fun _ hm => Option.some.inj hm ▸ hinstalls⟩
  | onBinary handler => exact ⟨.refl, hs.withBinary fun _ hm => Option.some.inj hm ▸ hinstalls⟩

theorem Reaches.leads {allowed : Server τ κ σ → Operation τ κ σ → Prop} {start s : Server τ κ σ}
    (hstart : start.handlers.Within p)
    (hallowed : ∀ s o, allowed s o →
      o.Installs p ∧ ∀ c, o = .call c → Engine.Allows env s.engine c)
    (hr : Reaches allowed start s) : Leads env p start s := by
  induction hr with
  | start => exact ⟨.refl, hstart⟩
  | step _ ho ih =>
      obtain ⟨hinstalls, hallows⟩ := hallowed _ _ ho
      exact ih.trans (apply_leads hu ht hr hp ih.handlers hinstalls hallows)

end

/-- Handlers that do what is permitted are only ever replaced by others that do. -/
theorem apply_within {s : Server τ κ σ} {o : Operation τ κ σ} (hs : s.handlers.Within p)
    (hinstalls : o.Installs p) : (s.apply o).handlers.Within p := by
  exact (apply_leads trivial trivial trivial (fun e c _ => Engine.allows_any e c) hs hinstalls
    fun c _ => Engine.allows_any s.engine c).handlers

/-- Whatever was done to a server, its registry is in order. -/
theorem Reaches.wellFormed {allowed : Server τ κ σ → Operation τ κ σ → Prop} {config : Config} {transport : τ} {app : σ}
    {s : Server τ κ σ} (hr : Reaches allowed (new config transport app) s) : s.engine.registry.WellFormed := by
  have hl : Leads {} (.any τ κ σ) (new config transport app) s :=
    hr.leads trivial trivial trivial (fun e c _ => Engine.allows_any e c) (Handlers.within_none _)
      fun s o _ => ⟨o.installs_any, fun c _ => Engine.allows_any s.engine c⟩
  exact hl.moves.wellFormed (Registry.wellFormed_new _)

end Server
end WebServer
