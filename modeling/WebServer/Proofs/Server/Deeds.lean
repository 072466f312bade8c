import WebServer.Proofs.Server.Runs

/-! # Deeds

An operation is a sequence of deeds: the calls from outside and those that handlers make meanwhile, the messages taken
off, the handlers called and the reports acted upon. Doing the deeds one after the other gives the engine that the
operation leaves, so the beginnings of the deeds of a run are its moments. -/

namespace WebServer

variable {τ κ σ : Type}

/-- Something a server does as a whole. -/
inductive Deed (τ κ σ : Type) where
  | call (c : Call τ κ σ)
  /-- Bytes arrive on a session that is not closing. -/
  | received (h : Handle) (data : Bytes)
  /-- The next message is taken off the bytes of a session. -/
  | took (h : Handle)
  /-- A message is given to its handler. -/
  | handed (h : Handle) (d : Delivery)
  /-- The report of a request handler is acted upon. -/
  | concluded (h : Handle) (reply : Reply)

section

variable [DecidableEq κ] [Transport τ κ]

/-- What a deed makes of an engine. -/
def Deed.act : Deed τ κ σ → Engine τ κ σ → Engine τ κ σ
  | .call c, e => (e.perform c).2
  | .received h data, e => e.gather h data
  | .took h, e => (e.next h).2
  | .handed h (.request r), e => e.record (.request h r)
  | .handed h (.text text), e => e.record (.text h text)
  | .handed h (.binary data), e => e.record (.binary h data)
  | .handed _ .wait, e | .handed _ .again, e => e
  | .concluded h reply, e => (Server.conclude h reply { engine := e }).engine

namespace Engine

/-- The engine after some deeds. -/
def after (e : Engine τ κ σ) (ds : List (Deed τ κ σ)) : Engine τ κ σ :=
  ds.foldl (fun e d => d.act e) e

variable (e : Engine τ κ σ) (d : Deed τ κ σ) (ds es : List (Deed τ κ σ))

@[simp] theorem after_nil : e.after [] = e := rfl

@[simp] theorem after_cons : e.after (d :: ds) = (d.act e).after ds := rfl

@[simp] theorem after_append : e.after (ds ++ es) = (e.after ds).after es :=
  List.foldl_append

theorem after_concat : e.after (ds ++ [d]) = d.act (e.after ds) :=
  after_append e ds [d]

end Engine

namespace Server

/-! ## The deeds of an operation -/

/-- How the deeds of a program are listed. -/
abbrev Lister (τ κ σ : Type) := Program τ κ σ → Server τ κ σ → List (Deed τ κ σ)

section

variable (run : Runner τ κ σ) (list : Lister τ κ σ) (h : Handle)

def handOverDeeds : Delivery → Server τ κ σ → List (Deed τ κ σ)
  | .wait, _ | .again, _ => []
  | .request r, s =>
    match s.handlers.request with
    | none => [.concluded h {}]
    | some handler =>
      let s := { s with
        engine := s.engine.record (.request h r), handlers := { s.handlers with request := none } }
      .handed h (.request r) :: list (handler h r) s ++ [.concluded h (run (handler h r) s).1]
  | .text text, s =>
    match s.handlers.message with
    | none => []
    | some handler =>
      .handed h (.text text) :: list (handler h text) { s with
        engine := s.engine.record (.text h text), handlers := { s.handlers with message := none } }
  | .binary data, s =>
    match s.handlers.binary with
    | none => []
    | some handler =>
      .handed h (.binary data) :: list (handler h data) { s with
        engine := s.engine.record (.binary h data), handlers := { s.handlers with binary := none } }

def dispatchDeeds : (fuel : Nat) → Server τ κ σ → List (Deed τ κ σ)
  | 0, _ => []
  | fuel + 1, s =>
    match s.engine.next h with
    | (.wait, _) => [.took h]
    | (d, engine) =>
      .took h :: handOverDeeds run list h d { s with engine } ++
        dispatchDeeds fuel (handOver run h d { s with engine })

end

def receiveDeedsBy (run : Runner τ κ σ) (list : Lister τ κ σ) (conn : κ) (data : Bytes) (s : Server τ κ σ) :
    List (Deed τ κ σ) :=
  match s.engine.registry.ofConn? conn with
  | none => []
  | some t =>
    if t.closing then []
    else
      .received t.handle data :: dispatchDeeds run list t.handle (t.inbound.length + data.length + 1)
        { s with engine := s.engine.gather t.handle data }

/-- The deeds of a program, given how bytes are received and what the deeds of that are. -/
def runDeedsBy (receive : κ → Bytes → Server τ κ σ → Nat × Server τ κ σ)
    (list : κ → Bytes → Server τ κ σ → List (Deed τ κ σ)) : Lister τ κ σ
  | .done _, _ => []
  | .call c next, s =>
    .call c :: runDeedsBy receive list (next (s.engine.perform c).1) { s with engine := (s.engine.perform c).2 }
  | .receive conn data next, s =>
    list conn data s ++ runDeedsBy receive list (next (receive conn data s).1) (receive conn data s).2
  | .onRequest handler next, s =>
    runDeedsBy receive list next { s with handlers := { s.handlers with request := some handler } }
  | .onMessage handler next, s =>
    runDeedsBy receive list next { s with handlers := { s.handlers with message := some handler } }
  | .onBinary handler next, s =>
    runDeedsBy receive list next { s with handlers := { s.handlers with binary := some handler } }

def receiveDeedsWithin : (depth : Nat) → κ → Bytes → Server τ κ σ → List (Deed τ κ σ)
  | 0, _, _, _ => []
  | depth + 1, conn, data, s =>
    receiveDeedsBy (runBy (receiveWithin depth)) (runDeedsBy (receiveWithin depth) (receiveDeedsWithin depth))
      conn data s

/-- The deeds of an operation. -/
def deeds (s : Server τ κ σ) (o : Operation τ κ σ) : List (Deed τ κ σ) :=
  runDeedsBy receive (receiveDeedsWithin receiveDepth) o.program s

/-! ## Doing them -/

theorem conclude_engine (h : Handle) (reply : Reply) (s : Server τ κ σ) :
    (s.conclude h reply).engine = (Deed.concluded h reply).act s.engine := by
  rw [Deed.act, conclude, conclude]
  cases hs : s.engine.session? h with
  | none => dsimp only
  | some t =>
      dsimp only
      cases reply.handled <;> cases t.closing <;> cases reply.keepOpen <;> rfl

section

variable {run : Runner τ κ σ} {list : Lister τ κ σ} {h : Handle} {s : Server τ κ σ} {engine : Engine τ κ σ}

theorem dispatchDeeds_of_wait (hn : s.engine.next h = (.wait, engine)) (fuel : Nat) :
    dispatchDeeds run list h (fuel + 1) s = [.took h] := by
  rw [dispatchDeeds, hn]

theorem dispatchDeeds_of_next {d : Delivery} (hd : d ≠ .wait) (hn : s.engine.next h = (d, engine)) (fuel : Nat) :
    dispatchDeeds run list h (fuel + 1) s = .took h :: (handOverDeeds run list h d { s with engine } ++
      dispatchDeeds run list h fuel (handOver run h d { s with engine })) := by
  rw [dispatchDeeds, hn]
  cases d with
  | wait => exact absurd rfl hd
  | _ => rfl

end

section

variable {run : Runner τ κ σ} {list : Lister τ κ σ}
  (hrun : ∀ program s, (run program s).2.engine = s.engine.after (list program s))
include hrun

theorem handOver_engine (h : Handle) (d : Delivery) (s : Server τ κ σ) :
    (handOver run h d s).engine = s.engine.after (handOverDeeds run list h d s) := by
  cases d with
  | wait | again => rfl
  | request r =>
      rw [handOver, handleRequest, handOverDeeds]
      cases s.handlers.request with
      | none => exact conclude_engine h {} s
      | some handler =>
          dsimp only
          rw [conclude_engine, List.cons_append, Engine.after_cons, Engine.after_concat]
          exact congrArg (Deed.act _) (hrun (handler h r) _)
  | text text =>
      rw [handOver, handleMessage, handOverDeeds]
      cases s.handlers.message with
      | none => rfl
      | some handler => exact hrun (handler h text) _
  | binary data =>
      rw [handOver, handleBinary, handOverDeeds]
      cases s.handlers.binary with
      | none => rfl
      | some handler => exact hrun (handler h data) _

theorem dispatchLoop_engine (h : Handle) (fuel : Nat) (s : Server τ κ σ) :
    (dispatchLoop run h fuel s).engine = s.engine.after (dispatchDeeds run list h fuel s) := by
  induction fuel generalizing s with
  | zero => rfl
  | succ fuel ih =>
      cases hn : s.engine.next h with
      | mk d engine =>
          have htook : (Deed.took h).act s.engine = engine := congrArg Prod.snd hn
          by_cases hd : d = .wait
          · subst hd
            rw [dispatchLoop_of_wait hn, dispatchDeeds_of_wait hn]
            exact htook.symm
          · rw [dispatchLoop_of_next hd hn, dispatchDeeds_of_next hd hn, ih, Engine.after_cons, Engine.after_append,
              htook, handOver_engine hrun]

theorem receiveBy_engine (conn : κ) (data : Bytes) (s : Server τ κ σ) :
    (receiveBy run conn data s).2.engine = s.engine.after (receiveDeedsBy run list conn data s) := by
  rw [receiveBy, receiveDeedsBy]
  cases s.engine.registry.ofConn? conn with
  | none => rfl
  | some t =>
      dsimp only
      split
      · rfl
      · exact dispatchLoop_engine hrun t.handle _ _

end

theorem runBy_engine {receive : κ → Bytes → Server τ κ σ → Nat × Server τ κ σ}
    {list : κ → Bytes → Server τ κ σ → List (Deed τ κ σ)}
    (hreceive : ∀ conn data s, (receive conn data s).2.engine = s.engine.after (list conn data s))
    (program : Program τ κ σ) (s : Server τ κ σ) :
    (runBy receive program s).2.engine = s.engine.after (runDeedsBy receive list program s) := by
  induction program generalizing s with
  | done reply => rfl
  | call c next ih => exact ih _ _
  | receive conn data next ih =>
      rw [runBy, runDeedsBy, Engine.after_append, ← hreceive]
      exact ih _ _
  | onRequest handler next _ ih => exact ih _
  | onMessage handler next _ ih => exact ih _
  | onBinary handler next _ ih => exact ih _

theorem receiveWithin_engine (depth : Nat) (conn : κ) (data : Bytes) (s : Server τ κ σ) :
    (receiveWithin depth conn data s).2.engine = s.engine.after (receiveDeedsWithin depth conn data s) := by
  induction depth generalizing conn data s with
  | zero => rfl
  | succ depth ih => exact receiveBy_engine (runBy_engine ih) conn data s

/-- An operation does its deeds. -/
theorem apply_engine (s : Server τ κ σ) (o : Operation τ κ σ) :
    (s.apply o).engine = s.engine.after (s.deeds o) :=
  runBy_engine (receiveWithin_engine receiveDepth) o.program s

/-! ## Runs -/

/-- The deeds of a run, and the server that `start` has become. -/
inductive Course (allowed : Server τ κ σ → Operation τ κ σ → Prop) (start : Server τ κ σ) :
    List (Deed τ κ σ) → Server τ κ σ → Prop where
  | start : Course allowed start [] start
  | step {ds : List (Deed τ κ σ)} {s : Server τ κ σ} {o : Operation τ κ σ} (hc : Course allowed start ds s)
      (ho : allowed s o) : Course allowed start (ds ++ s.deeds o) (s.apply o)

variable {allowed : Server τ κ σ → Operation τ κ σ → Prop} {start s : Server τ κ σ} {ds : List (Deed τ κ σ)}

theorem Course.engine (hc : Course allowed start ds s) : s.engine = start.engine.after ds := by
  induction hc with
  | start => rfl
  | step _ _ ih => rw [apply_engine, Engine.after_append, ih]

/-- The deeds of operations, one after the other. -/
def deedsOf : List (Operation τ κ σ) → Server τ κ σ → List (Deed τ κ σ)
  | [], _ => []
  | o :: os, s => s.deeds o ++ deedsOf os (s.apply o)

theorem Course.deedsOf (hc : Course allowed start ds s) {os : List (Operation τ κ σ)}
    (hos : ∀ o ∈ os, ∀ s, allowed s o) : Course allowed start (ds ++ deedsOf os s) (os.foldl apply s) := by
  induction os generalizing ds s with
  | nil => simpa [Server.deedsOf] using hc
  | cons o os ih =>
      rw [List.forall_mem_cons] at hos
      rw [Server.deedsOf, ← List.append_assoc]
      exact ih (hc.step (hos.1 s)) hos.2

theorem course_deedsOf {os : List (Operation τ κ σ)} (hos : ∀ o ∈ os, ∀ s, allowed s o) :
    Course allowed start (deedsOf os start) (os.foldl apply start) :=
  Course.start.deedsOf hos

/-- Every run has its deeds. -/
theorem Reaches.course (hr : Reaches allowed start s) : ∃ ds, Course allowed start ds s := by
  induction hr with
  | start => exact ⟨[], .start⟩
  | step _ ho ih =>
      obtain ⟨ds, hc⟩ := ih
      exact ⟨_, hc.step ho⟩

end Server

end

end WebServer
