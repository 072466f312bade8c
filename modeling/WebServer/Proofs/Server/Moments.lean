import WebServer.Proofs.Inbound.Acts
import WebServer.Proofs.Server.Coherence
import WebServer.Proofs.Server.Deeds

/-! # Moments

The moments of a run are the engines between its deeds. Every deed is a chain of effects under the licence of its
kind, so that sessions are regular at every moment. -/

namespace WebServer

variable {τ κ σ : Type}

/-! ## Moves in wider surroundings -/

namespace Engine

variable [DecidableEq κ] [Transport τ κ] {env : Surroundings τ} {e e' : Engine τ κ σ}

/-- Moves are moves where everything else is allowed, too. -/
theorem Move.relax {drift : τ → τ → Prop} (hd : ∀ t t', env.drift t t' → drift t t') (hm : Move env e e') :
    Move { drift } e e' := by
  cases hm with
  | accepted _ hr => exact .accepted trivial hr
  | adjusted h hf => exact .adjusted h hf
  | received h data => exact .received h data trivial
  | took h => exact .took h trivial
  | upgraded h => exact .upgraded h trivial
  | queued hs hq => exact .queued hs hq
  | acknowledged h count => exact .acknowledged h count
  | flushed h => exact .flushed h
  | hungUp hs => exact .hungUp hs
  | removed h => exact .removed h
  | noted hn => exact .noted hn
  | told hw => exact .told hw
  | listened port => exact .listened port
  | stoppedListening => exact .stoppedListening
  | drifted h => exact .drifted (hd _ _ h)
  | advanced millis => exact .advanced millis trivial
  | arranged hr ht hj hc hn => exact .arranged hr ht hj hc hn (.inl trivial)

theorem Moves.relax {drift : τ → τ → Prop} (hd : ∀ t t', env.drift t t' → drift t t') (hm : Moves env e e') :
    Moves { drift } e e' := by
  induction hm with
  | refl => exact .refl
  | tail _ hmove ih => exact ih.tail (hmove.relax hd)

end Engine

/-! ## Licences -/

section

variable [DecidableEq κ] [Transport τ κ]

/-- What a call may do. -/
def Call.license (e : Engine τ κ σ) : Call τ κ σ → License τ
  | .accept conn => { accepts := True, on := fun h => (e.accept conn).1 = some h }
  | .sent conn _ => { acknowledges := True, on := fun h => e.registry.handleOf? conn = some h }
  | .remoteClosed conn | .pollConn conn => { forces := True, on := fun h => e.registry.handleOf? conn = some h }
  | .failed conn => { drops := True, on := fun h => e.registry.handleOf? conn = some h }
  | .poll | .stop => { forces := True }
  | .send h _ | .sendMessage h _ | .sendBinary h _ | .serve _ h _ => { sends := True, on := fun g => g = h }
  | .broadcast _ => { sends := True }
  | .close h => { on := fun g => g = h }
  | .advance _ => { advances := True }
  | .setTransport transport => { drift := fun _ t => t = transport }
  | .watch _ | .setApp _ => { arranges := True }
  | .start | .inspect => {}

/-- What a deed may do. -/
def Deed.license (e : Engine τ κ σ) : Deed τ κ σ → License τ
  | .call c => c.license e
  | .received h _ => { receives := True, on := fun g => g = h }
  | .took h => { takes := True, upgrades := True, on := fun g => g = h }
  | .handed h _ => { hands := True, on := fun g => g = h }
  | .concluded h _ => { answers := ¬e.registry.At h fun t => t.mode = .http, on := fun g => g = h }

omit [Transport τ κ] in
/-- Nothing but the outside world and the application exchanges the transport. -/
theorem Deed.not_drift {e : Engine τ κ σ} {d : Deed τ κ σ} (hd : ∀ transport, d ≠ .call (.setTransport transport))
    (t t' : τ) : ¬(d.license e).drift t t' := by
  cases d with
  | call c =>
      cases c with
      | setTransport transport => exact absurd rfl (hd transport)
      | _ => exact id
  | received | took | handed | concluded => exact id

/-- Whether the transport is exchanged. -/
def Deed.exchanges : Deed τ κ σ → Bool
  | .call (.setTransport _) => true
  | _ => false

/-- Whether the application is exchanged, or watches in another way than before. -/
def Deed.arranges : Deed τ κ σ → Bool
  | .call (.watch _) | .call (.setApp _) => true
  | _ => false

omit [DecidableEq κ] [Transport τ κ] in
theorem Deed.ne_setTransport {d : Deed τ κ σ} (hd : d.exchanges = false) (transport : τ) :
    d ≠ .call (.setTransport transport) := by
  rintro rfl
  cases hd

omit [Transport τ κ] in
theorem Deed.not_arranges {e : Engine τ κ σ} {d : Deed τ κ σ} (hd : d.arranges = false) : ¬(d.license e).arranges := by
  cases d with
  | call c =>
      cases c with
      | watch | setApp => cases hd
      | _ => exact id
  | received | took | handed | concluded => exact id

omit [Transport τ κ] in
/-- Only a failure of its connection makes a session go without a word to the transport. -/
theorem Deed.eq_failed_of_drops {e : Engine τ κ σ} (w : e.registry.WellFormed) {d : Deed τ κ σ} {h : Handle}
    {t : Session κ} (hs : e.session? h = some t) (hd : (d.license e).drops) (hon : (d.license e).on h) :
    d = .call (.failed t.conn) := by
  cases d with
  | call c =>
      cases c with
      | failed conn =>
          obtain ⟨u, hu, rfl, hh⟩ := w.handleOf?_eq_some.mp hon
          have ht := Registry.mem_of_get? hs
          rw [w.eq_of_handle hu ht (hh.trans (Registry.handle_of_get? hs).symm)]
      | _ => exact hd.elim
  | received | took | handed | concluded => exact hd.elim

theorem Call.acts (c : Call τ κ σ) (e : Engine τ κ σ) : Acts (c.license e) e (e.perform c).2 := by
  cases c with
  | accept conn => exact Engine.accept_acts trivial fun _ hh => hh
  | sent conn count => exact Engine.sent_acts trivial (fun _ hh => hh) count
  | remoteClosed conn => exact Engine.remoteClosed_acts trivial fun _ hh => hh
  | failed conn => exact Engine.failed_acts trivial fun _ hh => hh
  | pollConn conn => exact Engine.pollConn_acts trivial fun _ hh => hh
  | poll => exact Engine.poll_acts (fun _ => trivial) trivial
  | send h data => exact Engine.send_acts rfl trivial data
  | sendMessage h text => exact Engine.sendFrame_acts rfl trivial .text (Text.utf8 text)
  | sendBinary h data => exact Engine.sendFrame_acts rfl trivial .binary data
  | broadcast text => exact Engine.sendToAll_acts (fun _ => trivial) trivial text e.audience e
  | serve files h r => exact Engine.serve_acts rfl trivial files r
  | close h => exact Engine.close_acts rfl
  | start => exact Engine.start_acts _ e
  | stop => exact Engine.stop_acts (fun _ => trivial) trivial
  | advance millis => exact .of_aside ⟨.single (.advanced millis trivial), rfl, rfl, id⟩
  | watch watcher => exact .of_aside ⟨.single (.arranged rfl rfl rfl rfl rfl (.inl trivial)), rfl, rfl, fun _ => rfl⟩
  | inspect => exact .refl _ e
  | setTransport transport => exact .of_aside ⟨.single (.drifted rfl), rfl, rfl, id⟩
  | setApp app => exact .of_aside ⟨.single (.arranged rfl rfl rfl rfl rfl (.inl trivial)), rfl, rfl, id⟩

/-- An entry about a message that is handed over leaves every session as it is. -/
theorem Engine.record_acts {lic : License τ} {h : Handle} (hon : lic.on h) (hl : lic.hands) {entry : Entry κ}
    (he : entry.Hands h) (e : Engine τ κ σ) : Acts lic e (e.record entry) := by
  have hn : entry.IsNote := by cases he <;> trivial
  exact .of_affects fun _ => ⟨hon, .single (.noted hn), rfl, fun _ _ => rfl, ⟨[entry], rfl, .handed he hl⟩,
    fun _ hs hnone => nomatch hs.symm.trans hnone⟩

theorem Engine.conclude_acts {lic : License τ} {h : Handle} (hon : lic.on h) {e : Engine τ κ σ}
    (ha : lic.answers ∨ e.registry.At h fun t => t.mode = .http) (reply : Reply) :
    Acts lic e (Server.conclude h reply { engine := e }).engine := by
  refine .of_regular fun r => ?_
  rw [Server.conclude]
  dsimp only
  split
  · exact .refl lic e
  · rename_i t hs
    split
    · split
      · exact .refl lic e
      · rename_i ho
        have hopen := ha.imp_right fun a => isEnding_of_http r a (.of_get? hs (by simpa using ho))
        exact replyAndClose_acts hon hopen Http.Response.not_isClose_notFound
    · split
      · exact flush_acts hon
      · exact beginClose_acts hon

/-- Every deed is a chain of effects that its licence allows. -/
theorem Deed.acts (d : Deed τ κ σ) (e : Engine τ κ σ) : Acts (d.license e) e (d.act e) := by
  cases d with
  | call c => exact c.acts e
  | received h data => exact Engine.gather_acts rfl trivial data
  | took h => exact Engine.next_acts rfl trivial trivial
  | handed h m =>
      cases m with
      | request r => exact Engine.record_acts rfl trivial (.request r) e
      | text message => exact Engine.record_acts rfl trivial (.text message) e
      | binary message => exact Engine.record_acts rfl trivial (.binary message) e
      | wait | again => exact .refl _ e
  | concluded h reply =>
      have hlicense : (Deed.license e (.concluded h reply : Deed τ κ σ)).on h := rfl
      exact Engine.conclude_acts hlicense (Classical.em _).symm reply

namespace Engine

variable {e : Engine τ κ σ}

theorem after_regular (r : e.registry.Regular) (ds : List (Deed τ κ σ)) : (e.after ds).registry.Regular := by
  induction ds generalizing e with
  | nil => exact r
  | cons d ds ih => exact ih ((d.acts e).regular r)

end Engine

/-! ## What is done in a run -/

/-- Every call is one that `C` allows, and every report that is acted upon is about a session with `D`. -/
def Deed.Keeps (C : Engine τ κ σ → Call τ κ σ → Prop) (D : Engine τ κ σ → Handle → Prop) (e : Engine τ κ σ) :
    Deed τ κ σ → Prop
  | .call c => C e c
  | .concluded h _ => D e h
  | .received .. | .took _ | .handed .. => True

/-- Every deed has a property together with the engine it is done to. -/
def Deed.All (Q : Engine τ κ σ → Deed τ κ σ → Prop) : Engine τ κ σ → List (Deed τ κ σ) → Prop
  | _, [] => True
  | e, d :: ds => Q e d ∧ All Q (d.act e) ds

theorem Deed.all_append {Q : Engine τ κ σ → Deed τ κ σ → Prop} {e : Engine τ κ σ} {ds es : List (Deed τ κ σ)} :
    Deed.All Q e (ds ++ es) ↔ Deed.All Q e ds ∧ Deed.All Q (e.after ds) es := by
  induction ds generalizing e with
  | nil => simp [Deed.All]
  | cons d ds ih => simp [Deed.All, ih, and_assoc]

/-- What is known of the deeds alone does not depend on what they are done to. -/
theorem Deed.all_of_forall {P : Deed τ κ σ → Prop} {ds : List (Deed τ κ σ)} (hds : ∀ d ∈ ds, P d) (e : Engine τ κ σ) :
    Deed.All (fun _ d => P d) e ds := by
  induction ds generalizing e with
  | nil => trivial
  | cons d ds ih =>
      rw [List.forall_mem_cons] at hds
      exact ⟨hds.1, ih hds.2 (d.act e)⟩

theorem Deed.all_true (e : Engine τ κ σ) (ds : List (Deed τ κ σ)) : Deed.All (fun _ _ => True) e ds :=
  Deed.all_of_forall (fun _ _ => trivial) e

/-- What the effects of every deed keep, is kept at every moment. -/
theorem Engine.after_keep {Q : Engine τ κ σ → Deed τ κ σ → Prop} {I : Engine τ κ σ → Prop}
    (hI : ∀ (d : Deed τ κ σ) (e m m' : Engine τ κ σ), Q e d → m.registry.Regular → Step (d.license e) m m' → I m → I m')
    {e : Engine τ κ σ} (r : e.registry.Regular) (he : I e) {ds : List (Deed τ κ σ)} (hds : Deed.All Q e ds) :
    I (e.after ds) := by
  induction ds generalizing e with
  | nil => exact he
  | cons d ds ih =>
      exact ih ((d.acts e).regular r) ((d.acts e).keep r (fun _ _ => hI d e _ _ hds.1) he) hds.2

/-- Nothing that was entered in the journal is taken back. -/
theorem Engine.journal_suffix_after {e : Engine τ κ σ} (r : e.registry.Regular) (ds : List (Deed τ κ σ)) :
    e.journal <:+ (e.after ds).journal :=
  after_keep (I := fun m => e.journal <:+ m.journal) (fun _ _ _ _ _ _ hs hm => hm.trans hs.moves.journal_suffix) r
    (List.suffix_refl _) (Deed.all_true e ds)

theorem issues_le {e : Engine τ κ σ} (r : e.registry.Regular) (h : Handle) (ds : List (Deed τ κ σ)) :
    issues h e.journal ≤ issues h (e.after ds).journal := by
  obtain ⟨gained, hj⟩ := Engine.journal_suffix_after r ds
  rw [← hj]
  exact issues_le_append h gained e.journal

theorem Engine.after_config {e : Engine τ κ σ} (r : e.registry.Regular) (ds : List (Deed τ κ σ)) :
    (e.after ds).config = e.config :=
  after_keep (I := fun m => m.config = e.config) (fun _ _ _ _ _ _ hs hc => hs.moves.config.trans hc) r rfl
    (Deed.all_true e ds)

namespace Server

section

variable {C : Engine τ κ σ → Call τ κ σ → Prop} {D : Engine τ κ σ → Handle → Prop} {env : Surroundings τ}
  {p : Permit τ κ σ}

/-- The deeds of a program are as they should be. -/
def Lists (C : Engine τ κ σ → Call τ κ σ → Prop) (D : Engine τ κ σ → Handle → Prop) (p : Permit τ κ σ)
    (list : Lister τ κ σ) : Prop :=
  ∀ program s, program.Within p → s.handlers.Within p → s.engine.registry.WellFormed →
    Deed.All (Deed.Keeps C D) s.engine (list program s)

/-- The reports that are acted upon are about sessions with `D`, as long as nothing but moves in the surroundings came
after the request was taken off. -/
def Reports (D : Engine τ κ σ → Handle → Prop) (env : Surroundings τ) : Prop :=
  ∀ (e m m' : Engine τ κ σ) (h : Handle) (r : Http.Request), e.next h = (.request r, m) → m.registry.WellFormed →
    Engine.Moves env m m' → D m' h

section

variable {run : Runner τ κ σ} {list : Lister τ κ σ}
  (hengine : ∀ program s, (run program s).2.engine = s.engine.after (list program s))
  (hleads : ∀ program s, program.Within p → s.handlers.Within p → Leads env p s (run program s).2)
  (hlist : Lists C D p list) (hD : Reports D env)
include hengine hleads hlist hD

theorem handOverDeeds_all {s : Server τ κ σ} {h : Handle} {d : Delivery} {engine : Engine τ κ σ}
    (hn : s.engine.next h = (d, engine)) (w : engine.registry.WellFormed) (hs : s.handlers.Within p) :
    Deed.All (Deed.Keeps C D) engine (handOverDeeds run list h d { s with engine }) := by
  cases d with
  | wait | again => trivial
  | request r =>
      rw [handOverDeeds]
      dsimp only
      cases hslot : s.handlers.request with
      | none => exact ⟨hD _ _ _ h r hn w .refl, trivial⟩
      | some handler =>
          dsimp only
          generalize hs' : ({ s with
            engine := engine.record (.request h r), handlers := { s.handlers with request := none } } :
              Server τ κ σ) = s'
          have hhandlers : s'.handlers.Within p := hs' ▸ hs.withRequest (by simp)
          have hnote : Engine.Moves env engine s'.engine := hs' ▸ .single (.noted trivial)
          have hl := hleads (handler h r) s' (hs.request handler hslot h r) hhandlers
          have hreport := hD _ _ _ h r hn w (hnote.trans hl.moves)
          rw [hengine] at hreport
          have hall := hlist _ s' (hs.request handler hslot h r) hhandlers (hnote.wellFormed w)
          rw [show s'.engine = (Deed.handed h (.request r)).act engine from hs' ▸ rfl] at hreport hall
          exact ⟨trivial, Deed.all_append.mpr ⟨hall, hreport, trivial⟩⟩
  | text text =>
      rw [handOverDeeds]
      dsimp only
      cases hslot : s.handlers.message with
      | none => trivial
      | some handler =>
          have hall := hlist _ { s with
            engine := engine.record (.text h text), handlers := { s.handlers with message := none } }
            (hs.message handler hslot h text) (hs.withMessage (by simp)) w
          exact ⟨trivial, hall⟩
  | binary data =>
      rw [handOverDeeds]
      dsimp only
      cases hslot : s.handlers.binary with
      | none => trivial
      | some handler =>
          have hall := hlist _ { s with
            engine := engine.record (.binary h data), handlers := { s.handlers with binary := none } }
            (hs.binary handler hslot h data) (hs.withBinary (by simp)) w
          exact ⟨trivial, hall⟩

theorem dispatchDeeds_all (h : Handle) (fuel : Nat) {s : Server τ κ σ} (hs : s.handlers.Within p)
    (w : s.engine.registry.WellFormed) : Deed.All (Deed.Keeps C D) s.engine (dispatchDeeds run list h fuel s) := by
  induction fuel generalizing s with
  | zero => trivial
  | succ fuel ih =>
      cases hn : s.engine.next h with
      | mk d engine =>
          have htook : (Deed.took h).act s.engine = engine := congrArg Prod.snd hn
          have hmoves : Engine.Moves {} s.engine engine := htook ▸ Engine.next_moves trivial trivial s.engine h
          have w' := hmoves.wellFormed w
          by_cases hd : d = .wait
          · subst hd
            rw [dispatchDeeds_of_wait hn]
            exact ⟨trivial, trivial⟩
          · have hover := handOver_leads hleads h d (s := { s with engine }) hs
            rw [dispatchDeeds_of_next hd hn]
            refine ⟨trivial, ?_⟩
            rw [htook, Deed.all_append, ← handOver_engine hengine h d { s with engine }]
            exact ⟨handOverDeeds_all hengine hleads hlist hD hn w' hs,
              ih hover.handlers (hover.moves.wellFormed w')⟩

theorem receiveDeedsBy_all (conn : κ) (data : Bytes) {s : Server τ κ σ} (hs : s.handlers.Within p)
    (w : s.engine.registry.WellFormed) :
    Deed.All (Deed.Keeps C D) s.engine (receiveDeedsBy run list conn data s) := by
  rw [receiveDeedsBy]
  split
  · trivial
  · rename_i t _
    split
    · trivial
    · have hm : Engine.Moves {} s.engine (s.engine.gather t.handle data) := Engine.gather_moves trivial _ _ _
      exact ⟨trivial, dispatchDeeds_all hengine hleads hlist hD
        (s := { s with engine := s.engine.gather t.handle data }) t.handle _ hs (hm.wellFormed w)⟩

end

section

variable (hC : ∀ e c, p.call c → C e c) (hD : Reports D env) (hallows : ∀ e c, p.call c → Engine.Allows env e c)
  (hre : p.reenter → env.upgrades ∧ env.takes ∧ env.receives)

include hC hallows in
theorem runDeedsBy_all {receive : κ → Bytes → Server τ κ σ → Nat × Server τ κ σ}
    {list : κ → Bytes → Server τ κ σ → List (Deed τ κ σ)}
    (hengine : ∀ conn data s, (receive conn data s).2.engine = s.engine.after (list conn data s))
    (hleads : p.reenter → ∀ conn data s, s.handlers.Within p → Leads env p s (receive conn data s).2)
    (hlist : ∀ conn data s, s.handlers.Within p → s.engine.registry.WellFormed →
      Deed.All (Deed.Keeps C D) s.engine (list conn data s)) :
    Lists C D p (runDeedsBy receive list) := by
  intro program s hprogram hs w
  induction hprogram generalizing s with
  | done reply => trivial
  | @call c next hc _ _ ih =>
      have hm := Engine.perform_moves s.engine c (hallows _ _ hc)
      exact ⟨hC _ _ hc, ih _ { s with engine := (s.engine.perform c).2 } hs (hm.wellFormed w)⟩
  | @receive conn data next hp _ ih =>
      have hl := hleads hp conn data s hs
      rw [runDeedsBy, Deed.all_append, ← hengine]
      exact ⟨hlist conn data s hs w, ih _ _ hl.handlers (hl.moves.wellFormed w)⟩
  | @onRequest handler next hp hh _ _ ih =>
      exact ih { s with handlers := { s.handlers with request := some handler } }
        (hs.withRequest fun _ hm => Option.some.inj hm ▸ hh) w
  | @onMessage handler next hp hh _ _ ih =>
      exact ih { s with handlers := { s.handlers with message := some handler } }
        (hs.withMessage fun _ hm => Option.some.inj hm ▸ hh) w
  | @onBinary handler next hp hh _ _ ih =>
      exact ih { s with handlers := { s.handlers with binary := some handler } }
        (hs.withBinary fun _ hm => Option.some.inj hm ▸ hh) w

include hC hD hallows hre

theorem receiveDeedsWithin_all (depth : Nat) (conn : κ) (data : Bytes) {s : Server τ κ σ} (hs : s.handlers.Within p)
    (w : s.engine.registry.WellFormed) :
    Deed.All (Deed.Keeps C D) s.engine (receiveDeedsWithin depth conn data s) := by
  induction depth generalizing conn data s with
  | zero => trivial
  | succ depth ih =>
      have hreceive : p.reenter → ∀ conn data s, s.handlers.Within p →
          Leads env p s (receiveWithin depth conn data s).2 := fun hp conn data s hs =>
        receiveWithin_leads (hre hp).1 (hre hp).2.1 (hre hp).2.2 hallows depth conn data s hs
      exact receiveDeedsBy_all (runBy_engine (receiveWithin_engine depth)) (runBy_leads hallows hreceive)
        (runDeedsBy_all hC hallows (receiveWithin_engine depth) hreceive fun conn data s hs w => ih conn data hs w) hD
        conn data hs w

/-- What is done in an operation is as it should be if the operation and its handlers are. -/
theorem deeds_all {s : Server τ κ σ} (hs : s.handlers.Within p) (w : s.engine.registry.WellFormed)
    {o : Operation τ κ σ} (hc : ∀ c, o = .call c → C s.engine c) :
    Deed.All (Deed.Keeps C D) s.engine (s.deeds o) := by
  cases o with
  | call c => exact ⟨hc c rfl, trivial⟩
  | receive conn data =>
      refine Deed.all_append.mpr ⟨receiveDeedsWithin_all hC hD hallows hre receiveDepth conn data hs w, trivial⟩
  | onRequest | onMessage | onBinary => trivial

/-- What is done in a run is as it should be. -/
theorem Course.all {allowed : Server τ κ σ → Operation τ κ σ → Prop} {start s : Server τ κ σ}
    {ds : List (Deed τ κ σ)} (hc : Course allowed start ds s)
    (hallowed : ∀ s o, allowed s o → o.Installs p ∧ ∀ c, o = .call c → C s.engine c)
    (hstart : start.handlers.Within p) (w : start.engine.registry.Regular) :
    Deed.All (Deed.Keeps C D) start.engine ds := by
  have hall : Deed.All (Deed.Keeps C D) start.engine ds ∧ s.handlers.Within p := by
    induction hc with
    | start => exact ⟨trivial, hstart⟩
    | @step ds s o hc ho ih =>
        obtain ⟨hinstalls, hcall⟩ := hallowed s o ho
        have hregular := Engine.after_regular w ds
        rw [← hc.engine] at hregular
        have hdeeds := deeds_all hC hD hallows hre ih.2 hregular.wellFormed hcall
        rw [hc.engine] at hdeeds
        exact ⟨Deed.all_append.mpr ⟨ih.1, hdeeds⟩, apply_within ih.2 hinstalls⟩
  exact hall.1

end

end

end Server

end

end WebServer
