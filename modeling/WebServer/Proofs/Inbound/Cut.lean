import WebServer.Proofs.Engine.Coherence
import WebServer.Proofs.Http.Stability
import WebServer.Proofs.Inbound.Extension
import WebServer.Proofs.WebSocket.Stability

/-! # The next message in front of later bytes

Bytes that come later do not change what is done first. The session waits for them, or it ends and drops them, or
its next message is taken off in front of them. -/

namespace WebServer

variable {τ κ σ : Type}

/-- A session that has room for more bytes. No request in them has a body that ends at a boundary, as long as the
session speaks HTTP. -/
structure Session.Admits (limit : Nat) (more : Bytes) (t : Session κ) : Prop where
  room : t.inbound.length + more.length ≤ limit
  plain : t.closing = false → t.mode = .http → Http.PlainStream limit (t.inbound ++ more)

/-- Nothing comes from outside; messages may be taken off the bytes received. -/
def Surroundings.sealed (τ : Type) (takes : Prop) : Surroundings τ where
  accepts := False
  upgrades := takes
  receives := False
  takes := takes
  advances := False

namespace Engine

/-- How many received bytes of a session are not part of a message yet. -/
def pending (h : Handle) (e : Engine τ κ σ) : Nat :=
  ((e.session? h).map fun t => t.inbound.length).getD 0

/-- What happens in `first` happens in `second`, where more bytes follow: nothing, or the end of the session, or
the next message. -/
inductive Cut (h : Handle) (more : Bytes) (e : Engine τ κ σ) (first : Delivery × Engine τ κ σ)
    (second : Delivery × Engine τ κ σ) : Prop where
  | waits (hn : first = (.wait, e))
  | ends {e' : Engine τ κ σ} (hn : first = (.wait, e')) (hm : second = (.wait, e'))
      (closing : e'.registry.At h fun t => t.closing = true)
  | goesOn {d : Delivery} {e' : Engine τ κ σ} (hd : d ≠ .wait) (hn : first = (d, e'))
      (hm : second = (d, e'.extend h more))
      (admits : e'.registry.At h (Session.Admits e.config.maxRequestBytes more))

variable {e e' : Engine τ κ σ} {h : Handle} {more : Bytes}

theorem extend_wellFormed (w : e.registry.WellFormed) (h : Handle) (more : Bytes) :
    (e.extend h more).registry.WellFormed := by
  have hupdate : e.registry.extend h more = e.registry.update h (Session.extend h more) := by
    rw [Registry.extend, Registry.update]
    congr 1
    refine List.map_congr_left fun t _ => ?_
    split
    · rfl
    · exact if_neg fun hh => absurd hh.1 ‹_›
  rw [extend, hupdate]
  exact w.update (Session.extend_handle h more) (Session.extend_conn h more)

/-- A session that closes takes no more bytes. -/
theorem extend_of_closing (w : e.registry.WellFormed) (closing : e.registry.At h fun t => t.closing = true)
    (more : Bytes) : e.extend h more = e := by
  have hsame : e.registry.sessions.map (Session.extend h more) = e.registry.sessions := by
    refine (List.map_congr_left fun t ht => ?_).trans (List.map_id _)
    exact Session.extend_of_closing h more (closing.of_mem w ht)
  rw [extend, Registry.extend, hsame]

theorem clearInbound_extend (e : Engine τ κ σ) (h : Handle) (more : Bytes) :
    (e.extend h more).clearInbound h = e.clearInbound h := by
  simp only [clearInbound, update, Registry.update, extend, Registry.extend, List.map_map]
  congr 3
  funext t
  simp only [Function.comp_apply, Session.extend_handle]
  split
  · rw [Session.extend]
    split <;> rfl
  · rw [Session.extend, if_neg (fun hh => absurd hh.1 ‹_›)]

theorem dropInbound_extend (w : e.registry.WellFormed) {t : Session κ} (hs : e.session? h = some t) {count : Nat}
    (hle : count ≤ t.inbound.length) (more : Bytes) :
    (e.extend h more).dropInbound h count = (e.dropInbound h count).extend h more := by
  refine update_extend h more fun u hu hh => ?_
  have hut : u = t := Option.some.inj ((w.get?_eq_some.mpr ⟨hu, hh⟩).symm.trans hs)
  subst hut
  simp only [Session.extend]
  split
  · rw [List.drop_append_of_le_length hle]
  · rfl

theorem pending_of_session {t : Session κ} (hs : e.session? h = some t) : e.pending h = t.inbound.length := by
  rw [pending, hs]
  rfl

theorem session?_update_self {f : Session κ → Session κ} (hf : ∀ t, (f t).handle = t.handle) :
    (e.update h f).session? h = (e.session? h).map f :=
  Registry.get?_update_self hf

theorem dropInbound_pending {t : Session κ} (hs : e.session? h = some t) {count : Nat} (hpos : 0 < count)
    (hle : count ≤ t.inbound.length) : (e.dropInbound h count).pending h < e.pending h := by
  have hdrop : (e.dropInbound h count).session? h = some { t with inbound := t.inbound.drop count } := by
    rw [dropInbound, session?_update_self, hs]
    · rfl
    · exact fun _ => rfl
  rw [pending_of_session hs, pending_of_session hdrop, List.length_drop]
  omega

variable [DecidableEq κ] [Transport τ κ]

/-! ## Closing -/

theorem closing_of_moves {env : Surroundings τ} (hm : Moves env e e') (ha : ¬env.accepts) (w : e.registry.WellFormed)
    (closing : e.registry.At h fun t => t.closing = true) : e'.registry.At h fun t => t.closing = true :=
  hm.at ha w closing fun _ _ hc ht => hc.closing ht

theorem beginClose_closing (w : e.registry.WellFormed) (h : Handle) :
    (e.beginClose h).registry.At h fun t => t.closing = true := by
  rw [beginClose]
  split
  · rename_i hs
    exact .of_none hs
  · rename_i t hs
    dsimp only
    have hfinish (e : Engine τ κ σ) : Moves (.sealed τ False) e ((e.flush h).finishClose h) :=
      (flush_moves e h).trans (finishClose_moves _ h)
    split
    · rename_i hclosing
      exact closing_of_moves (hfinish e) id w (.of_get? hs hclosing)
    · refine closing_of_moves (hfinish _) id (w.update (fun _ => rfl) fun _ => rfl) ?_
      exact .of_update hs (fun _ => rfl) rfl

theorem failWebSocket_closing (w : e.registry.WellFormed) (h : Handle) (code : WebSocket.CloseCode)
    (reason : String) : (e.failWebSocket h code reason).registry.At h fun t => t.closing = true := by
  have hm : Moves (.sealed τ False) e (e.sendClose h code reason) := sendClose_moves e h code reason
  exact beginClose_closing (hm.wellFormed w) h

theorem replyAndClose_closing (w : e.registry.WellFormed) (h : Handle) (response : Bytes) :
    (e.replyAndClose h response).registry.At h fun t => t.closing = true := by
  have hm : Moves (.sealed τ False) e (e.enqueue h response).2 := enqueue_moves e h response
  exact beginClose_closing (hm.wellFormed w) h

/-- A session that closes hands over no more messages. -/
theorem next_of_closing (closing : e.registry.At h fun t => t.closing = true) : e.next h = (.wait, e) := by
  rw [next]
  split
  · rfl
  · rename_i t hs
    rw [if_pos]
    rw [closing t hs, Bool.true_or]

theorem next_of_pending (hp : e.pending h = 0) : e.next h = (.wait, e) := by
  rw [next]
  split
  · rfl
  · rename_i t hs
    rw [pending_of_session hs, List.length_eq_zero_iff] at hp
    rw [hp, if_pos (by simp)]

/-! ## Taking a message off -/

omit [DecidableEq κ] [Transport τ κ] in
theorem upgradeResponse_ne_nil {r : Http.Request} {response : Bytes}
    (hr : WebSocket.upgradeResponse r = .ok response) : response ≠ [] := by
  rw [WebSocket.upgradeResponse] at hr
  cases hc : WebSocket.checkUpgrade r with
  | error err => simp [hc, Except.map] at hr
  | ok key =>
      simp only [hc, Except.map, Except.ok.injEq] at hr
      rw [← hr, WebSocket.switchingProtocols, Text.utf8, Text.encode, String.toList_append, List.flatMap_append]
      exact List.append_ne_nil_of_right_ne_nil _ (by decide)

/-- A request for an upgrade is the last one of its session. -/
theorem upgrade_leaves_http (w : e.registry.WellFormed) (h : Handle) (r : Http.Request) :
    (e.upgrade h r).registry.At h fun t => t.closing = false → t.mode ≠ .http := by
  rw [upgrade]
  split
  · exact (replyAndClose_closing w h _).imp fun t hc ho => absurd hc (by simp [ho])
  · rename_i response hr
    -- The response is not empty, so only a session that is gone could refuse it.
    cases hs : e.session? h with
    | none =>
        have hq : e.enqueue h response = (.error (.handleNotFound h), e) := by rw [enqueue, hs]
        rw [hq]
        exact .of_none hs
    | some t =>
        rw [enqueue_of_session hs (upgradeResponse_ne_nil hr)]
        refine flush_at (fun _ _ hm => hm) ?_
        rw [notify_registry]
        exact Registry.At.update (P := fun _ => True) (fun _ _ => trivial) (fun _ => rfl) fun _ _ _ => by simp

/-- What is done with a message that was taken off leaves what the session admits. -/
theorem admits_of_moves {limit : Nat} (hm : Moves (.sealed τ False) e e') (w : e.registry.WellFormed)
    (a : e.registry.At h (Session.Admits limit more)) : e'.registry.At h (Session.Admits limit more) := by
  refine hm.at id w a fun t u hc ha => ?_
  have hle : u.inbound.length ≤ t.inbound.length := by
    rcases hc.suffix with hfalse | hsuffix
    · exact hfalse.elim
    · exact hsuffix.length_le
  refine ⟨Nat.le_trans (Nat.add_le_add_right hle _) ha.room, fun hopen hhttp => ?_⟩
  have hmode : u.mode = t.mode := by
    rcases hc.mode with hmode | ⟨hfalse, -⟩
    · exact hmode
    · exact hfalse.elim
  have hinbound : u.inbound = t.inbound := by
    rcases hc.inbound with hfalse | hfalse | hclosing | hinbound
    · exact hfalse.elim
    · exact hfalse.elim
    · simp [hopen] at hclosing
    · exact hinbound
  have hclosing : t.closing = false := by
    by_contra hclosing
    simp [hc.closing (by simpa using hclosing)] at hopen
  exact hinbound ▸ ha.plain hclosing (hmode ▸ hhttp)

theorem pending_of_moves {env : Surroundings τ} (hm : Moves env e e') (ha : ¬env.accepts) (hr : ¬env.receives)
    (w : e.registry.WellFormed) (h : Handle) : e'.pending h ≤ e.pending h := by
  cases hu : e'.session? h with
  | none =>
      rw [pending, hu]
      exact Nat.zero_le _
  | some u =>
      obtain ⟨t, ht, hc⟩ := hm.continues ha w (Registry.mem_of_get? hu)
      have hs : e.session? h = some t :=
        w.get?_eq_some.mpr ⟨ht, hc.handle.symm.trans (Registry.handle_of_get? hu)⟩
      rw [pending_of_session hu, pending_of_session hs]
      rcases hc.suffix with hreceives | hsuffix
      · exact absurd hreceives hr
      · exact hsuffix.length_le

theorem nextRequest_pending (w : e.registry.WellFormed) {t : Session κ} (hs : e.session? h = some t)
    (hd : (e.nextRequest h t).1 ≠ .wait) : (e.nextRequest h t).2.pending h < e.pending h := by
  rw [nextRequest] at hd ⊢
  dsimp only at hd ⊢
  split at hd
  · split at hd <;> exact absurd rfl hd
  · exact absurd rfl hd
  · exact absurd rfl hd
  · rename_i head hread
    obtain ⟨hpos, hle⟩ := Http.Head.totalLength_of_ready hread
    have hdrop : (e.dropInbound h head.totalLength).registry.WellFormed := w.update (fun _ => rfl) fun _ => rfl
    have hlt := dropInbound_pending hs hpos hle
    split
    · have hmoves : Moves (.sealed τ True) (e.dropInbound h head.totalLength) _ := upgrade_moves trivial _ h
        { raw := t.inbound.take head.totalLength, head }
      exact Nat.lt_of_le_of_lt (pending_of_moves hmoves id id hdrop h) hlt
    · exact hlt

theorem nextFrame_pending (w : e.registry.WellFormed) {t : Session κ} (hs : e.session? h = some t)
    (hd : (e.nextFrame h t).1 ≠ .wait) : (e.nextFrame h t).2.pending h < e.pending h := by
  rw [nextFrame] at hd ⊢
  split at hd
  · exact absurd rfl hd
  · exact absurd rfl hd
  · exact absurd rfl hd
  · rename_i header unmasked hread
    obtain ⟨hpos, hle, -⟩ := WebSocket.decode_append_of_ready hread []
    have hmoves : Moves (.sealed τ False) (e.dropInbound h header.frameLength) _ :=
      dispatchFrame_moves _ h t header (header.payload unmasked)
    exact Nat.lt_of_le_of_lt (pending_of_moves hmoves id id (w.update (fun _ => rfl) fun _ => rfl) h)
      (dropInbound_pending hs hpos hle)

/-- Whenever a message is taken off, fewer bytes are left. -/
theorem next_pending (w : e.registry.WellFormed) (hd : (e.next h).1 ≠ .wait) : (e.next h).2.pending h < e.pending h := by
  rw [next] at hd ⊢
  split at hd
  · exact absurd rfl hd
  · rename_i t hs
    split at hd
    · exact absurd rfl hd
    · rw [if_neg ‹_›]
      split at hd
      · exact nextRequest_pending w hs hd
      · exact nextFrame_pending w hs hd

omit [DecidableEq κ] [Transport τ κ] in
theorem dropInbound_admits {limit : Nat} {t : Session κ} (hs : e.session? h = some t) (a : t.Admits limit more)
    (count : Nat) (hp : t.mode = .http → Http.PlainStream limit (t.inbound.drop count ++ more)) :
    (e.dropInbound h count).registry.At h (Session.Admits limit more) := by
  refine .of_update hs (fun _ => rfl) ⟨?_, fun _ hm => hp hm⟩
  have hroom := a.room
  simp only [List.length_drop]
  omega

/-- A session that asked for an upgrade admits whatever there is room for, since no requests follow. -/
theorem upgrade_admits {limit : Nat} (w : e.registry.WellFormed) (hroom : e.pending h + more.length ≤ limit)
    (r : Http.Request) : (e.upgrade h r).registry.At h (Session.Admits limit more) := by
  intro u hu
  have hm : Moves (.sealed τ True) e (e.upgrade h r) := upgrade_moves trivial e h r
  have hle := pending_of_moves hm id id w h
  rw [pending_of_session hu] at hle
  exact ⟨by omega, fun hopen hhttp => absurd hhttp (upgrade_leaves_http w h r u hu hopen)⟩

theorem nextRequest_cut (w : e.registry.WellFormed) {t : Session κ} (hs : e.session? h = some t)
    (ho : t.closing = false) (hm : t.mode = .http) (a : t.Admits e.config.maxRequestBytes more) :
    Cut h more e (e.nextRequest h t) ((e.extend h more).nextRequest h (t.extend h more)) := by
  have hplain := (a.plain ho hm).plain
  have hextend := Session.extend_inbound h more (Registry.handle_of_get? hs) ho
  have hconfig : (e.extend h more).config = e.config := rfl
  have hclear : (e.clearInbound h).registry.WellFormed := w.update (fun _ => rfl) fun _ => rfl
  have hclosing := replyAndClose_closing hclear h
  cases hread : Http.Head.read e.config.maxRequestBytes t.inbound with
  | notYet =>
      refine .waits ?_
      have hroom := a.room
      rw [nextRequest, hread]
      dsimp only
      rw [if_neg (by omega)]
  | failed error =>
      have hread' := Http.Head.read_append_of_failed hread hplain.of_append more
      rw [nextRequest, nextRequest, hextend, hconfig, hread, hread']
      cases error with
      | tooLarge =>
          dsimp only
          rw [clearInbound_extend]
          exact .ends rfl rfl (hclosing _)
      | _ =>
          dsimp only
          rw [clearInbound_extend]
          exact .ends rfl rfl (hclosing _)
  | ready head =>
      obtain ⟨hpos, hle⟩ := Http.Head.totalLength_of_ready hread
      have hread' := Http.Head.read_append_of_ready hread hplain.of_append more
      have hdrop : (e.dropInbound h head.totalLength).registry.WellFormed := w.update (fun _ => rfl) fun _ => rfl
      rw [nextRequest, nextRequest, hextend, hconfig, hread, hread']
      dsimp only
      rw [List.take_append_of_le_length hle, dropInbound_extend w hs hle more]
      split
      · have hlt := dropInbound_pending hs hpos hle
        have hroom := a.room
        rw [pending_of_session hs] at hlt
        exact .goesOn (by simp) rfl (Prod.ext rfl (upgrade_extend h more _ h _)) (upgrade_admits hdrop (by omega) _)
      · rename_i hupgrade
        refine .goesOn (by simp) rfl rfl (dropInbound_admits hs a _ fun _ => ?_)
        have hstream := (a.plain ho hm).drop hread'
        rw [List.take_append_of_le_length hle, List.drop_append_of_le_length hle] at hstream
        exact hstream (by simpa using hupgrade)

theorem nextFrame_cut (w : e.registry.WellFormed) {t : Session κ} (hs : e.session? h = some t)
    (ho : t.closing = false) (hm : t.mode = .webSocket) (a : t.Admits e.config.maxRequestBytes more) :
    Cut h more e (e.nextFrame h t) ((e.extend h more).nextFrame h (t.extend h more)) := by
  have hextend := Session.extend_inbound h more (Registry.handle_of_get? hs) ho
  have hconfig : (e.extend h more).config = e.config := rfl
  cases hread : WebSocket.decode e.config.maxRequestBytes t.inbound with
  | notYet =>
      refine .waits ?_
      rw [nextFrame, hread]
  | failed error =>
      have hread' := WebSocket.decode_append_of_failed hread more
      have hclear : (e.clearInbound h).registry.WellFormed := w.update (fun _ => rfl) fun _ => rfl
      cases error with
      | unaddressable =>
          refine .waits ?_
          rw [nextFrame, hread]
      | tooLarge =>
          rw [nextFrame, nextFrame, hextend, hconfig, hread, hread']
          dsimp only
          rw [clearInbound_extend]
          exact .ends rfl rfl (failWebSocket_closing hclear h _ _)
  | ready found =>
      obtain ⟨header, unmasked⟩ := found
      obtain ⟨hpos, hle, unmasked', hread', hpayload⟩ := WebSocket.decode_append_of_ready hread more
      have hdrop : (e.dropInbound h header.frameLength).registry.WellFormed := w.update (fun _ => rfl) fun _ => rfl
      have hmoves : Moves (.sealed τ False) (e.dropInbound h header.frameLength) _ :=
        dispatchFrame_moves _ h t header (header.payload unmasked)
      have hframe := dispatchFrame_ofFrame (e.dropInbound h header.frameLength) h t header (header.payload unmasked)
      rw [nextFrame, nextFrame, hextend, hconfig, hread, hread']
      dsimp only
      rw [dropInbound_extend w hs hle more, hpayload, dispatchFrame_extend]
      generalize (e.dropInbound h header.frameLength).dispatchFrame h t header _ = result at hmoves hframe
      obtain ⟨d, e'⟩ := result
      refine .goesOn ?_ rfl rfl (admits_of_moves hmoves hdrop (dropInbound_admits hs a _ fun hhttp => ?_))
      · rintro rfl
        exact hframe
      · exact absurd (hm.symm.trans hhttp) (by simp)

/-- Bytes that come later make no difference to what is done first. -/
theorem next_cut (w : e.registry.WellFormed) (a : e.registry.At h (Session.Admits e.config.maxRequestBytes more)) :
    Cut h more e (e.next h) ((e.extend h more).next h) := by
  cases hs : e.session? h with
  | none =>
      refine .waits ?_
      rw [next, hs]
  | some t =>
      have ht : t.Admits e.config.maxRequestBytes more := a t hs
      cases hidle : t.closing || t.inbound.isEmpty with
      | true =>
          refine .waits ?_
          rw [next, hs]
          dsimp only
          rw [if_pos hidle]
      | false =>
          rw [Bool.or_eq_false_iff] at hidle
          have hidle' : ((t.extend h more).closing || (t.extend h more).inbound.isEmpty) = false := by
            rw [Session.extend_closing, Session.extend_inbound h more (Registry.handle_of_get? hs) hidle.1,
              hidle.1, Bool.false_or, List.isEmpty_eq_false_iff]
            exact List.append_ne_nil_of_left_ne_nil (List.isEmpty_eq_false_iff.mp hidle.2) more
          rw [next, next, session?_extend, hs]
          dsimp only [Option.map_some]
          rw [hidle.1, hidle.2, hidle', Session.extend_mode]
          simp only [Bool.or_self, Bool.false_eq_true, if_false]
          cases hm : t.mode with
          | http => exact nextRequest_cut w hs hidle.1 hm ht
          | webSocket => exact nextFrame_cut w hs hidle.1 hm ht

end Engine
end WebServer
