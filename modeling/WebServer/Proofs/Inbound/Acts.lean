import WebServer.Engine.Inbound
import WebServer.Proofs.Engine.Acts

/-! # Inbound messages as chains of effects

Taking a message off the bytes of a session is a chain of effects on that session. What the engine itself queues
meanwhile is a closing frame only where it says so. -/

namespace WebServer

variable {τ κ σ : Type}

/-! ## What is no closing frame -/

namespace WebSocket

theorem not_isClose_of_head {data : Bytes} (hd : data.head? ≠ some 0x88) : ¬IsClose data := by
  rintro ⟨payload, rfl⟩
  exact hd rfl

theorem not_isClose_pong (payload : Bytes) : ¬IsClose (encode .pong payload none) :=
  not_isClose_of_head (show some (0x80 ||| 10) ≠ some 0x88 by decide)

theorem not_isClose_upgradeResponse {r : Http.Request} {response : Bytes} (hr : upgradeResponse r = .ok response) :
    ¬IsClose response := by
  refine not_isClose_of_head ?_
  rw [upgradeResponse] at hr
  cases hc : checkUpgrade r with
  | error err => simp [hc, Except.map] at hr
  | ok key =>
      simp only [hc, Except.map, Except.ok.injEq] at hr
      rw [← hr, switchingProtocols, Text.utf8]
      simp only [String.toList_append]
      exact show some 72 ≠ some 0x88 by decide

end WebSocket

namespace Http.Response

theorem not_isClose_notFound : ¬WebSocket.IsClose notFound :=
  WebSocket.not_isClose_of_head (by decide)

theorem not_isClose_badRequest : ¬WebSocket.IsClose badRequest :=
  WebSocket.not_isClose_of_head (by decide)

theorem not_isClose_payloadTooLarge : ¬WebSocket.IsClose payloadTooLarge :=
  WebSocket.not_isClose_of_head (by decide)

end Http.Response

namespace Engine

variable [DecidableEq κ] [Transport τ κ] {lic : License τ} {e : Engine τ κ σ} {h : Handle}

omit [DecidableEq κ] [Transport τ κ] in
theorem clearInbound_at {P : Session κ → Prop} (a : e.registry.At h P) (hP : ∀ t, P t → P { t with inbound := [] }) :
    (e.clearInbound h).registry.At h P :=
  a.update (fun _ => rfl) hP

omit [DecidableEq κ] [Transport τ κ] in
theorem dropInbound_at {P : Session κ → Prop} (a : e.registry.At h P) (count : Nat)
    (hP : ∀ t, P t → P { t with inbound := t.inbound.drop count }) : (e.dropInbound h count).registry.At h P :=
  a.update (fun _ => rfl) hP

/-! ## Requests -/

theorem upgrade_acts (hon : lic.on h) (hu : lic.upgrades) (hm : e.registry.At h fun t => t.mode = .http)
    (ho : e.registry.At h fun t => t.isEnding = false) (r : Http.Request) : Acts lic e (e.upgrade h r) := by
  rw [upgrade]
  split
  · exact replyAndClose_acts hon (.inr ho) Http.Response.not_isClose_badRequest
  · rename_i response hr
    have hq : Acts lic e (e.enqueue h response).2 :=
      enqueue_acts hon (.inr ho) (.inr (WebSocket.not_isClose_upgradeResponse hr))
    have hm' := enqueue_at (fun _ _ hm => hm) hm response
    have ho' := enqueue_at (fun _ _ ho => ho) ho response
    split
    · rename_i he
      rwa [he] at hq
    · rename_i e₁ he
      rw [he] at hq hm' ho'
      obtain ⟨t, hs⟩ := session?_of_enqueue_ok he
      refine hq.trans (.trans (.of_affects (h := h) fun _ => ?_) (flush_acts hon))
      have hmoves : Moves lic.toSurroundings e₁ _ :=
        .head (.upgraded h hu) (notify_moves (e₁.update h fun t => { t with mode := .webSocket }) h .upgraded)
      have hsession : (e₁.update h fun t => { t with mode := .webSocket }).session? h =
          some { t with mode := .webSocket } := by
        refine (update_session? ?_).trans (congrArg (Option.map _) hs)
        exact fun _ => rfl
      rw [← notify_session? _ h h .upgraded] at hsession
      have heff : Effect lic e₁ h (some { t with mode := .webSocket }) _ := .upgraded hs (hm' t hs) (ho' t hs)
      refine ⟨hon, hmoves, notify_watcher _ _ _, fun g hg => (notify_session? _ _ _ _).trans ?_,
        ⟨_, notify_journal _ _ _, ?_⟩, fun _ _ hnone => absurd (hsession.symm.trans hnone) (Option.some_ne_none _)⟩
      · refine update_session?_of_ne ?_ hg
        exact fun _ => rfl
      · rw [hsession]
        exact heff

omit [DecidableEq κ] [Transport τ κ] in
/-- A session that speaks HTTP and is not closing is open. -/
theorem isEnding_of_http (r : e.registry.Regular) (hm : e.registry.At h fun t => t.mode = .http)
    (ho : e.registry.At h fun t => t.closing = false) : e.registry.At h fun t => t.isEnding = false := by
  intro t hs
  cases hsent : t.closeSent with
  | false => simp [Session.isEnding, hsent, ho t hs]
  | true => exact absurd ((hm t hs).symm.trans ((r.at hs).webSocket hsent)) (by decide)

theorem nextRequest_acts (hon : lic.on h) (hu : lic.upgrades) (ht : lic.takes)
    (hm : e.registry.At h fun t => t.mode = .http) (ho : e.registry.At h fun t => t.closing = false) (t : Session κ) :
    Acts lic e (e.nextRequest h t).2 := by
  refine .of_regular fun r => ?_
  have ho' := isEnding_of_http r hm ho
  have hclear := clearInbound_at ho' fun _ ho => ho
  rw [nextRequest]
  dsimp only
  split
  · split
    · exact (clearInbound_acts hon ht).trans
        (replyAndClose_acts hon (.inr hclear) Http.Response.not_isClose_payloadTooLarge)
    · exact .refl lic e
  · exact (clearInbound_acts hon ht).trans
      (replyAndClose_acts hon (.inr hclear) Http.Response.not_isClose_payloadTooLarge)
  · exact (clearInbound_acts hon ht).trans (replyAndClose_acts hon (.inr hclear) Http.Response.not_isClose_badRequest)
  · rename_i head _
    have hdrop : Acts lic e (e.dropInbound h head.totalLength) := dropInbound_acts hon ht _
    split
    · exact hdrop.trans
        (upgrade_acts hon hu (dropInbound_at hm _ fun _ hm => hm) (dropInbound_at ho' _ fun _ ho => ho) _)
    · exact hdrop

/-! ## Frames -/

section

variable (hon : lic.on h) (hm : e.registry.At h fun t => t.mode = .webSocket)
  (ho : e.registry.At h fun t => t.closing = false)
include hon hm ho

theorem deliver_acts (kind : MessageKind) (data : Bytes) : Acts lic e (e.deliver h kind data).2 := by
  cases kind with
  | binary => exact .refl lic e
  | text =>
      rw [deliver]
      split
      · exact .refl lic e
      · exact failWebSocket_acts hon hm ho _ _

theorem beginMessage_acts (ht : lic.takes) (t : Session κ) (kind : MessageKind) (fin : Bool) (payload : Bytes) :
    Acts lic e (e.beginMessage h t kind fin payload).2 := by
  rw [beginMessage]
  split
  · exact failWebSocket_acts hon hm ho _ _
  · split
    · exact deliver_acts hon hm ho _ _
    · exact setFragment_acts hon ht _

theorem continueMessage_acts (ht : lic.takes) (t : Session κ) (fin : Bool) (payload : Bytes) :
    Acts lic e (e.continueMessage h t fin payload).2 := by
  have hm' : (e.update h fun t => { t with fragment := none }).registry.At h fun t => t.mode = .webSocket :=
    hm.update (fun _ => rfl) fun _ hm => hm
  have ho' : (e.update h fun t => { t with fragment := none }).registry.At h fun t => t.closing = false :=
    ho.update (fun _ => rfl) fun _ ho => ho
  rw [continueMessage]
  split
  · exact failWebSocket_acts hon hm ho _ _
  · dsimp only
    split
    · exact (setFragment_acts hon ht none).trans (failWebSocket_acts hon hm' ho' _ _)
    · split
      · exact (setFragment_acts hon ht none).trans (deliver_acts hon hm' ho' _ _)
      · exact setFragment_acts hon ht _

theorem dispatchFrame_acts (ht : lic.takes) (t : Session κ) (hs : e.registry.At h fun u => u.isEnding = t.isEnding)
    (header : WebSocket.FrameHeader) (payload : Bytes) : Acts lic e (e.dispatchFrame h t header payload).2 := by
  rw [dispatchFrame]
  split
  · exact failWebSocket_acts hon hm ho _ _
  · split
    · exact beginMessage_acts hon hm ho ht _ _ _ _
    · exact beginMessage_acts hon hm ho ht _ _ _ _
    · exact continueMessage_acts hon hm ho ht _ _ _
    · split
      · rename_i ha
        have hopen := hs.imp fun u hu => hu.trans (Session.isEnding_of_acceptsOutput ha)
        exact (enqueue_acts hon (.inr hopen) (.inr (WebSocket.not_isClose_pong payload))).trans (flush_acts hon)
      · exact .refl lic e
    · exact .refl lic e
    · exact (sendClose_acts hon hm ho _ _).trans (beginClose_acts hon)
    · exact failWebSocket_acts hon hm ho _ _

theorem nextFrame_acts (ht : lic.takes) (t : Session κ) (hs : e.registry.At h fun u => u.isEnding = t.isEnding) :
    Acts lic e (e.nextFrame h t).2 := by
  rw [nextFrame]
  split
  · exact .refl lic e
  · exact .refl lic e
  · exact (clearInbound_acts hon ht).trans
      (failWebSocket_acts hon (clearInbound_at hm fun _ hm => hm) (clearInbound_at ho fun _ ho => ho) _ _)
  · exact (dropInbound_acts hon ht _).trans
      (dispatchFrame_acts hon (dropInbound_at hm _ fun _ hm => hm) (dropInbound_at ho _ fun _ ho => ho) ht t
        (dropInbound_at hs _ fun _ hs => hs) _ _)

end

theorem next_acts (hon : lic.on h) (hu : lic.upgrades) (ht : lic.takes) : Acts lic e (e.next h).2 := by
  rw [next]
  split
  · exact .refl lic e
  · rename_i t hs
    have hat {P : Session κ → Prop} (hP : P t) : e.registry.At h P := .of_get? hs hP
    split
    · exact .refl lic e
    · rename_i hopen
      simp only [Bool.or_eq_true, not_or, Bool.not_eq_true] at hopen
      split
      · rename_i hm
        exact nextRequest_acts hon hu ht (hat hm) (hat hopen.1) t
      · rename_i hm
        exact nextFrame_acts hon (hat hm) (hat hopen.1) ht t (hat rfl)

end Engine

end WebServer
