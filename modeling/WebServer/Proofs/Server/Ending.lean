import WebServer.Proofs.Server.Moments

/-! # Ending sessions

Once a session is ending, nothing more is queued on it. So the closing frame that the engine makes is the last buffer of
its session, and there is one at most. -/

namespace WebServer

variable {τ κ σ : Type}

/-! ## What a step queues -/

/-- What a step does to the queue of the session `h`. -/
inductive QueueStep (lic : License τ) (h : Handle) (e e' : Engine τ κ σ) : Prop where
  /-- Another session gets the handle. -/
  | began (hi : issues h e.journal < issues h e'.journal) (hu : e'.registry.At h fun u => u.closeSent = false)
  | same (hi : issues h e'.journal = issues h e.journal) (hq : queuedOn h e'.journal = queuedOn h e.journal)
      (hu : ∀ u, e'.session? h = some u →
        ∃ t, e.session? h = some t ∧ (t.isEnding = true → u.isEnding = true) ∧ u.closeSent = t.closeSent)
  | buffer {t u : Session κ} {data : Bytes} (hs : e.session? h = some t) (hu : e'.session? h = some u)
      (hi : issues h e'.journal = issues h e.journal) (hq : queuedOn h e'.journal = queuedOn h e.journal ++ [data])
      (ho : lic.answers ∨ t.isEnding = false) (hc : lic.sends ∨ ¬WebSocket.IsClose data)
      (hsame : u.isEnding = t.isEnding ∧ u.closeSent = t.closeSent)
  | close {t u : Session κ} {frame : Bytes} (hs : e.session? h = some t) (hu : e'.session? h = some u)
      (hi : issues h e'.journal = issues h e.journal) (hq : queuedOn h e'.journal = queuedOn h e.journal ++ [frame])
      (ho : t.isEnding = false) (hc : WebSocket.IsClose frame) (hsent : u.closeSent = true)

namespace QueueStep

variable {lic : License τ} {h : Handle} {e e' : Engine τ κ σ} {gained : List (Entry κ)}

theorem of_silent (hj : e'.journal = gained ++ e.journal) (hg : ∀ entry ∈ gained, Entry.Silent h entry)
    (hu : ∀ u, e'.session? h = some u →
      ∃ t, e.session? h = some t ∧ (t.isEnding = true → u.isEnding = true) ∧ u.closeSent = t.closeSent) :
    QueueStep lic h e e' :=
  .same (hj ▸ issues_append_of_not (fun entry hm => (hg entry hm).1) _) (hj ▸ queuedOn_append_silent hg _) hu

/-- A step that changes a session and queues nothing on it. -/
theorem of_session {t u : Session κ} (hj : e'.journal = gained ++ e.journal)
    (hg : ∀ entry ∈ gained, Entry.Silent h entry) (hs : e.session? h = some t) (hu : e'.session? h = some u)
    (hending : t.isEnding = true → u.isEnding = true) (hsent : u.closeSent = t.closeSent) : QueueStep lic h e e' :=
  .of_silent hj hg fun _ hu' => ⟨t, hs, Option.some.inj (hu.symm.trans hu') ▸ ⟨hending, hsent⟩⟩

theorem of_gone (hj : e'.journal = gained ++ e.journal) (hg : ∀ entry ∈ gained, Entry.Silent h entry)
    (hu : e'.session? h = none) : QueueStep lic h e e' :=
  .of_silent hj hg fun _ hu' => nomatch hu.symm.trans hu'

theorem of_effect (hj : e'.journal = gained ++ e.journal) (he : Effect lic e h (e'.session? h) gained) :
    QueueStep lic h e e' := by
  have hidle (idle : Bool) : ∀ entry ∈ (if idle then e.heard h .idle else []), Entry.Silent h entry := by
    cases idle with
    | true => exact Engine.silent_of_mem_heard
    | false => simp
  generalize hu : e'.session? h = u? at he
  cases he with
  | @accepted conn =>
      refine .began ?_ (.of_get? hu rfl)
      have hle := issues_le_append h (e.heard h .opened) (.accepted h conn :: e.journal)
      rw [issues_accepted] at hle
      rw [hj, List.append_assoc]
      exact hle
  | received hs =>
      rw [Session.touch_eq] at hu
      exact .of_session hj (by simp) hs hu id rfl
  | consumed hs => exact .of_session hj (by simp) hs hu id rfl
  | queued hs hq ho hc =>
      refine .buffer hs hu (hj ▸ issues_append_of_not (by simp [Entry.begins]) _) ?_ ho hc ⟨rfl, rfl⟩
      rw [hj]
      exact queuedOn_queued _ _ _
  | upgraded hs => exact .of_session hj Engine.silent_of_mem_heard hs hu id rfl
  | @closeQueued t payload queue hs hq hm ho idle =>
      have hb : ∀ entry ∈ Entry.queued h (WebSocket.encode .close payload none) ::
          (if idle then e.heard h .idle else []), entry.begins h = false :=
        List.forall_mem_cons.mpr ⟨rfl, fun entry hm => (hidle idle entry hm).1⟩
      refine .close hs hu (hj ▸ issues_append_of_not hb _) ?_ ho ⟨payload, rfl⟩ rfl
      rw [hj, List.cons_append, queuedOn_queued, queuedOn_append_silent (hidle idle)]
  | beganClose hs ho hlen hne hoffers =>
      exact .of_session hj (fun entry hm => (hoffers entry hm).silent) hs hu (fun _ => Bool.or_true _) rfl
  | acknowledged hs ha hne hoffers =>
      rw [Session.touchSent_eq] at hu
      exact .of_session hj (fun entry hm => (hoffers entry hm).silent) hs hu id rfl
  | flushed hs hlen hoffers => exact .of_session hj (fun entry hm => (hoffers entry hm).silent) hs hu id rfl
  | ended hs idle hi hoffers =>
      refine .of_gone hj (fun entry hm => ?_) hu
      simp only [List.mem_append, List.mem_cons] at hm
      rcases hm with (hm | rfl | hm) | hm
      · exact Engine.silent_of_mem_heard entry hm
      · exact ⟨rfl, rfl⟩
      · exact hidle idle entry hm
      · exact (hoffers entry hm).silent
  | dropped => exact .of_gone hj Engine.silent_of_mem_heard hu
  | handed hh =>
      refine .of_silent hj (by simpa using hh.silent) fun u hu' => ⟨u, hu ▸ hu', id, rfl⟩

end QueueStep

section

variable [DecidableEq κ] [Transport τ κ] {lic : License τ} {e m m' : Engine τ κ σ} {h : Handle}

theorem Step.queue (hs : Step lic m m') (h : Handle) : QueueStep lic h m m' := by
  rcases hs.on_session h with ⟨hsession, gained, hj, hne⟩ | ha
  · exact .of_silent hj (fun entry hm => Entry.silent_of_handle (hne entry hm)) fun u hu => ⟨u, hsession ▸ hu, id, rfl⟩
  · obtain ⟨gained, hj, heff⟩ := ha.effect
    exact .of_effect hj heff

/-! ## What a session that is ending has queued -/

/-- Since `e`, the session `h` is ending, if it is still there, and nothing was queued on it. -/
structure Quiet (h : Handle) (e m : Engine τ κ σ) : Prop where
  le : issues h e.journal ≤ issues h m.journal
  queued : issues h m.journal = issues h e.journal → queuedOn h m.journal = queuedOn h e.journal
  ending : issues h m.journal = issues h e.journal → m.registry.At h fun t => t.isEnding = true

theorem Quiet.step (q : Quiet h e m) (hs : Step lic m m') (ha : ¬lic.answers) : Quiet h e m' := by
  have hle := q.le
  cases hs.queue h with
  | began hi => exact ⟨by omega, fun _ => by omega, fun _ => by omega⟩
  | same hi hq hu =>
      refine ⟨hi ▸ hle, fun he => hq.trans (q.queued (hi ▸ he)), fun he u hu' => ?_⟩
      obtain ⟨t, ht, hending, -⟩ := hu u hu'
      exact hending (q.ending (hi ▸ he) t ht)
  | buffer ht hu hi hq ho =>
      refine ⟨hi ▸ hle, fun he => ?_, fun he => ?_⟩ <;>
        exact nomatch (ho.resolve_left ha).symm.trans (q.ending (hi ▸ he) _ ht)
  | close ht hu hi hq ho =>
      refine ⟨hi ▸ hle, fun he => ?_, fun he => ?_⟩ <;> exact nomatch ho.symm.trans (q.ending (hi ▸ he) _ ht)

/-- Since `e`, no closing frame was queued on the session `h`, or one was queued last and the session is ending. -/
structure Marked (h : Handle) (e m : Engine τ κ σ) : Prop where
  le : issues h e.journal ≤ issues h m.journal
  queued : issues h m.journal = issues h e.journal → ∃ buffers, queuedOn h m.journal = queuedOn h e.journal ++ buffers ∧
    ((∀ data ∈ buffers, ¬WebSocket.IsClose data) ∨ ∃ before frame, buffers = before ++ [frame] ∧
      (∀ data ∈ before, ¬WebSocket.IsClose data) ∧ m.registry.At h fun t => t.isEnding = true)

theorem Marked.step (k : Marked h e m) (hs : Step lic m m') (ha : ¬lic.answers) (hsend : ¬lic.sends) :
    Marked h e m' := by
  have hle := k.le
  cases hs.queue h with
  | began hi => exact ⟨by omega, fun _ => by omega⟩
  | same hi hq hu =>
      refine ⟨hi ▸ hle, fun he => ?_⟩
      obtain ⟨buffers, hbuffers, hcases⟩ := k.queued (hi ▸ he)
      refine ⟨buffers, hq.trans hbuffers, hcases.imp_right ?_⟩
      rintro ⟨before, frame, rfl, hbefore, hending⟩
      refine ⟨before, frame, rfl, hbefore, fun u hu' => ?_⟩
      obtain ⟨t, ht, hkeeps, -⟩ := hu u hu'
      exact hkeeps (hending t ht)
  | @buffer t u data ht hu hi hq ho hc =>
      refine ⟨hi ▸ hle, fun he => ?_⟩
      obtain ⟨buffers, hbuffers, hopen | ⟨before, frame, rfl, hbefore, hending⟩⟩ := k.queued (hi ▸ he)
      · refine ⟨buffers ++ [data], by rw [hq, hbuffers, List.append_assoc], .inl ?_⟩
        simpa [or_imp, forall_and] using ⟨hopen, hc.resolve_left hsend⟩
      · exact nomatch (ho.resolve_left ha).symm.trans (hending t ht)
  | @close t u frame ht hu hi hq ho hc hsent =>
      refine ⟨hi ▸ hle, fun he => ?_⟩
      obtain ⟨buffers, hbuffers, hopen | ⟨before, frame', rfl, hbefore, hending⟩⟩ := k.queued (hi ▸ he)
      · refine ⟨buffers ++ [frame], by rw [hq, hbuffers, List.append_assoc], .inr ⟨buffers, frame, rfl, hopen, ?_⟩⟩
        exact .of_get? hu (by simp [Session.isEnding, hsent])
      · exact nomatch ho.symm.trans (hending t ht)

/-- The last buffer queued on the session `h` is a closing frame, if the session says so. -/
def Flagged (h : Handle) (m : Engine τ κ σ) : Prop :=
  m.registry.At h fun t => t.closeSent = true →
    ∃ buffers frame, queuedOn h m.journal = buffers ++ [frame] ∧ WebSocket.IsClose frame

theorem Flagged.step (f : Flagged h m) (hs : Step lic m m') (ha : ¬lic.answers) : Flagged h m' := by
  intro u hu hsent
  cases hs.queue h with
  | began hi hu' => exact nomatch (hu' u hu).symm.trans hsent
  | same hi hq hu' =>
      obtain ⟨t, ht, -, hsame⟩ := hu' u hu
      rw [hq]
      exact f t ht (hsame ▸ hsent)
  | buffer ht hu' hi hq ho hc hsame =>
      cases Option.some.inj (hu.symm.trans hu')
      have hopen := (Session.flags_of_open (ho.resolve_left ha)).1
      exact nomatch (hsame.2.trans hopen).symm.trans hsent
  | @close t u frame ht hu' hi hq ho hc => exact ⟨_, frame, hq, hc⟩

/-! ## Runs -/

/-- Whether the application sends. -/
def Deed.Sends : Deed τ κ σ → Prop
  | .call (.send ..) | .call (.sendMessage ..) | .call (.sendBinary ..) | .call (.broadcast _) | .call (.serve ..) =>
    True
  | _ => False

omit [Transport τ κ] in
theorem Deed.sends_of_license {e : Engine τ κ σ} {d : Deed τ κ σ} (hd : (d.license e).sends) : d.Sends := by
  cases d with
  | call c => cases c <;> trivial
  | received | took | handed | concluded => exact hd

/-- A report of a handler is acted upon while its session speaks HTTP. -/
def Deed.ReportsToHttp : Engine τ κ σ → Deed τ κ σ → Prop :=
  Deed.Keeps (fun _ _ => True) fun e h => e.registry.At h fun t => t.mode = .http

omit [Transport τ κ] in
theorem Deed.ReportsToHttp.not_answers {e : Engine τ κ σ} {d : Deed τ κ σ} (hd : Deed.ReportsToHttp e d) :
    ¬(d.license e).answers := by
  cases d with
  | call c => cases c <;> exact id
  | received | took | handed => exact id
  | concluded h reply => exact not_not_intro hd

/-- Along the deeds `ds` from `start`, a session that is ending gets no more buffers. -/
structure EndsQuietly (start : Engine τ κ σ) (ds : List (Deed τ κ σ)) : Prop where
  /-- A session that is ending stays so, and nothing is queued on it before its handle is issued again. -/
  ending : ∀ past mid, past ++ mid <+: ds → ∀ h t, (start.after past).session? h = some t → t.isEnding = true →
    issues h (start.after (past ++ mid)).journal = issues h (start.after past).journal →
      queuedOn h (start.after (past ++ mid)).journal = queuedOn h (start.after past).journal ∧
        (start.after (past ++ mid)).registry.At h fun u => u.isEnding = true
  /-- A closing frame that is queued otherwise than by a call of the application to send it is the last buffer of its
  session for ever. -/
  closing : ∀ past d mid, past ++ d :: mid <+: ds → ¬d.Sends → ∀ h before frame behind,
    queuedOn h (start.after (past ++ [d])).journal =
      queuedOn h (start.after past).journal ++ before ++ frame :: behind → WebSocket.IsClose frame →
    issues h (start.after (past ++ d :: mid)).journal = issues h (start.after past).journal →
      queuedOn h (start.after (past ++ d :: mid)).journal = queuedOn h (start.after past).journal ++ before ++ [frame]
  /-- A session that says so has queued a closing frame, and nothing behind it. -/
  closeSent : ∀ past, past <+: ds → ∀ h t, (start.after past).session? h = some t → t.closeSent = true →
    ∃ buffers frame, queuedOn h (start.after past).journal = buffers ++ [frame] ∧ WebSocket.IsClose frame

omit [DecidableEq κ] [Transport τ κ] in
/-- Where one element only is a closing frame, and that one is last, nothing is behind a closing frame. -/
theorem eq_nil_of_concat_eq {buffers before behind : List Bytes} {last frame : Bytes}
    (hbuffers : ∀ data ∈ buffers, ¬WebSocket.IsClose data) (hframe : WebSocket.IsClose frame)
    (he : buffers ++ [last] = before ++ frame :: behind) : behind = [] := by
  rcases List.eq_nil_or_concat behind with hnil | ⟨behind, data, rfl⟩
  · exact hnil
  · rw [List.concat_eq_append, ← List.cons_append, ← List.append_assoc] at he
    have hmem : frame ∈ buffers := by simp [(List.append_inj' he rfl).1]
    exact absurd hframe (hbuffers frame hmem)

theorem quiet_after (r : e.registry.Regular) {ds : List (Deed τ κ σ)} (hds : Deed.All Deed.ReportsToHttp e ds)
    (ha : e.registry.At h fun t => t.isEnding = true) : Quiet h e (e.after ds) :=
  Engine.after_keep (fun _ _ _ _ hd _ hs hq => hq.step hs hd.not_answers) r
    ⟨Nat.le_refl _, fun _ => rfl, fun _ => ha⟩ hds

theorem marked_act (r : e.registry.Regular) {d : Deed τ κ σ} (hd : d.ReportsToHttp e) (hsend : ¬d.Sends) :
    Marked h e (d.act e) :=
  (d.acts e).keep r (fun _ _ _ hs hk => hk.step hs hd.not_answers fun hl => hsend (Deed.sends_of_license hl))
    ⟨Nat.le_refl _, fun _ => ⟨[], by simp, .inl (by simp)⟩⟩

/-- What follows a deed that queues a closing frame of the engine queues nothing behind it. -/
theorem queuedOn_after_close (r : e.registry.Regular) {d : Deed τ κ σ} {mid : List (Deed τ κ σ)}
    (hds : Deed.All Deed.ReportsToHttp e (d :: mid)) (hsend : ¬d.Sends) {before behind : List Bytes} {frame : Bytes}
    (hq : queuedOn h (d.act e).journal = queuedOn h e.journal ++ (before ++ frame :: behind))
    (hclose : WebSocket.IsClose frame) (hi : issues h (e.after (d :: mid)).journal = issues h e.journal) :
    queuedOn h (e.after (d :: mid)).journal = queuedOn h e.journal ++ (before ++ [frame]) := by
  have r' : (d.act e).registry.Regular := (d.acts e).regular r
  have hmark : Marked h e (d.act e) := marked_act r hds.1 hsend
  have hle := issues_le r' h mid
  rw [Engine.after_cons] at hi ⊢
  rw [hi] at hle
  have hi' := Nat.le_antisymm hle hmark.le
  obtain ⟨buffers, hbuffers, hcases⟩ := hmark.queued hi'
  rw [hq] at hbuffers
  rcases hcases with hnone | ⟨before', frame', rfl, hbefore, hending⟩
  · rw [← List.append_cancel_left hbuffers] at hnone
    exact absurd hclose (hnone frame (by simp))
  · have hbehind := eq_nil_of_concat_eq hbefore hclose (List.append_cancel_left hbuffers).symm
    rw [(quiet_after r' hds.2 hending).queued (hi.trans hi'.symm), hq, hbehind]

theorem endsQuietly_of_all {start : Engine τ κ σ} (r : start.registry.Regular) {ds : List (Deed τ κ σ)}
    (hds : Deed.All Deed.ReportsToHttp start ds) (hflag : ∀ h, Flagged h start) : EndsQuietly start ds where
  ending past mid hp h t hs hending hi := by
    obtain ⟨rest, rfl⟩ := hp
    rw [Deed.all_append, Deed.all_append] at hds
    rw [Engine.after_append] at hi ⊢
    have hq := quiet_after (Engine.after_regular r past) hds.1.2 (.of_get? hs hending)
    exact ⟨hq.queued hi, hq.ending hi⟩
  closing past d mid hp hsend h before frame behind hq hclose hi := by
    obtain ⟨rest, rfl⟩ := hp
    rw [Deed.all_append, Deed.all_append] at hds
    rw [Engine.after_concat, List.append_assoc] at hq
    rw [Engine.after_append] at hi ⊢
    rw [List.append_assoc]
    exact queuedOn_after_close (Engine.after_regular r past) hds.1.2 hsend hq hclose hi
  closeSent past hp h := by
    obtain ⟨rest, rfl⟩ := hp
    rw [Deed.all_append] at hds
    exact Engine.after_keep (fun _ _ _ _ hd _ hs hf => hf.step hs hd.not_answers) r (hflag h) hds.1

/-- A session that has handed over a request speaks HTTP. -/
theorem mode_of_next {e m : Engine τ κ σ} {h : Handle} {r : Http.Request} (hn : e.next h = (.request r, m)) :
    m.registry.At h fun t => t.mode = .http := by
  rw [Engine.next] at hn
  split at hn
  · cases hn
  · rename_i t hs
    split at hn
    · cases hn
    · split at hn
      · rename_i hm
        have hmode := Engine.mode_of_nextRequest (r := r) (t := t) (.of_get? hs hm) (congrArg Prod.fst hn)
        rwa [hn] at hmode
      · exact absurd (congrArg Prod.fst hn) (Engine.nextFrame_ne_request e h t r)

/-- Whatever happens to a server whose handlers only make calls, nothing is queued on a session that is ending, and the
closing frame that the engine makes is the last buffer of its session. -/
theorem Server.endsQuietly_of_course {config : Config} {transport : τ} {app : σ} {s : Server τ κ σ}
    {ds : List (Deed τ κ σ)}
    (hc : Course (fun _ o => o.Installs (.applicationCalls τ κ σ)) (new config transport app) ds s) :
    EndsQuietly (new config transport app).engine ds := by
  have hreports : Reports (fun (e : Engine τ κ σ) h => e.registry.At h fun t => t.mode = .http) (.closed τ False) :=
    fun e m m' h r hn w hm => at_http_of_moves hm w (mode_of_next hn)
  refine endsQuietly_of_all (Registry.regular_new _) ?_ fun h => .of_none rfl
  exact hc.all (p := .applicationCalls τ κ σ) (fun _ _ _ => trivial) hreports
    (fun e _ hcall => Surroundings.closed_allows e hcall) (fun hre => False.elim hre)
    (fun _ _ ho => ⟨ho, fun _ _ => trivial⟩) (Handlers.within_none _) (Registry.regular_new _)

/-- A WebSocket session that the application closes twice, and whose peer still sends a ping. -/
theorem Server.endsQuietly_of_close_twice :
    let upgrade := Text.utf8 ("GET / HTTP/1.1\r\nHost: a\r\nOrigin: a\r\nUpgrade: websocket\r\n" ++
      "Connection: Upgrade\r\nSec-WebSocket-Version: 13\r\nSec-WebSocket-Key: x\r\n\r\n")
    let operations : List (Operation (Transport.InMemory Nat) Nat Unit) :=
      [.call (.accept 7), .receive 7 upgrade, .call (.close .first), .receive 7 [0x89, 0], .call (.close .first)]
    let start : Server (Transport.InMemory Nat) Nat Unit := new {} {} ()
    let s := operations.foldl apply start
    EndsQuietly start.engine (deedsOf operations start) ∧
      (s.engine.registry.sessions.map Session.closeSent, (queuedOn .first s.engine.journal).map List.length) =
        ([true], [129, 4]) := by
  refine ⟨endsQuietly_of_course (course_deedsOf ?_), ?_⟩
  · simp [Operation.Installs]
  · decide +kernel

end

end WebServer
