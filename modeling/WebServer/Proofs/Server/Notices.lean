import WebServer.Proofs.Engine.Telling
import WebServer.Proofs.Output.Milestones
import WebServer.Proofs.Output.Requests
import WebServer.Proofs.Server.Moments
import WebServer.Transport.Faulty

/-! # Notices

The application hears of every session that it opened, that it was upgraded, that it was idle and that it is closed, in
this order. A connection is closed once, just before the application hears so, and the transport is not bothered with
it afterwards. What the application is told, and what the transport is asked, is what the journal shows. -/

namespace WebServer

open Milestone (begun)

variable {τ κ σ : Type}

/-! ## What an effect enters in the journal -/

section

variable {lic : License τ} {e : Engine τ κ σ} {h g : Handle} {u : Session κ} {u? : Option (Session κ)}
  {gained : List (Entry κ)} {entry : Entry κ}

theorem Entry.Offers.plain {conn : κ} (ho : entry.Offers h conn) : entry.Plain h := by
  cases ho <;> exact ⟨rfl, rfl⟩

theorem Entry.Hands.plain (hh : entry.Hands h) : entry.Plain h := by
  cases hh <;> exact ⟨rfl, rfl⟩

theorem Engine.heard_of_isSome (hw : e.watcher.isSome) (h : Handle) (n : Notice) : e.heard h n = [.notice h n] :=
  if_pos hw

/-- The transport is asked about the connection of the session only. -/
theorem Effect.requests (he : Effect lic e h u? gained) (hm : entry ∈ gained) {r : Transport.Request κ}
    (hr : entry.request? = some r) : ∃ t, e.session? h = some t ∧ r.conn = t.conn := by
  have hnotice {n : Notice} (hm : entry ∈ e.heard h n) : False := by
    rw [Engine.handle_of_mem_heard hm] at hr
    cases hr
  have hidle {idle : Bool} (hm : entry ∈ if idle then e.heard h .idle else []) : False := by
    cases idle with
    | true => exact hnotice hm
    | false => cases hm
  have hoffer {conn : κ} (ho : entry.Offers h conn) : r.conn = conn := by
    cases ho with
    | wrote => exact Option.some.inj hr ▸ rfl
    | lost => cases hr
  cases he with
  | accepted =>
      rcases List.mem_append.mp hm with hm | hm
      · exact (hnotice hm).elim
      · cases List.mem_singleton.mp hm
        cases hr
  | received | consumed => cases hm
  | queued =>
      cases List.mem_singleton.mp hm
      cases hr
  | upgraded | dropped => exact (hnotice hm).elim
  | closeQueued =>
      rcases List.mem_cons.mp hm with rfl | hm
      · cases hr
      · exact (hidle hm).elim
  | beganClose hs _ _ _ ho | acknowledged hs _ _ ho | flushed hs _ ho => exact ⟨_, hs, hoffer (ho entry hm)⟩
  | @ended t offers hs idle _ ho =>
      simp only [List.mem_append, List.mem_cons] at hm
      rcases hm with (hm | rfl | hm) | hm
      · exact (hnotice hm).elim
      · exact ⟨t, hs, Option.some.inj hr ▸ rfl⟩
      · exact (hidle hm).elim
      · exact ⟨t, hs, hoffer (ho entry hm)⟩
  | handed hh =>
      cases List.mem_singleton.mp hm
      cases hh <;> cases hr

/-- That a session is closed is entered last. -/
theorem Effect.closed_last (he : Effect lic e h u? gained) : (∀ g, .notice g .closed ∉ gained) ∨
    u? = none ∧ (∃ t, e.session? h = some t) ∧ ∃ rest, gained = e.heard h .closed ++ rest ∧
      (∀ g, .notice g .closed ∉ rest) ∧ ∀ g, ∀ entry ∈ rest, entry.begins g = false := by
  have hheard {n : Notice} (hn : n ≠ .closed) (g : Handle) : .notice g .closed ∉ e.heard h n := fun hm =>
    hn (Entry.notice.inj (Engine.handle_of_mem_heard hm)).2.symm
  have hidle (idle : Bool) (g : Handle) : .notice g .closed ∉ if idle then e.heard h .idle else [] := by
    cases idle with
    | true => exact hheard (by decide) g
    | false => exact List.not_mem_nil
  have hoffers {offers : List (Entry κ)} {conn : κ} (ho : ∀ entry ∈ offers, entry.Offers h conn) (g : Handle) :
      .notice g .closed ∉ offers := fun hm => nomatch ho _ hm
  cases he with
  | accepted => exact .inl fun g => by simpa using hheard (n := .opened) (by decide) g
  | received | consumed => exact .inl fun g => List.not_mem_nil
  | queued => exact .inl fun g => by simp
  | upgraded => exact .inl fun g => hheard (by decide) g
  | closeQueued hs hq hm ho idle => exact .inl fun g => by simpa using hidle idle g
  | beganClose _ _ _ _ ho | acknowledged _ _ _ ho | flushed _ _ ho => exact .inl (hoffers ho)
  | @ended t offers hs idle hi ho =>
      refine .inr ⟨rfl, ⟨t, hs⟩, .closed h t.conn :: (if idle then e.heard h .idle else []) ++ offers, by simp,
        fun g => ?_, fun g entry hm => ?_⟩
      · rw [List.mem_append, List.mem_cons, not_or, not_or]
        exact ⟨⟨nofun, hidle idle g⟩, hoffers ho g⟩
      · simp only [List.cons_append, List.mem_cons, List.mem_append] at hm
        rcases hm with rfl | hm | hm
        · rfl
        · cases idle with
          | true => exact Engine.handle_of_mem_heard hm ▸ rfl
          | false => cases hm
        · cases ho entry hm <;> rfl
  | @dropped t hs => exact .inr ⟨rfl, ⟨t, hs⟩, [], by simp, fun _ => List.not_mem_nil, by simp⟩
  | handed hh =>
      refine .inl fun g hm => ?_
      cases List.mem_singleton.mp hm
      cases hh

end

/-! ## The life of a session -/

/-- The journal shows a session that is there: how it began, that it was upgraded if it was, and that it was idle only
if its closing frame is queued. -/
structure Lives (h : Handle) (journal : List (Entry κ)) (t : Session κ) : Prop where
  conn : connOf? h journal = some t.conn
  story : ∃ idle, milestones h journal = begun (t.mode = .webSocket) idle ∧ (idle = true → t.closeSent = true)

/-- The journal shows a session that has ended, over whichever of the two ends is possible. -/
def Ended (possible : Bool → Prop) (h : Handle) (journal : List (Entry κ)) : Prop :=
  ∃ conn upgraded idle hungUp, connOf? h journal = some conn ∧ possible hungUp ∧
    milestones h journal = begun upgraded idle ++ Milestone.ended conn hungUp

/-- The journal tells the life of the session `h`. -/
structure Told (possible : Bool → Prop) (h : Handle) (m : Engine τ κ σ) : Prop where
  live : m.registry.At h (Lives h m.journal)
  gone : m.session? h = none → connOf? h m.journal = none ∨ Ended possible h m.journal

section

variable {h : Handle} {journal gained : List (Entry κ)} {t u : Session κ}

/-- A session that goes on without a milestone. -/
theorem Lives.append (l : Lives h journal t) (hg : ∀ entry ∈ gained, Entry.Plain h entry) (hconn : u.conn = t.conn)
    (hmode : u.mode = t.mode) (hsent : t.closeSent = true → u.closeSent = true) : Lives h (gained ++ journal) u := by
  obtain ⟨idle, hm, hi⟩ := l.story
  refine ⟨?_, idle, ?_, fun hidle => hsent (hi hidle)⟩
  · rw [connOf?_append fun entry hm => (hg entry hm).1, l.conn, hconn]
  · rw [milestones_append_plain hg, hm, hmode]

/-- A session whose closing frame is not queued was not idle. -/
theorem Lives.of_open (l : Lives h journal t) (ho : t.isEnding = false) :
    milestones h journal = begun (t.mode = .webSocket) false := by
  obtain ⟨idle, hm, hi⟩ := l.story
  cases idle with
  | false => exact hm
  | true => exact nomatch (Session.flags_of_open ho).1.symm.trans (hi rfl)

theorem Ended.append {possible : Bool → Prop} (k : Ended possible h journal)
    (hg : ∀ entry ∈ gained, Entry.Plain h entry) : Ended possible h (gained ++ journal) := by
  obtain ⟨conn, upgraded, idle, hungUp, hc, hp, hm⟩ := k
  refine ⟨conn, upgraded, idle, hungUp, ?_, hp, ?_⟩
  · rw [connOf?_append fun entry hm => (hg entry hm).1, hc]
  · rw [milestones_append_plain hg, hm]

theorem untold_or_ended_append {possible : Bool → Prop} (k : connOf? h journal = none ∨ Ended possible h journal)
    (hg : ∀ entry ∈ gained, Entry.Plain h entry) :
    connOf? h (gained ++ journal) = none ∨ Ended possible h (gained ++ journal) :=
  k.imp (fun hc => by rw [connOf?_append fun entry hm => (hg entry hm).1, hc]) fun k => k.append hg

end

namespace Effect

variable {lic : License τ} {e : Engine τ κ σ} {h : Handle} {u : Session κ} {u? : Option (Session κ)}
  {gained : List (Entry κ)} {possible : Bool → Prop}

/-- What becomes of a session that the journal tells of, it tells, too. -/
theorem lives (he : Effect lic e h (some u) gained) (hw : e.watcher.isSome)
    (k : ∀ t, e.session? h = some t → Lives h e.journal t) : Lives h (gained ++ e.journal) u := by
  generalize hu : some u = u? at he
  cases he with
  | @accepted conn =>
      cases Option.some.inj hu
      rw [e.heard_of_isSome hw]
      refine ⟨?_, false, ?_, nofun⟩
      · rw [List.append_assoc, connOf?_append (by simp [Entry.begins])]
        exact connOf?_accepted h conn e.journal
      · rw [List.append_assoc, milestones_append (by simp [Entry.begins]), List.singleton_append, milestones_accepted]
        simp [Entry.milestones, begun, Session.accepted]
  | received hs data =>
      rw [Session.touch_eq] at hu
      exact Option.some.inj hu ▸ (k _ hs).append (by simp) rfl rfl id
  | consumed hs => exact Option.some.inj hu ▸ (k _ hs).append (by simp) rfl rfl id
  | queued hs =>
      exact Option.some.inj hu ▸ (k _ hs).append (by simp [Entry.Plain, Entry.begins, Entry.milestones]) rfl rfl id
  | upgraded hs hm ho =>
      cases Option.some.inj hu
      rw [e.heard_of_isSome hw]
      refine ⟨?_, false, ?_, nofun⟩
      · rw [connOf?_append (by simp [Entry.begins]), (k _ hs).conn]
      · rw [milestones_append (by simp [Entry.begins]), (k _ hs).of_open ho, hm]
        simp [Entry.milestones, begun]
  | @closeQueued t payload queue hs hq hm ho idle =>
      cases Option.some.inj hu
      rw [e.heard_of_isSome hw]
      have hb : ∀ entry ∈ (.queued h (WebSocket.encode .close payload none) ::
          if idle then [.notice h .idle] else [] : List (Entry κ)), entry.begins h = false := by
        cases idle <;> simp [Entry.begins]
      refine ⟨?_, idle, ?_, fun _ => rfl⟩
      · rw [connOf?_append hb, (k _ hs).conn]
      · rw [milestones_append hb, (k _ hs).of_open ho, hm]
        cases idle <;> simp [Entry.milestones, begun]
  | beganClose hs _ _ _ hoffers =>
      exact Option.some.inj hu ▸ (k _ hs).append (fun entry hm => (hoffers entry hm).plain) rfl rfl id
  | acknowledged hs _ _ hoffers =>
      rw [Session.touchSent_eq] at hu
      exact Option.some.inj hu ▸ (k _ hs).append (fun entry hm => (hoffers entry hm).plain) rfl rfl id
  | flushed hs _ hoffers =>
      exact Option.some.inj hu ▸ (k _ hs).append (fun entry hm => (hoffers entry hm).plain) rfl rfl id
  | ended | dropped => cases hu
  | handed hh => exact (k u hu.symm).append (by simpa using hh.plain) rfl rfl id

/-- When a session goes, its life is told to its end. -/
theorem gone (he : Effect lic e h none gained) (hw : e.watcher.isSome)
    (k : ∀ t, e.session? h = some t → Lives h e.journal t)
    (hk : e.session? h = none → connOf? h e.journal = none ∨ Ended possible h e.journal)
    (hdrops : lic.drops → possible false) (hends : possible true) :
    connOf? h (gained ++ e.journal) = none ∨ Ended possible h (gained ++ e.journal) := by
  generalize hu : (none : Option (Session κ)) = u? at he
  cases he with
  | @ended t offers hs idle hi ho =>
      rw [e.heard_of_isSome hw, e.heard_of_isSome hw]
      obtain ⟨before, hbefore, hidle⟩ := (k t hs).story
      have hplain : ∀ entry ∈ offers, Entry.Plain h entry := fun entry hm => (ho entry hm).plain
      have hb : ∀ entry ∈ [.notice h .closed] ++ .closed h t.conn :: (if idle then [Entry.notice h .idle] else []),
          entry.begins h = false := by
        cases idle <;> simp [Entry.begins]
      refine .inr ⟨t.conn, t.mode = .webSocket, before || idle, true, ?_, hends, ?_⟩
      · rw [List.append_assoc, connOf?_append hb, connOf?_append fun entry hm => (hplain entry hm).1, (k t hs).conn]
      · rw [List.append_assoc, milestones_append hb, milestones_append_plain hplain, hbefore]
        cases idle with
        | false => simp [Entry.milestones, Milestone.ended]
        | true =>
            -- Only a session that is open is told to be idle, and then for the first time.
            have hnot : before = false := by
              have hopen := (Session.flags_of_open (hi rfl)).1
              cases before with
              | false => rfl
              | true => exact absurd (hopen.symm.trans (hidle rfl)) Bool.false_ne_true
            simp [hnot, Entry.milestones, Milestone.ended, begun]
  | @dropped t hs hd =>
      rw [e.heard_of_isSome hw]
      obtain ⟨before, hbefore, -⟩ := (k t hs).story
      refine .inr ⟨t.conn, t.mode = .webSocket, before, false, ?_, hdrops hd, ?_⟩
      · rw [connOf?_append (by simp [Entry.begins]), (k t hs).conn]
      · rw [milestones_append (by simp [Entry.begins]), hbefore]
        simp [Entry.milestones, Milestone.ended]
  | handed hh => exact untold_or_ended_append (hk hu.symm) (by simpa using hh.plain)
  | _ => cases hu

end Effect

/-! ## What every step keeps -/

section

variable [DecidableEq κ] [Transport τ κ] {lic : License τ} {m m' : Engine τ κ σ} {h : Handle} {possible : Bool → Prop}

theorem Told.step (k : Told possible h m) (hs : Step lic m m') (hw : m.watcher.isSome)
    (hdrops : lic.drops → lic.on h → possible false) (hends : possible true) : Told possible h m' := by
  rcases hs.on_session h with ⟨hsession, gained, hj, hne⟩ | ha
  · have hplain : ∀ entry ∈ gained, Entry.Plain h entry := fun entry hm => Entry.plain_of_handle (hne entry hm)
    refine ⟨fun t ht => ?_, fun hnone => ?_⟩
    · rw [hj]
      exact (k.live t (hsession.symm.trans ht)).append hplain rfl rfl id
    · rw [hj]
      exact untold_or_ended_append (k.gone (hsession.symm.trans hnone)) hplain
  · obtain ⟨gained, hj, heff⟩ := ha.effect
    refine ⟨fun t ht => ?_, fun hnone => ?_⟩
    · rw [show m'.session? h = some t from ht] at heff
      rw [hj]
      exact heff.lives hw k.live
    · rw [hnone] at heff
      rw [hj]
      exact heff.gone hw k.live k.gone (fun hd => hdrops hd ha.on) hends

/-- After the application has heard that a session is closed, and until its connection is accepted again, no session is
there with the connection and the transport is not asked about it. -/
def Silenced (m : Engine τ κ σ) : Prop :=
  ∀ h conn later earlier, m.journal = later ++ .notice h .closed :: earlier → connOf? h earlier = some conn →
    (∀ g, .accepted g conn ∉ later) → (∀ t ∈ m.registry.sessions, t.conn ≠ conn) ∧
      ∀ entry ∈ later, ∀ r, entry.request? = some r → r.conn ≠ conn

omit [DecidableEq κ] [Transport τ κ] in
/-- A journal that was split somewhere is split before or after the last entries. -/
theorem split_append {gained journal later earlier : List (Entry κ)} {entry : Entry κ}
    (hj : gained ++ journal = later ++ entry :: earlier) :
    (∃ later', later = gained ++ later' ∧ journal = later' ++ entry :: earlier) ∨
      ∃ earlier', gained = later ++ entry :: earlier' ∧ earlier = earlier' ++ journal := by
  rcases List.append_eq_append_iff.mp hj with ⟨later', hlater, hjournal⟩ | ⟨rest, hgained, hrest⟩
  · exact .inl ⟨later', hlater, hjournal⟩
  · cases rest with
    | nil => exact .inl ⟨[], by simpa using hgained.symm, hrest.symm⟩
    | cons other earlier' =>
        obtain ⟨rfl, rfl⟩ := List.cons.inj hrest
        exact .inr ⟨earlier', hgained, rfl⟩

omit [DecidableEq κ] [Transport τ κ] in
theorem eq_of_heard_closed {g : Handle} {rest later earlier : List (Entry κ)} (hrest : ∀ g, .notice g .closed ∉ rest)
    (hj : m.heard h .closed ++ rest = later ++ .notice g .closed :: earlier) :
    later = [] ∧ g = h ∧ earlier = rest := by
  have hnot {before : List (Entry κ)} (he : rest = before ++ .notice g .closed :: earlier) : False :=
    hrest g (he ▸ List.mem_append_right _ List.mem_cons_self)
  rw [Engine.heard] at hj
  split at hj
  · cases later with
    | nil =>
        obtain ⟨he, rfl⟩ := List.cons.inj hj
        exact ⟨rfl, (Entry.notice.inj he).1.symm, rfl⟩
    | cons _ later => exact (hnot (List.cons.inj hj).2).elim
  · exact (hnot hj).elim

theorem Silenced.step (k : Silenced m) (hs : Step lic m m') (r : m.registry.Regular)
    (hl : ∀ h, m.registry.At h (Lives h m.journal)) : Silenced m' := by
  have r' := hs.regular r
  cases hs with
  | aside ha =>
      rw [Silenced, ha.journal, ha.registry]
      exact k
  | @affects h ha =>
      obtain ⟨gained, hj, heff⟩ := ha.effect
      intro g conn later earlier hsplit hconn hnew
      rcases split_append (hj.symm.trans hsplit) with ⟨later, rfl, hj₀⟩ | ⟨earlier', hgained, rfl⟩
      · -- The session was closed before: none has the connection, so that no effect is about it.
        obtain ⟨hnone, hquiet⟩ := k g conn later earlier hj₀ hconn fun f hm => hnew f (List.mem_append_right _ hm)
        refine ⟨fun u hu hc => ?_, fun entry hm r hr hc => ?_⟩
        · have hu' := r'.wellFormed.get?_eq_some.mpr ⟨hu, rfl⟩
          by_cases hne : u.handle = h
          · rw [← hne, show m'.session? u.handle = some u from hu'] at heff
            rcases heff.conn with ⟨t, ht, hct⟩ | ⟨-, hm⟩
            · exact hnone t (Registry.mem_of_get? ht) (hct.symm.trans hc)
            · exact hnew u.handle (List.mem_append_left _ (hc ▸ hm))
          · have ht := (ha.others u.handle hne).symm.trans hu'
            exact hnone u (Registry.mem_of_get? ht) hc
        · rcases List.mem_append.mp hm with hm | hm
          · obtain ⟨t, ht, hct⟩ := heff.requests hm hr
            exact hnone t (Registry.mem_of_get? ht) (hct.symm.trans hc)
          · exact hquiet entry hm r hr hc
      · -- The session is closed now, and this is entered last.
        rcases heff.closed_last with hnot | ⟨hgone, ⟨t, ht⟩, rest, hrest, hclosed, hbegins⟩
        · exact absurd (hgained ▸ List.mem_append_right _ List.mem_cons_self) (hnot g)
        · rw [hrest] at hgained
          obtain ⟨rfl, rfl, rfl⟩ := eq_of_heard_closed hclosed hgained
          rw [connOf?_append (hbegins g), (hl g t ht).conn] at hconn
          refine ⟨fun u hu hc => ?_, fun _ hm => nomatch hm⟩
          have hu' := r'.wellFormed.get?_eq_some.mpr ⟨hu, rfl⟩
          have hne : u.handle ≠ g := fun he => by
            rw [he] at hu'
            exact nomatch hgone.symm.trans hu'
          have ht' := (ha.others u.handle hne).symm.trans hu'
          have hut := r.wellFormed.eq_of_conn (Registry.mem_of_get? ht') (Registry.mem_of_get? ht)
            (hc.trans (Option.some.inj hconn).symm)
          exact hne (hut ▸ Registry.handle_of_get? ht)

/-! ## Runs -/

/-- What is told of all sessions at every moment. -/
structure Reported (m : Engine τ κ σ) : Prop where
  watched : m.watcher.isSome
  told : ∀ h, Told (fun _ => True) h m
  silenced : Silenced m

theorem Reported.after {e : Engine τ κ σ} (k : Reported e) (r : e.registry.Regular) (ds : List (Deed τ κ σ)) :
    Reported (e.after ds) :=
  Engine.after_keep (fun _ _ _ _ _ r hs k => ⟨hs.watches k.watched,
    fun h => (k.told h).step hs k.watched (fun _ _ => trivial) trivial,
    k.silenced.step hs r fun h => (k.told h).live⟩) r k (Deed.all_true e ds)

/-- As long as the application is not exchanged, it is told what is entered. -/
theorem Engine.after_tells {e : Engine τ κ σ} (r : e.registry.Regular) {watch : Handle → Notice → σ → σ}
    (hw : e.watcher = some watch) {ds : List (Deed τ κ σ)} (hds : ∀ d ∈ ds, d.arranges = false) :
    Tells watch e (e.after ds) := by
  refine Engine.after_keep (I := fun m => Tells watch e m) (fun d _ m m' hd _ hs htold => ?_) r (.refl hw)
    (Deed.all_of_forall hds e)
  exact htold.trans (hs.moves.tells (Deed.not_arranges hd) htold.watcher)

/-- As long as the transport is not exchanged, it is asked what is entered. -/
theorem Engine.after_accounts {e : Engine τ κ σ} (r : e.registry.Regular) {log : τ → List (Transport.Request κ)}
    (hlog : Transport.IsLog log) {ds : List (Deed τ κ σ)} (hds : ∀ d ∈ ds, d.exchanges = false) :
    Accounts log e.transport (e.after ds).transport e.journal (e.after ds).journal := by
  refine Engine.after_keep (I := fun m => Accounts log e.transport m.transport e.journal m.journal)
    (fun d _ m m' hd _ hs hasked => ?_) r (.refl log e.transport e.journal) (Deed.all_of_forall hds e)
  exact hasked.trans (hs.moves.accounts hlog fun t t' hdrift =>
    (Deed.not_drift (Deed.ne_setTransport hd) t t' hdrift).elim)

/-- Along the deeds `ds` from `start`, the application hears of every session in order, and the transport is asked to
close its connection once. -/
structure NotifiesInOrder (start : Engine τ κ σ) (ds : List (Deed τ κ σ)) : Prop where
  /-- Of a session that is there, the application has heard that it is opened, that it was upgraded if it was, and
  perhaps that it was idle. -/
  live : ∀ past, past <+: ds → ∀ h t, (start.after past).session? h = some t →
    connOf? h (start.after past).journal = some t.conn ∧
      ∃ idle, milestones h (start.after past).journal = begun (t.mode = .webSocket) idle
  /-- Of a session that is gone, it has also heard that it is closed, and its connection was closed just before if it
  was at all. -/
  gone : ∀ past, past <+: ds → ∀ h conn, connOf? h (start.after past).journal = some conn →
    (start.after past).session? h = none → ∃ upgraded idle hungUp,
      milestones h (start.after past).journal = begun upgraded idle ++ Milestone.ended conn hungUp
  closed : ∀ past, past <+: ds → ∀ h conn, connOf? h (start.after past).journal = some conn →
    (.notice .closed ∈ milestones h (start.after past).journal ↔ (start.after past).session? h = none)
  /-- Whatever makes a session go, it has closed its connection once and for all, unless the connection has failed. -/
  hungUp : ∀ past d mid, past ++ d :: mid <+: ds → ∀ h t, (start.after past).session? h = some t →
    (start.after (past ++ [d])).session? h = none →
    issues h (start.after (past ++ d :: mid)).journal = issues h (start.after past).journal →
      ∃ upgraded idle hungUp, milestones h (start.after (past ++ d :: mid)).journal =
        begun upgraded idle ++ Milestone.ended t.conn hungUp ∧ (hungUp = false ↔ d = .call (.failed t.conn))
  /-- Once the application has heard that a session is closed, the transport is not asked about its connection before
  it is accepted again. -/
  silent : ∀ h conn later earlier, (start.after ds).journal = later ++ .notice h .closed :: earlier →
    connOf? h earlier = some conn → (∀ g, .accepted g conn ∉ later) →
      ∀ entry ∈ later, ∀ r, entry.request? = some r → r.conn ≠ conn
  /-- The application is told what the journal shows, in the same order, and nothing else: over any stretch in which
  nobody exchanges it, it becomes what its watcher makes of the notices that were entered. -/
  told : ∀ past mid, past ++ mid <+: ds → (∀ d ∈ mid, d.arranges = false) →
    ∃ watch ∈ (start.after past).watcher, Tells watch (start.after past) (start.after (past ++ mid))
  /-- The transport is asked what the journal shows, in the same order, and nothing else. -/
  asked : ∀ past mid, past ++ mid <+: ds → (∀ d ∈ mid, d.exchanges = false) →
    ∀ log, Transport.IsLog log → Accounts log (start.after past).transport (start.after (past ++ mid)).transport
      (start.after past).journal (start.after (past ++ mid)).journal

/-- A deed that makes a session go tells its end. -/
theorem ended_of_deed {e : Engine τ κ σ} (r : e.registry.Regular) (k : Reported e) {d : Deed τ κ σ} {t : Session κ}
    (hs : e.session? h = some t) (hgone : (d.act e).session? h = none)
    (hi : issues h (d.act e).journal = issues h e.journal) :
    ∃ upgraded idle hungUp, milestones h (d.act e).journal = begun upgraded idle ++ Milestone.ended t.conn hungUp ∧
      (hungUp = false ↔ d = .call (.failed t.conn)) := by
  have hlive := (k.told h).live t hs
  by_cases hd : d = .call (.failed t.conn)
  · subst hd
    obtain ⟨idle, hm, -⟩ := hlive.story
    refine ⟨t.mode = .webSocket, idle, false, ?_, by simp⟩
    have hh : e.registry.handleOf? t.conn = some h :=
      r.wellFormed.handleOf?_eq_some.mpr ⟨t, Registry.mem_of_get? hs, rfl, Registry.handle_of_get? hs⟩
    have hact : (Deed.call (.failed t.conn)).act e = e.retire h := by
      change e.failed t.conn = e.retire h
      rw [Engine.failed, hh]
    rw [hact, (Engine.retire_spec r.wellFormed hs).journal, e.heard_of_isSome k.watched,
      milestones_append (by simp [Entry.begins]), hm]
    simp [Entry.milestones, Milestone.ended]
  · -- No other deed drops the session, so that its connection is closed.
    have htold : Told (· = true) h e := ⟨(k.told h).live, fun hnone => absurd (hs.symm.trans hnone) (Option.some_ne_none t)⟩
    have hkept := (d.acts e).keep r (I := fun m => m.watcher.isSome ∧ Told (· = true) h m)
      (fun m m' _ hstep hm => ⟨hstep.watches hm.1, hm.2.step hstep hm.1
        (fun hdrops hon => absurd (Deed.eq_failed_of_drops r.wellFormed hs hdrops hon) hd) rfl⟩) ⟨k.watched, htold⟩
    obtain ⟨gained, hj⟩ := Engine.journal_suffix_after r [d]
    rw [Engine.after_cons, Engine.after_nil] at hj
    have hconn : connOf? h (d.act e).journal = some t.conn := by
      rw [← hj] at hi ⊢
      rw [connOf?_append (not_begins_of_issues hi), hlive.conn]
    rcases hkept.2.gone hgone with hnone | ⟨conn, upgraded, idle, hungUp, hc, rfl, hm⟩
    · exact absurd (hconn.symm.trans hnone) (Option.some_ne_none _)
    · cases Option.some.inj (hc.symm.trans hconn)
      exact ⟨upgraded, idle, true, hm, by simp [hd]⟩

omit [DecidableEq κ] [Transport τ κ] in
/-- Nothing follows the end of a session. -/
theorem milestones_after_end {journal : List (Entry κ)} (k : Told (fun _ => True) h m) (hsuffix : journal <:+ m.journal)
    (hi : issues h m.journal = issues h journal) {upgraded idle hungUp : Bool} {conn : κ}
    (hc : connOf? h journal = some conn)
    (hm : milestones h journal = begun upgraded idle ++ Milestone.ended conn hungUp) :
    milestones h m.journal = milestones h journal := by
  obtain ⟨hconn, more, hmore⟩ := milestones_of_suffix hsuffix hi
  have hclosed : .notice .closed ∈ milestones h m.journal := by
    rw [← hmore, hm]
    simp [Milestone.closed_mem_ended]
  cases hs : m.session? h with
  | some u =>
      obtain ⟨idle', hlive, -⟩ := (k.live u hs).story
      exact absurd (hlive ▸ hclosed) (Milestone.closed_not_mem_begun _ _)
  | none =>
      rcases k.gone hs with hnone | ⟨conn', upgraded', idle', hungUp', -, -, hend⟩
      · exact nomatch hnone.symm.trans (hconn.trans hc)
      · rw [hend, hm] at hmore
        rw [hend, ← hmore, Milestone.eq_nil_of_ended hmore, List.append_nil, hm]

/-- The end that a deed tells of a session is told for ever. -/
theorem ended_after {e : Engine τ κ σ} (r : e.registry.Regular) (k : Reported e) {d : Deed τ κ σ}
    {mid : List (Deed τ κ σ)} {t : Session κ} (hs : e.session? h = some t) (hgone : (d.act e).session? h = none)
    (hi : issues h (e.after (d :: mid)).journal = issues h e.journal) :
    ∃ upgraded idle hungUp, milestones h (e.after (d :: mid)).journal =
      begun upgraded idle ++ Milestone.ended t.conn hungUp ∧ (hungUp = false ↔ d = .call (.failed t.conn)) := by
  have r' : (d.act e).registry.Regular := (d.acts e).regular r
  have hsuffix : e.journal <:+ (d.act e).journal := Engine.journal_suffix_after r [d]
  -- The handle was issued again neither by the deed nor later.
  have hle : issues h e.journal ≤ issues h (d.act e).journal := issues_le r h [d]
  have hle' := issues_le r' h mid
  rw [Engine.after_cons] at hi
  have hi' : issues h (d.act e).journal = issues h e.journal := by omega
  have hconn := (milestones_of_suffix hsuffix hi').1.trans ((k.told h).live t hs).conn
  obtain ⟨upgraded, idle, hungUp, hm, hfailed⟩ := ended_of_deed r k hs hgone hi'
  have hafter := milestones_after_end ((k.after r (d :: mid)).told h) (Engine.journal_suffix_after r' mid)
    (hi.trans hi'.symm) hconn hm
  exact ⟨upgraded, idle, hungUp, hafter.trans hm, hfailed⟩

theorem notifiesInOrder_of_reported {start : Engine τ κ σ} (r : start.registry.Regular) (k : Reported start)
    (ds : List (Deed τ κ σ)) : NotifiesInOrder start ds where
  live past _ h t hs := by
    have hlive := ((k.after r past).told h).live t hs
    obtain ⟨idle, hm, -⟩ := hlive.story
    exact ⟨hlive.conn, idle, hm⟩
  gone past _ h conn hc hs := by
    rcases ((k.after r past).told h).gone hs with hnone | ⟨conn', upgraded, idle, hungUp, hc', -, hm⟩
    · exact nomatch hnone.symm.trans hc
    · cases Option.some.inj (hc.symm.trans hc')
      exact ⟨upgraded, idle, hungUp, hm⟩
  closed past _ h conn hc := by
    have htold := (k.after r past).told h
    cases hs : (start.after past).session? h with
    | some t =>
        obtain ⟨idle, hm, -⟩ := (htold.live t hs).story
        simp [hm, Milestone.closed_not_mem_begun]
    | none =>
        rcases htold.gone hs with hnone | ⟨conn', upgraded, idle, hungUp, -, -, hm⟩
        · exact nomatch hnone.symm.trans hc
        · simp [hm, Milestone.closed_mem_ended]
  hungUp past d mid _ h t hs hgone hi := by
    rw [Engine.after_concat] at hgone
    rw [Engine.after_append] at hi ⊢
    exact ended_after (Engine.after_regular r past) (k.after r past) hs hgone hi
  silent h conn later earlier hj hc hnew := ((k.after r ds).silenced h conn later earlier hj hc hnew).2
  told past mid _ hmid := by
    obtain ⟨watch, hw⟩ := Option.isSome_iff_exists.mp (k.after r past).watched
    rw [Engine.after_append]
    exact ⟨watch, hw, Engine.after_tells (Engine.after_regular r past) hw hmid⟩
  asked past mid _ hmid log hlog := by
    rw [Engine.after_append]
    exact Engine.after_accounts (Engine.after_regular r past) hlog hmid

/-- Whatever happens to a server whose application watches from the start, whatever its handlers do and whatever the
transport answers, the application is told of every session in order, and the transport is asked to close its connection
once, or never if the connection has failed. -/
theorem Server.notifiesInOrder_of_course {config : Config} {transport : τ} {app : σ} {watcher : Handle → Notice → σ → σ}
    {s : Server τ κ σ} {ds : List (Deed τ κ σ)}
    (hc : Course (fun _ _ => True) ((new config transport app).apply (.call (.watch watcher))) ds s) :
    s.engine = ((new config transport app).apply (.call (.watch watcher))).engine.after ds ∧
      NotifiesInOrder ((new config transport app).apply (.call (.watch watcher))).engine ds := by
  refine ⟨hc.engine, notifiesInOrder_of_reported (Registry.regular_new _) ⟨rfl, fun h => ?_, ?_⟩ ds⟩
  · exact ⟨.of_none rfl, fun _ => .inl rfl⟩
  · intro h conn later earlier hj
    exact absurd hj (by simp [new, apply, Operation.program, run, runBy, Engine.perform, Engine.new])

/-- Connections whose closing fails: one that is closed by a handler that stops the server, one that fails, and one
that is idle for too long. -/
theorem Server.notifiesInOrder_of_stop_in_handler :
    let watcher : Handle → Notice → List (Handle × Notice) → List (Handle × Notice) := fun h n heard => (h, n) :: heard
    let transport : Transport.Logged (Transport.Faulty Nat) Nat := ⟨{ failingCloses := 9 }, []⟩
    let start : Server (Transport.Logged (Transport.Faulty Nat) Nat) Nat (List (Handle × Notice)) :=
      (new {} transport []).apply (.call (.watch watcher))
    let operations : List (Operation (Transport.Logged (Transport.Faulty Nat) Nat) Nat (List (Handle × Notice))) :=
      [.onRequest fun _ _ => .call .stop fun _ => .done {}, .call (.accept 7),
        .receive 7 (Text.utf8 "GET / HTTP/1.1\r\n\r\n"), .call (.accept 8), .call (.failed 8), .call (.accept 9),
        .call (.advance 600001), .call .poll]
    let s := operations.foldl apply start
    (s.engine = start.engine.after (deedsOf operations start) ∧
        NotifiesInOrder start.engine (deedsOf operations start)) ∧
      s.engine.app = s.engine.journal.foldr (Entry.tell watcher) [] ∧
      s.engine.transport.log = s.engine.journal.filterMap Entry.request? ∧
      s.engine.app = [(⟨1002⟩, .closed), (⟨1002⟩, .idle), (⟨1002⟩, .opened), (⟨1001⟩, .closed), (⟨1001⟩, .opened),
        (⟨1000⟩, .closed), (⟨1000⟩, .opened)] ∧
      s.engine.transport.log = [.close 9, .close 7] ∧
      [Handle.mk 1000, Handle.mk 1001, Handle.mk 1002].map (milestones · s.engine.journal) =
        [begun false false ++ Milestone.ended 7 true, begun false false ++ Milestone.ended 8 false,
          begun false true ++ Milestone.ended 9 true] := by
  intro watcher transport start operations s
  have hcourse : s.engine = start.engine.after (deedsOf operations start) ∧
      NotifiesInOrder start.engine (deedsOf operations start) :=
    notifiesInOrder_of_course (course_deedsOf fun _ _ _ => trivial)
  obtain ⟨hs, hinOrder⟩ := hcourse
  have hdeeds : ∀ d ∈ deedsOf operations start, d.arranges = false ∧ d.exchanges = false := by decide +kernel
  have hjournal : start.engine.journal = [] := rfl
  refine ⟨⟨hs, hinOrder⟩, ?_, ?_, by decide +kernel, by decide +kernel, by decide +kernel⟩
  · obtain ⟨watch, hw, htells⟩ := hinOrder.told [] (deedsOf operations start) List.prefix_rfl
      fun d hd => (hdeeds d hd).1
    obtain rfl : watcher = watch := Option.some.inj hw
    rw [Engine.after_nil, List.nil_append, ← hs] at htells
    exact htells.app_eq hjournal
  · have hasked := hinOrder.asked [] (deedsOf operations start) List.prefix_rfl (fun d hd => (hdeeds d hd).2)
      Transport.Logged.log Transport.Logged.isLog
    rw [Engine.after_nil, List.nil_append, ← hs, hjournal] at hasked
    exact hasked.log_eq rfl

end

end WebServer
