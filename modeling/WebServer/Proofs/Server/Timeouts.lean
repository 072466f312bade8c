import Mathlib.Data.List.Induction
import WebServer.Proofs.Engine.Polls
import WebServer.Proofs.Server.Moments
import WebServer.Transport.InMemory

/-! # Timeouts

An open session was last active when it was accepted, when bytes last arrived on it or when output was last
acknowledged. Once it is ending, the time it has left is counted from the beginning of the end, and the peer cannot
prolong it by anything but acknowledgements, nor by these once the closing frame is queued. -/

namespace WebServer

variable {τ κ σ : Type}

/-! ## What the time of a session is set to -/

/-- How a session may change at time `now`, whether bytes arrive on it or output of it is acknowledged. -/
structure Session.Ages (now : Nat) (received acknowledged : Prop) (t u : Session κ) : Prop where
  closeSent : t.closeSent = true → u.closeSent = true ∧ u.lastActivity = t.lastActivity
  closing : t.closing = true → u.closing = true
  sendsClose : t.closeSent = false → u.closeSent = true → u.lastActivity = now
  beginsClosing : u.closeSent = false → t.closing = false → u.closing = true → u.lastActivity = now
  goesOn : u.closeSent = false → u.closing = t.closing →
    u.lastActivity = t.lastActivity ∨ (acknowledged ∨ received ∧ t.closing = false) ∧ u.lastActivity = now

namespace Session.Ages

variable {now : Nat} {received acknowledged : Prop} {t u v : Session κ}

/-- A change of other fields. -/
theorem of_eq (hsent : u.closeSent = t.closeSent) (hclosing : u.closing = t.closing)
    (htime : u.lastActivity = t.lastActivity) : Ages now received acknowledged t u where
  closeSent h := ⟨hsent.trans h, htime⟩
  closing h := hclosing.trans h
  sendsClose h h' := nomatch h.symm.trans (hsent.symm.trans h')
  beginsClosing _ h h' := nomatch h.symm.trans (hclosing.symm.trans h')
  goesOn _ _ := .inl htime

theorem refl (now : Nat) (received acknowledged : Prop) (t : Session κ) : Ages now received acknowledged t t :=
  of_eq rfl rfl rfl

/-- A session that shows no sign of an end afterwards showed none before. -/
theorem closeSent_eq_false (a : Ages now received acknowledged t u) (h : u.closeSent = false) :
    t.closeSent = false := by
  cases hs : t.closeSent with
  | false => rfl
  | true => exact nomatch h.symm.trans (a.closeSent hs).1

theorem trans (a : Ages now received acknowledged t u) (b : Ages now received acknowledged u v) :
    Ages now received acknowledged t v where
  closeSent h := ⟨(b.closeSent (a.closeSent h).1).1,
    (b.closeSent (a.closeSent h).1).2.trans (a.closeSent h).2⟩
  closing h := b.closing (a.closing h)
  sendsClose h h' := by
    cases hu : u.closeSent with
    | false => exact b.sendsClose hu h'
    | true => exact (b.closeSent hu).2.trans (a.sendsClose h hu)
  beginsClosing h h' h'' := by
    cases hu : u.closing with
    | false => exact b.beginsClosing h hu h''
    | true =>
        have hnow := a.beginsClosing (b.closeSent_eq_false h) h' hu
        rcases b.goesOn h (h''.trans hu.symm) with htime | ⟨-, htime⟩
        · exact htime.trans hnow
        · exact htime
  goesOn h h' := by
    have hu : u.closing = t.closing := by
      cases hc : t.closing with
      | true => exact a.closing hc
      | false =>
          cases hu : u.closing with
          | false => rfl
          | true => exact (b.closing hu).symm.trans (h'.trans hc)
    rcases b.goesOn h (h'.trans hu.symm) with htime | hnow
    · rw [htime]
      exact a.goesOn (b.closeSent_eq_false h) hu
    · exact .inr (hu ▸ hnow)

theorem imp {received' acknowledged' : Prop} (a : Ages now received acknowledged t u) (hr : received → received')
    (ha : acknowledged → acknowledged') : Ages now received' acknowledged' t u where
  closeSent := a.closeSent
  closing := a.closing
  sendsClose := a.sendsClose
  beginsClosing := a.beginsClosing
  goesOn h h' := (a.goesOn h h').imp_right (And.imp_left (Or.imp ha (And.imp_left hr)))

theorem touch (hr : received) (now : Nat) (t : Session κ) : Ages now received acknowledged t (t.touch now) := by
  rw [Session.touch]
  split
  · exact refl ..
  · rename_i ho
    obtain ⟨hsent, hclosing⟩ := Session.flags_of_open (by simpa using ho)
    exact ⟨fun h => absurd (hsent.symm.trans h) Bool.false_ne_true, id,
      fun _ h => absurd (hsent.symm.trans h) Bool.false_ne_true,
      fun _ _ h => absurd (hclosing.symm.trans h) Bool.false_ne_true, fun _ _ => .inr ⟨.inr ⟨hr, hclosing⟩, rfl⟩⟩

theorem touchSent (ha : acknowledged) (now : Nat) (t : Session κ) :
    Ages now received acknowledged t (t.touchSent now) := by
  rw [Session.touchSent]
  split
  · exact refl ..
  · rename_i hsent
    exact ⟨fun h => absurd h hsent, id, fun _ h => absurd h hsent, fun _ _ _ => rfl,
      fun _ _ => .inr ⟨.inl ha, rfl⟩⟩

end Session.Ages

/-- A session ages, or has just been accepted. -/
theorem Effect.ages {lic : License τ} {e : Engine τ κ σ} {h : Handle} {u : Session κ} {gained : List (Entry κ)}
    (he : Effect lic e h (some u) gained) :
    (∃ t, e.session? h = some t ∧ Session.Ages e.now lic.receives lic.acknowledges t u) ∨
      lic.accepts ∧ ∃ conn, u = .accepted h conn e.now := by
  generalize hu : some u = u? at he
  cases he with
  | @accepted conn hs ha => exact .inr ⟨ha, conn, Option.some.inj hu⟩
  | @received t hs data hr =>
      have hgot : Session.Ages e.now lic.receives lic.acknowledges t { t with inbound := t.inbound ++ data } :=
        .of_eq rfl rfl rfl
      exact .inl ⟨t, hs, Option.some.inj hu ▸ hgot.trans (.touch hr e.now _)⟩
  | consumed hs | queued hs | upgraded hs | flushed hs =>
      exact .inl ⟨_, hs, Option.some.inj hu ▸ .of_eq rfl rfl rfl⟩
  | closeQueued hs hq hm ho =>
      have hsent := (Session.flags_of_open ho).1
      refine .inl ⟨_, hs, Option.some.inj hu ▸ ?_⟩
      exact ⟨fun h => (nomatch hsent.symm.trans h), id, fun _ _ => rfl, fun _ _ _ => rfl, nofun⟩
  | beganClose hs ho =>
      refine .inl ⟨_, hs, Option.some.inj hu ▸ ?_⟩
      exact ⟨fun h => ⟨h, if_pos h⟩, fun _ => rfl, fun h h' => (nomatch h.symm.trans h'),
        fun h _ _ => if_neg (by simpa using h), fun _ h => (nomatch ho.symm.trans h.symm)⟩
  | acknowledged hs ha =>
      exact .inl ⟨_, hs, Option.some.inj hu ▸ .trans (.touchSent ha e.now _) (.of_eq rfl rfl rfl)⟩
  | ended | dropped => cases hu
  | handed => exact .inl ⟨u, hu.symm, .refl ..⟩

/-! ## What a deed sets it to -/

section

variable [DecidableEq κ] [Transport τ κ]

/-- The connection of the session `h` is accepted. -/
def Deed.Accepts (h : Handle) (e : Engine τ κ σ) : Deed τ κ σ → Prop
  | .call (.accept conn) => (e.accept conn).1 = some h
  | _ => False

/-- Bytes arrive on the session `h`. -/
def Deed.Receives (h : Handle) : Deed τ κ σ → Prop
  | .received g _ => g = h
  | _ => False

/-- Output of the session `h` is acknowledged. -/
def Deed.Acknowledges (h : Handle) (e : Engine τ κ σ) : Deed τ κ σ → Prop
  | .call (.sent conn _) => e.registry.handleOf? conn = some h
  | _ => False

variable {e : Engine τ κ σ} {d : Deed τ κ σ} {h : Handle} {t u : Session κ}

omit [Transport τ κ] in
theorem Deed.accepts_of_license (ha : (d.license e).accepts) (hon : (d.license e).on h) : d.Accepts h e := by
  cases d with
  | call c =>
      cases c with
      | accept conn => exact hon
      | _ => exact ha.elim
  | received | took | handed | concluded => exact ha.elim

omit [Transport τ κ] in
theorem Deed.receives_of_license (hr : (d.license e).receives) (hon : (d.license e).on h) : d.Receives h := by
  cases d with
  | received g data => exact hon.symm
  | call c => cases c <;> exact hr.elim
  | took | handed | concluded => exact hr.elim

omit [Transport τ κ] in
theorem Deed.acknowledges_of_license (ha : (d.license e).acknowledges) (hon : (d.license e).on h) :
    d.Acknowledges h e := by
  cases d with
  | call c =>
      cases c with
      | sent conn count => exact hon
      | _ => exact ha.elim
  | received | took | handed | concluded => exact ha.elim

/-- Where the time passes, nothing else happens. -/
theorem Deed.session?_of_advances (ha : (d.license e).advances) : (d.act e).session? h = e.session? h := by
  cases d with
  | call c =>
      cases c with
      | advance => rfl
      | _ => exact ha.elim
  | received | took | handed | concluded => exact ha.elim

/-- A session that is there after a deed was there and ages, or has just been accepted. -/
theorem Deed.ages (r : e.registry.Regular) (hu : (d.act e).session? h = some u) :
    (∃ t, e.session? h = some t ∧ Session.Ages e.now (d.Receives h) (d.Acknowledges h e) t u) ∨
      d.Accepts h e ∧ ∃ conn, Session.Ages e.now (d.Receives h) (d.Acknowledges h e) (.accepted h conn e.now) u := by
  by_cases hadvances : (d.license e).advances
  · rw [Deed.session?_of_advances hadvances] at hu
    exact .inl ⟨u, hu, .refl ..⟩
  · have hkept := (d.acts e).keep r (I := fun m => m.now = e.now ∧ ∀ u, m.session? h = some u →
      (∃ t, e.session? h = some t ∧ Session.Ages e.now (d.Receives h) (d.Acknowledges h e) t u) ∨
        d.Accepts h e ∧ ∃ conn, Session.Ages e.now (d.Receives h) (d.Acknowledges h e) (.accepted h conn e.now) u)
      ?_ ⟨rfl, fun u hu => .inl ⟨u, hu, .refl ..⟩⟩
    · exact hkept.2 u hu
    rintro m m' - hs ⟨hnow, hages⟩
    refine ⟨(hs.moves.now.resolve_left hadvances).trans hnow, fun v hv => ?_⟩
    rcases hs.on_session h with ⟨hsession, -⟩ | ha
    · exact hages v (hsession.symm.trans hv)
    · obtain ⟨gained, -, heff⟩ := ha.effect
      rw [show m'.session? h = some v from hv] at heff
      rcases heff.ages with ⟨u, hu, hstep⟩ | ⟨haccepts, conn, rfl⟩
      · have hstep' := hnow ▸ hstep.imp (fun hr => Deed.receives_of_license hr ha.on)
          fun hack => Deed.acknowledges_of_license hack ha.on
        exact (hages u hu).imp (fun ⟨t, ht, hpast⟩ => ⟨t, ht, hpast.trans hstep'⟩)
          fun ⟨hacc, conn, hpast⟩ => ⟨hacc, conn, hpast.trans hstep'⟩
      · exact .inr ⟨Deed.accepts_of_license haccepts ha.on, conn, hnow ▸ .refl ..⟩

omit [Transport τ κ] in
/-- A connection that is accepted gets a handle that no session has, and the journal tells so. -/
theorem Engine.accept_spec {conn : κ} (ha : (e.accept conn).1 = some h) :
    e.session? h = none ∧ (e.accept conn).2.journal = e.heard h .opened ++ .accepted h conn :: e.journal := by
  rw [accept] at ha ⊢
  split at ha
  · rename_i g registry hc
    cases Option.some.inj ha
    exact ⟨(Registry.registered_of_create hc).handle_free,
      (notify_journal _ _ _).trans (congrArg (· ++ _) (heard_congr (e := e) rfl _ _))⟩
  · cases ha

omit [Transport τ κ] in
theorem Deed.Accepts.session?_eq_none (ha : d.Accepts h e) : e.session? h = none := by
  cases d with
  | call c =>
      cases c with
      | accept conn => exact (Engine.accept_spec ha).1
      | _ => exact ha.elim
  | received | took | handed | concluded => exact ha.elim

theorem Deed.Accepts.issues_lt (ha : d.Accepts h e) : issues h e.journal < issues h (d.act e).journal := by
  cases d with
  | call c =>
      cases c with
      | accept conn =>
          have hj : ((Deed.call (.accept conn)).act e).journal = e.heard h .opened ++ .accepted h conn :: e.journal :=
            (Engine.accept_spec ha).2
          have hle := issues_le_append h (e.heard h .opened) (.accepted h conn :: e.journal)
          rw [issues_accepted] at hle
          rw [hj]
          exact hle
      | _ => exact ha.elim
  | received | took | handed | concluded => exact ha.elim

/-- A session that is open after bytes arrived on it was active just now. -/
theorem Deed.Receives.lastActivity (hr : d.Receives h) (hu : (d.act e).session? h = some u) (ho : u.isEnding = false) :
    u.lastActivity = e.now := by
  cases d with
  | received g data =>
      change g = h at hr
      subst hr
      have hself : (e.gather g data).session? g =
          (e.session? g).map fun t => { t with inbound := t.inbound ++ data }.touch e.now :=
        Engine.update_session? fun _ => Session.touch_handle _ _
      change (e.gather g data).session? g = some u at hu
      rw [hself, Option.map_eq_some_iff] at hu
      obtain ⟨t, -, rfl⟩ := hu
      exact (Session.touch_fresh _ _).resolve_left (by simp [ho])
  | call | took | handed | concluded => exact hr.elim

/-- A session whose closing frame is not queued was active just now if its output was acknowledged. -/
theorem Deed.Acknowledges.lastActivity (r : e.registry.Regular) (ha : d.Acknowledges h e)
    (hu : (d.act e).session? h = some u) (ho : u.closeSent = false) : u.lastActivity = e.now := by
  cases d with
  | call c =>
      cases c with
      | sent conn count =>
          change (e.sent conn count).session? h = some u at hu
          obtain ⟨t, ht, hconn, rfl⟩ := r.wellFormed.handleOf?_eq_some.mp ha
          have hs : e.session? t.handle = some t := r.wellFormed.get?_eq_some.mpr ⟨ht, rfl⟩
          rw [Engine.sent, r.wellFormed.ofConn?_eq_some.mpr ⟨ht, hconn⟩] at hu
          obtain ⟨queue, rfl⟩ := Engine.session?_of_settle r.wellFormed hs (fun _ => by rw [Session.touchSent_eq])
            (fun _ => by rw [Session.touchSent_eq]) hu
          rw [Session.touchSent_eq] at ho ⊢
          exact if_neg (by simpa using ho)
      | _ => exact ha.elim
  | received | took | handed | concluded => exact ha.elim

/-! ## The latest deed of a kind -/

/-- The latest of the deeds `ds` with `P` was done at the given time. -/
def Latest (P : Engine τ κ σ → Deed τ κ σ → Prop) (start : Engine τ κ σ) (ds : List (Deed τ κ σ)) (time : Nat) : Prop :=
  ∃ before d behind, ds = before ++ d :: behind ∧ P (start.after before) d ∧ (start.after before).now = time ∧
    Deed.All (fun e d => ¬P e d) (start.after (before ++ [d])) behind

section

variable {P : Engine τ κ σ → Deed τ κ σ → Prop} {start : Engine τ κ σ} {ds : List (Deed τ κ σ)}

theorem latest_concat (hp : P (start.after ds) d) : Latest P start (ds ++ [d]) (start.after ds).now :=
  ⟨ds, d, [], rfl, hp, rfl, trivial⟩

theorem Latest.append {time : Nat} (l : Latest P start ds time) (hp : ¬P (start.after ds) d) :
    Latest P start (ds ++ [d]) time := by
  obtain ⟨before, c, behind, rfl, hc, htime, hall⟩ := l
  refine ⟨before, c, behind ++ [d], by simp, hc, htime, Deed.all_append.mpr ⟨hall, ?_, trivial⟩⟩
  rwa [← Engine.after_append, List.append_assoc, List.singleton_append]

/-- Where a deed with `P` sets the time of a session and no other deed does, it is that of the latest deed with `P`. -/
theorem latest_activity (r : start.registry.Regular) (hstart : start.session? h = none) {Q : Session κ → Prop}
    (hset : ∀ (e : Engine τ κ σ) d u, e.registry.Regular → (d.act e).session? h = some u → Q u → P e d →
      u.lastActivity = e.now)
    (hkeep : ∀ (e : Engine τ κ σ) d u, e.registry.Regular → (d.act e).session? h = some u → Q u → ¬P e d →
      ∃ t, e.session? h = some t ∧ Q t ∧ u.lastActivity = t.lastActivity)
    (hs : (start.after ds).session? h = some t) (hq : Q t) : Latest P start ds t.lastActivity := by
  induction ds using List.reverseRecOn generalizing t with
  | nil => exact nomatch hstart.symm.trans hs
  | append_singleton ds d ih =>
      have r' := Engine.after_regular r ds
      rw [Engine.after_concat] at hs
      by_cases hp : P (start.after ds) d
      · rw [hset _ d t r' hs hq hp]
        exact latest_concat hp
      · obtain ⟨v, hv, hqv, htime⟩ := hkeep _ d t r' hs hq hp
        rw [htime]
        exact (ih hv hqv).append hp

end

/-- The session `h` is accepted, bytes arrive on it, or output of it is acknowledged. -/
def Deed.Touches (h : Handle) (e : Engine τ κ σ) (d : Deed τ κ σ) : Prop :=
  d.Accepts h e ∨ d.Receives h ∨ d.Acknowledges h e

/-- A flag of the session `h` is set. -/
def Deed.Sets (flag : Session κ → Bool) (h : Handle) (e : Engine τ κ σ) (d : Deed τ κ σ) : Prop :=
  (e.registry.At h fun t => flag t = false) ∧ ∃ u, (d.act e).session? h = some u ∧ flag u = true

/-- The closing frame of a session is queued at the time that the session keeps. -/
theorem Deed.Sets.lastActivity (hd : d.Sets Session.closeSent h e) (r : e.registry.Regular)
    (hu : (d.act e).session? h = some u) (hsent : u.closeSent = true) : u.lastActivity = e.now := by
  rcases Deed.ages r hu with ⟨t, ht, hages⟩ | ⟨-, conn, hages⟩
  · exact hages.sendsClose (hd.1 t ht) hsent
  · exact hages.sendsClose rfl hsent

section

variable {start : Engine τ κ σ} {ds : List (Deed τ κ σ)} (r : start.registry.Regular)
  (hstart : start.session? h = none)
include r hstart

theorem latest_of_open (hs : (start.after ds).session? h = some t) (ho : t.isEnding = false) :
    Latest (fun e d => d.Touches h e) start ds t.lastActivity := by
  refine latest_activity r hstart (Q := fun t => t.isEnding = false) (fun e d u r hu ho hp => ?_)
    (fun e d u r hu ho hp => ?_) hs ho
  all_goals
    obtain ⟨hsent, hclosing⟩ := Session.flags_of_open ho
  · rcases hp with haccepts | hreceives | hacks
    · rcases Deed.ages r hu with ⟨t, ht, -⟩ | ⟨-, conn, hages⟩
      · exact nomatch haccepts.session?_eq_none.symm.trans ht
      · exact (hages.goesOn hsent hclosing).elim id And.right
    · exact hreceives.lastActivity hu ho
    · exact hacks.lastActivity r hu hsent
  · rcases Deed.ages r hu with ⟨t, ht, hages⟩ | ⟨haccepts, -⟩
    · have hbefore : t.closing = false := by
        cases hc : t.closing with
        | false => rfl
        | true => exact nomatch hclosing.symm.trans (hages.closing hc)
      refine ⟨t, ht, by simp [Session.isEnding, hages.closeSent_eq_false hsent, hbefore], ?_⟩
      refine (hages.goesOn hsent (hclosing.trans hbefore.symm)).resolve_right fun h => hp (.inr ?_)
      exact h.1.elim .inr fun h => .inl h.1
    · exact absurd (.inl haccepts) hp

theorem latest_of_closeSent (hs : (start.after ds).session? h = some t) (hsent : t.closeSent = true) :
    Latest (Deed.Sets Session.closeSent h) start ds t.lastActivity := by
  refine latest_activity r hstart (Q := fun t => t.closeSent = true) (fun e d u r hu hsent hp => ?_)
    (fun e d u r hu hsent hp => ?_) hs hsent
  · exact hp.lastActivity r hu hsent
  · rcases Deed.ages r hu with ⟨t, ht, hages⟩ | ⟨haccepts, -⟩
    · cases hbefore : t.closeSent with
      | false => exact absurd ⟨.of_get? ht hbefore, u, hu, hsent⟩ hp
      | true => exact ⟨t, ht, hbefore, (hages.closeSent hbefore).2⟩
    · exact absurd ⟨.of_none haccepts.session?_eq_none, u, hu, hsent⟩ hp

theorem latest_of_closing (hs : (start.after ds).session? h = some t) (hsent : t.closeSent = false)
    (hclosing : t.closing = true) :
    Latest (fun e d => d.Sets Session.closing h e ∨ d.Acknowledges h e) start ds t.lastActivity := by
  refine latest_activity r hstart (Q := fun t => t.closeSent = false ∧ t.closing = true) (fun e d u r hu hq hp => ?_)
    (fun e d u r hu hq hp => ?_) hs ⟨hsent, hclosing⟩
  · rcases hp with hsets | hacks
    · rcases Deed.ages r hu with ⟨t, ht, hages⟩ | ⟨-, conn, hages⟩
      · exact hages.beginsClosing hq.1 (hsets.1 t ht) hq.2
      · exact hages.beginsClosing hq.1 rfl hq.2
    · exact hacks.lastActivity r hu hq.1
  · rw [not_or] at hp
    rcases Deed.ages r hu with ⟨t, ht, hages⟩ | ⟨haccepts, -⟩
    · cases hbefore : t.closing with
      | false => exact absurd ⟨.of_get? ht hbefore, u, hu, hq.2⟩ hp.1
      | true =>
          refine ⟨t, ht, ⟨hages.closeSent_eq_false hq.1, hbefore⟩, ?_⟩
          refine (hages.goesOn hq.1 (hq.2.trans hbefore.symm)).resolve_right fun h => ?_
          exact h.1.elim hp.2 fun h => nomatch hbefore.symm.trans h.2
    · exact absurd ⟨.of_none haccepts.session?_eq_none, u, hu, hq.2⟩ hp.1

end

/-! ## Runs -/

/-- A session whose closing frame is queued keeps its time. -/
theorem lastActivity_of_closeSent (r : e.registry.Regular) (hs : e.session? h = some t) (hsent : t.closeSent = true)
    {ds : List (Deed τ κ σ)} (hi : issues h (e.after ds).journal = issues h e.journal)
    (hu : (e.after ds).session? h = some u) : u.closeSent = true ∧ u.lastActivity = t.lastActivity := by
  induction ds using List.reverseRecOn generalizing u with
  | nil =>
      cases Option.some.inj (hs.symm.trans hu)
      exact ⟨hsent, rfl⟩
  | append_singleton ds d ih =>
      have r' := Engine.after_regular r ds
      have hle := issues_le r h ds
      have hle' := issues_le r' h [d]
      rw [Engine.after_concat] at hu hi
      rw [Engine.after_cons, Engine.after_nil] at hle'
      rcases Deed.ages r' hu with ⟨v, hv, hages⟩ | ⟨haccepts, -⟩
      · obtain ⟨hsent', htime⟩ := ih (by omega) hv
        exact (hages.closeSent hsent').imp_right (·.trans htime)
      · have hlt := haccepts.issues_lt
        omega

/-- A poll that reaches the session `h`. -/
def Deed.Polls (h : Handle) (e : Engine τ κ σ) : Deed τ κ σ → Prop
  | .call .poll => True
  | .call (.pollConn conn) => e.registry.handleOf? conn = some h
  | _ => False

omit [Transport τ κ] in
theorem Deed.Polls.not_accepts (hd : d.Polls h e) (g : Handle) : ¬d.Accepts g e := by
  cases d with
  | call c =>
      cases c with
      | poll | pollConn => exact id
      | _ => exact hd.elim
  | received | took | handed | concluded => exact hd.elim

theorem Deed.Polls.polled (r : e.registry.Regular) (hd : d.Polls h e) (hs : e.session? h = some t) :
    Engine.Polled e h t (d.act e) := by
  cases d with
  | call c =>
      cases c with
      | poll => exact Engine.poll_polled r hs
      | pollConn conn =>
          have hact : (Deed.call (.pollConn conn)).act e = e.pollSession h := by
            change e.pollConn conn = e.pollSession h
            rw [Engine.pollConn, show e.registry.handleOf? conn = some h from hd]
          rw [hact]
          exact Engine.pollSession_polled r hs
      | _ => exact hd.elim
  | received | took | handed | concluded => exact hd.elim

/-- A poll that comes too late after the closing frame of a session was queued finds it gone, or ends it. -/
theorem Deed.Sets.gone_of_late (hd : d.Sets Session.closeSent h e) (r : e.registry.Regular) {mid : List (Deed τ κ σ)}
    {poll : Deed τ κ σ} {limit : Nat} (hi : issues h (e.after (d :: mid)).journal = issues h e.journal)
    (hpoll : poll.Polls h (e.after (d :: mid))) (hlimit : e.config.closeWaitLimit = some limit)
    (hlate : e.now + limit < (e.after (d :: mid)).now) : (poll.act (e.after (d :: mid))).session? h = none := by
  have r₁ : (d.act e).registry.Regular := (d.acts e).regular r
  have r₂ := Engine.after_regular r (d :: mid)
  have hle := issues_le r h [d]
  have hle' := issues_le r₁ h mid
  rw [Engine.after_cons, Engine.after_nil] at hle
  obtain ⟨u, hu, hsent⟩ := hd.2
  cases hgone : (poll.act (e.after (d :: mid))).session? h with
  | none => rfl
  | some w =>
      rcases Deed.ages r₂ hgone with ⟨v, hv, -⟩ | ⟨haccepts, -⟩
      · -- The session is the one whose frame was queued, and its time is that of the queueing.
        have hi' : issues h ((d.act e).after mid).journal = issues h (d.act e).journal := by
          rw [Engine.after_cons] at hi
          omega
        obtain ⟨hsent', htime⟩ := lastActivity_of_closeSent r₁ hu hsent hi' hv
        have htime' := htime.trans (hd.lastActivity r hu hsent)
        have hoverdue : v.Overdue (e.after (d :: mid)).config (e.after (d :: mid)).now := by
          rw [Engine.after_config r]
          exact .inr ⟨by simp [Session.isEnding, hsent'], limit, hlimit, by omega⟩
        exact absurd (((hpoll.polled r₂ hv).gone.mpr hoverdue).symm.trans hgone) (Option.some_ne_none w).symm
      · exact absurd haccepts (hpoll.not_accepts h)

/-- Along the deeds `ds` from `start`, sessions are as old as they should be, and polls act upon their age. -/
structure KeepsTime (start : Engine τ κ σ) (ds : List (Deed τ κ σ)) : Prop where
  /-- An open session was last active when it was accepted, bytes arrived on it or output of it was acknowledged. -/
  active : ∀ past, past <+: ds → ∀ h t, (start.after past).session? h = some t → t.isEnding = false →
    Latest (fun e d => d.Touches h e) start past t.lastActivity
  /-- Once the closing frame of a session is queued, its time is that of the queueing. -/
  closeSent : ∀ past, past <+: ds → ∀ h t, (start.after past).session? h = some t → t.closeSent = true →
    Latest (Deed.Sets Session.closeSent h) start past t.lastActivity
  stays : ∀ past mid, past ++ mid <+: ds → ∀ h t u, (start.after past).session? h = some t → t.closeSent = true →
    (start.after (past ++ mid)).session? h = some u →
    issues h (start.after (past ++ mid)).journal = issues h (start.after past).journal →
      u.closeSent = true ∧ u.lastActivity = t.lastActivity
  /-- The time of a session that is closing without such a frame is that of the beginning, or that of the latest
  acknowledgement since. -/
  closing : ∀ past, past <+: ds → ∀ h t, (start.after past).session? h = some t → t.closeSent = false →
    t.closing = true →
      Latest (fun e d => d.Sets Session.closing h e ∨ d.Acknowledges h e) start past t.lastActivity
  http : ∀ past, past <+: ds → ∀ h t, (start.after past).session? h = some t → t.mode = .http → t.closeSent = false
  polls : ∀ past d, past ++ [d] <+: ds → ∀ h t, (start.after past).session? h = some t →
    d.Polls h (start.after past) → Engine.Polled (start.after past) h t (start.after (past ++ [d]))
  /-- No session outlives a poll that comes too late after its closing frame was queued. -/
  bounded : ∀ past d mid poll, past ++ d :: mid ++ [poll] <+: ds → ∀ h, d.Sets Session.closeSent h (start.after past) →
    issues h (start.after (past ++ d :: mid)).journal = issues h (start.after past).journal →
    poll.Polls h (start.after (past ++ d :: mid)) → ∀ limit, start.config.closeWaitLimit = some limit →
    (start.after past).now + limit < (start.after (past ++ d :: mid)).now →
      (start.after (past ++ d :: mid ++ [poll])).session? h = none

theorem keepsTime_of_empty {start : Engine τ κ σ} (r : start.registry.Regular) (hstart : ∀ h, start.session? h = none)
    (ds : List (Deed τ κ σ)) : KeepsTime start ds where
  active _ _ h _ hs ho := latest_of_open r (hstart h) hs ho
  closeSent _ _ h _ hs hsent := latest_of_closeSent r (hstart h) hs hsent
  stays past mid _ h t u hs hsent hu hi := by
    rw [Engine.after_append] at hu hi
    exact lastActivity_of_closeSent (Engine.after_regular r past) hs hsent hi hu
  closing _ _ h _ hs hsent hclosing := latest_of_closing r (hstart h) hs hsent hclosing
  http past _ h t hs hm := by
    cases hsent : t.closeSent with
    | false => rfl
    | true => exact nomatch hm.symm.trans (((Engine.after_regular r past).at hs).webSocket hsent)
  polls past d _ h t hs hd := by
    rw [Engine.after_concat]
    exact hd.polled (Engine.after_regular r past) hs
  bounded past d mid poll _ h hd hi hpoll limit hlimit hlate := by
    rw [Engine.after_concat]
    rw [Engine.after_append] at hi hpoll hlate ⊢
    exact hd.gone_of_late (Engine.after_regular r past) hi hpoll ((Engine.after_config r past).symm ▸ hlimit) hlate

/-- Whatever happens to a server, whatever its handlers do and however the clock goes, sessions are as old as they
should be, and polls act upon their age. -/
theorem Server.keepsTime_of_course {config : Config} {transport : τ} {app : σ} {s : Server τ κ σ}
    {ds : List (Deed τ κ σ)} (hc : Course (fun _ _ => True) (new config transport app) ds s) :
    s.engine = (new config transport app).engine.after ds ∧ KeepsTime (new config transport app).engine ds :=
  ⟨hc.engine, keepsTime_of_empty (Registry.regular_new _) (fun _ => rfl) ds⟩

/-- A WebSocket session that is closed after one second. Neither a ping nor an acknowledgement prolongs its time, which
runs out two minutes later. -/
theorem Server.keepsTime_of_busy_peer :
    let upgrade := Text.utf8 ("GET / HTTP/1.1\r\nHost: a\r\nOrigin: a\r\nUpgrade: websocket\r\n" ++
      "Connection: Upgrade\r\nSec-WebSocket-Version: 13\r\nSec-WebSocket-Key: x\r\n\r\n")
    let operations : List (Operation (Transport.InMemory Nat) Nat Unit) :=
      [.call (.accept 7), .receive 7 upgrade, .call (.advance 1000), .call (.close .first), .call (.advance 120000),
        .receive 7 [0x89, 0], .call (.sent 7 1), .call .poll]
    let late : List (Operation (Transport.InMemory Nat) Nat Unit) :=
      [.call (.advance 1), .receive 7 [0x89, 0], .call .poll]
    let start : Server (Transport.InMemory Nat) Nat Unit := new {} {} ()
    let s := operations.foldl apply start
    (s.engine = start.engine.after (deedsOf operations start) ∧ KeepsTime start.engine (deedsOf operations start)) ∧
      s.engine.registry.sessions.map Session.lastActivity = [1000] ∧
      (late.foldl apply s).engine.registry.sessions.map Session.lastActivity = [] := by
  refine ⟨keepsTime_of_course (course_deedsOf ?_), ?_⟩
  · exact fun _ _ _ => trivial
  · decide +kernel

end

end WebServer
