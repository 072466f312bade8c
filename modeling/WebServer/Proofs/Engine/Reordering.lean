import WebServer.Proofs.Engine.InStep

/-! # Other orders

What is done for one session does not show to the others, so that it may as well be done before or after what is done for
them. Only the journal as a whole tells the order, and neither the entries of a session nor the requests about a
connection do. -/

namespace WebServer

open Transport (Separate Request)

variable {τ κ σ : Type} [DecidableEq κ] [Transport τ κ] [Separate τ κ]

namespace Engine

/-- An operation that deals with one session and its connection alone, and depends on nothing else. -/
def Deals (h : Handle) (conn : κ) (f : Engine τ κ σ → Engine τ κ σ) : Prop :=
  ∀ b b' e e', InStep h conn b b' e e' → InStep h conn b b' (f e) (f e')

/-- Two engines that did the same for every session and over every connection, perhaps in another order. -/
structure Reordered (e e' : Engine τ κ σ) : Prop where
  config : e.config = e'.config
  clock : e.clock = e'.clock
  heard : e.watcher.isSome = e'.watcher.isSome
  registry : e.registry = e'.registry
  link : ∀ conn, Separate.link e.transport conn = Separate.link e'.transport conn
  entries : ∀ h, e.journal.filter (fun entry => entry.handle = h) = e'.journal.filter fun entry => entry.handle = h
  requests : ∀ conn, (e.journal.filterMap Entry.request?).filter (fun request => request.conn = conn) =
    (e'.journal.filterMap Entry.request?).filter fun request => request.conn = conn

variable {h g : Handle} {conn other : κ} {e e' : Engine τ κ σ}

namespace Reordered

theorem refl (e : Engine τ κ σ) : Reordered e e :=
  ⟨rfl, rfl, rfl, rfl, fun _ => rfl, fun _ => rfl, fun _ => rfl⟩

theorem symm (r : Reordered e e') : Reordered e' e :=
  ⟨r.config.symm, r.clock.symm, r.heard.symm, r.registry.symm, fun conn => (r.link conn).symm,
    fun h => (r.entries h).symm, fun conn => (r.requests conn).symm⟩

theorem trans {e'' : Engine τ κ σ} (r : Reordered e e') (r' : Reordered e' e'') : Reordered e e'' :=
  ⟨r.config.trans r'.config, r.clock.trans r'.clock, r.heard.trans r'.heard, r.registry.trans r'.registry,
    fun conn => (r.link conn).trans (r'.link conn), fun h => (r.entries h).trans (r'.entries h),
    fun conn => (r.requests conn).trans (r'.requests conn)⟩

end Reordered

/-- A live session and its connection. -/
structure Holds (e : Engine τ κ σ) (h : Handle) (conn : κ) : Prop where
  wellFormed : e.registry.WellFormed
  session : ∃ t, e.session? h = some t ∧ t.conn = conn

omit [Transport τ κ] [Separate τ κ] in
theorem Holds.keeps (o : e.Holds h conn) : Keeps h conn e e := by
  obtain ⟨t, hs, hc⟩ := o.session
  exact .refl o.wellFormed hs hc

/-- Two engines that show the same to a session are in step on it. -/
theorem Holds.inStep (o : e.Holds h conn) (o' : e'.Holds h conn) (a : e.Alike h e')
    (hl : Separate.link e.transport conn = Separate.link e'.transport conn) : InStep h conn e e' e e' :=
  ⟨a, .refl hl h, o.keeps, o'.keeps⟩

omit [Transport τ κ] [Separate τ κ] in
/-- Dealings with another session leave this one as it is. -/
theorem Keeps.holds (k : Keeps h conn e e') (o : e.Holds h conn) (hne : g ≠ h) (o' : e.Holds g other) :
    e'.Holds g other := by
  obtain ⟨t, hs, rfl⟩ := o.session
  refine ⟨?_, ?_⟩
  · rw [k.registry]
    exact o.wellFormed.replace hs (fun u hu => Registry.handle_of_get? hu) fun u hu => k.conn u hu
  · rw [k.session?_of_ne hne]
    exact o'.session

omit [Transport τ κ] [Separate τ κ] in
/-- Nor does it show to another session. -/
theorem Keeps.alike (k : Keeps h conn e e') (hne : g ≠ h) : e.Alike g e' :=
  ⟨k.config.symm, k.clock.symm, congrArg Option.isSome k.watcher.symm, (k.session?_of_ne hne).symm⟩

omit [DecidableEq κ] [Transport τ κ] [Separate τ κ] in
theorem Holds.congr (o : e.Holds h conn) (hr : e.registry = e'.registry) : e'.Holds h conn :=
  have hs : e.session? h = e'.session? h := congrArg (Registry.get? · h) hr
  ⟨hr ▸ o.wellFormed, hs ▸ o.session⟩

omit [DecidableEq κ] [Transport τ κ] [Separate τ κ] in
/-- Different sessions have different connections. -/
theorem Holds.conn_ne (o : e.Holds h conn) (o' : e.Holds g other) (hne : g ≠ h) : conn ≠ other := by
  obtain ⟨t, hs, rfl⟩ := o.session
  obtain ⟨u, hs', rfl⟩ := o'.session
  intro hc
  have hu := o.wellFormed.eq_of_conn (Registry.mem_of_get? hs) (Registry.mem_of_get? hs') hc
  exact hne (Registry.handle_of_get? hs' ▸ hu ▸ Registry.handle_of_get? hs)

omit [DecidableEq κ] [Transport τ κ] [Separate τ κ] in
/-- Different connections have different sessions. -/
theorem Holds.handle_ne (o : e.Holds h conn) (o' : e.Holds g other) (hne : other ≠ conn) : g ≠ h := by
  obtain ⟨t, hs, rfl⟩ := o.session
  obtain ⟨u, hs', rfl⟩ := o'.session
  rintro rfl
  exact hne (congrArg Session.conn (Option.some.inj (hs'.symm.trans hs)))

/-! ## Entries of several sessions -/

/-- Entries about different sessions may be exchanged for everyone who looks at one of them. -/
theorem filter_append_comm {α : Type} {p : α → Bool} {xs ys : List α} (hp : (∀ x ∈ xs, ¬p x) ∨ ∀ y ∈ ys, ¬p y)
    (zs : List α) : (ys ++ (xs ++ zs)).filter p = (xs ++ (ys ++ zs)).filter p := by
  simp only [List.filter_append]
  rcases hp with hp | hp
  · rw [List.filter_eq_nil_iff.mpr hp, List.nil_append, List.nil_append]
  · rw [List.filter_eq_nil_iff.mpr hp, List.nil_append, List.nil_append]

omit [DecidableEq κ] [Transport τ κ] [Separate τ κ] in
theorem conn_of_mem_requests {gained : List (Entry κ)} (hg : ∀ entry ∈ gained, entry.About h conn) :
    ∀ request ∈ gained.filterMap Entry.request?, request.conn = conn := by
  intro request hm
  obtain ⟨entry, hentry, hr⟩ := List.mem_filterMap.mp hm
  exact (hg entry hentry).conn request hr

/-! ## Exchanging two operations -/

variable {f k : Engine τ κ σ → Engine τ κ σ}

theorem Deals.inStep (d : Deals h conn f) (o : e.Holds h conn) : InStep h conn e e (f e) (f e) :=
  d _ _ _ _ (o.inStep o ⟨rfl, rfl, rfl, rfl⟩ rfl)

/-- Engines that differ in the order of things past go on in the same way. -/
theorem Deals.reordered (d : Deals h conn f) (r : Reordered e e') (o : e.Holds h conn) : Reordered (f e) (f e') := by
  have halike : e.Alike h e' := ⟨r.config, r.clock, r.heard, congrArg (Registry.get? · h) r.registry⟩
  have s := d _ _ _ _ (o.inStep (o.congr r.registry) halike (r.link conn))
  obtain ⟨gained, hj, hj', -⟩ := s.gained
  refine ⟨s.alike.config, s.alike.clock, s.alike.heard, ?_, fun c => ?_, fun h => ?_, fun c => ?_⟩
  · rw [s.keeps.registry, s.keeps'.registry, s.session, r.registry]
  · by_cases hc : c = conn
    · exact hc ▸ s.wire.link
    · exact (s.wire.others c hc).trans ((r.link c).trans (s.wire.others' c hc).symm)
  · rw [hj, hj', List.filter_append, List.filter_append, r.entries h]
  · rw [hj, hj', List.filterMap_append, List.filterMap_append, List.filter_append, List.filter_append, r.requests c]

/-- Two operations that deal with different sessions may be done in either order. -/
theorem Deals.comm (d : Deals h conn f) (d' : Deals g other k) (o : e.Holds h conn) (o' : e.Holds g other)
    (hne : g ≠ h) : Reordered (k (f e)) (f (k e)) := by
  have hc : other ≠ conn := (o.conn_ne o' hne).symm
  have s := d.inStep o
  have s' := d'.inStep o'
  -- Neither operation shows to the other one, which therefore does the same after it as without it.
  have t := d' _ _ _ _ (o'.inStep (s.keeps.holds o hne o') (s.keeps.alike hne) (s.wire.others other hc).symm)
  have t' := d _ _ _ _
    (o.inStep (s'.keeps.holds o' hne.symm o) (s'.keeps.alike hne.symm) (s'.wire.others conn hc.symm).symm)
  obtain ⟨xs, hx, hx', hxs⟩ := t'.gained
  obtain ⟨ys, hy, hy', hys⟩ := t.gained
  refine ⟨?_, ?_, ?_, ?_, fun c => ?_, fun i => ?_, fun c => ?_⟩
  · exact t.alike.config.symm.trans (s'.keeps.config.trans (s.keeps.config.symm.trans t'.alike.config))
  · exact t.alike.clock.symm.trans (s'.keeps.clock.trans (s.keeps.clock.symm.trans t'.alike.clock))
  · rw [t.keeps'.watcher, t'.keeps'.watcher, s.keeps.watcher, s'.keeps.watcher]
  · rw [t.keeps'.registry, t'.keeps'.registry, t.session, t'.session, s.keeps.registry, s'.keeps.registry]
    exact Registry.replace_comm (fun u hu => Registry.handle_of_get? hu) (fun u hu => Registry.handle_of_get? hu) hne
  · by_cases hother : c = other
    · subst hother
      exact t.wire.link.symm.trans (t'.wire.others' c hc).symm
    · refine (t.wire.others' c hother).trans ?_
      by_cases hconn : c = conn
      · exact hconn ▸ t'.wire.link
      · exact (s.wire.others c hconn).trans ((s'.wire.others c hother).symm.trans (t'.wire.others' c hconn).symm)
  · rw [hy', hx, hx', hy]
    refine filter_append_comm ?_ _
    by_cases hi : i = h
    · exact .inr fun entry hm => by simp [(hys entry hm).handle, hi, hne]
    · exact .inl fun entry hm => by simp [(hxs entry hm).handle, Ne.symm hi]
  · rw [hy', hx, hx', hy]
    simp only [List.filterMap_append]
    refine filter_append_comm ?_ _
    by_cases hi : c = conn
    · exact .inr fun request hm => by simp [conn_of_mem_requests hys request hm, hi, hc]
    · exact .inl fun request hm => by simp [conn_of_mem_requests hxs request hm, Ne.symm hi]

/-! ## One session after the other -/

section

variable {step : Engine τ κ σ → Handle → Engine τ κ σ} (hstep : ∀ h conn, Deals h conn fun e => step e h)
include hstep

theorem forall_holds_step {hs : List Handle} (hn : (h :: hs).Nodup) (hlive : ∀ i ∈ h :: hs, ∃ conn, e.Holds i conn) :
    ∀ i ∈ hs, ∃ conn, (step e h).Holds i conn := by
  intro i hi
  obtain ⟨conn, o⟩ := hlive h List.mem_cons_self
  obtain ⟨other, o'⟩ := hlive i (List.mem_cons_of_mem h hi)
  have hne : i ≠ h := fun he => (List.nodup_cons.mp hn).1 (he ▸ hi)
  exact ⟨other, ((hstep h conn).inStep o).keeps.holds o hne o'⟩

theorem foldl_reordered {hs : List Handle} (hn : hs.Nodup) (hlive : ∀ i ∈ hs, ∃ conn, e.Holds i conn)
    (r : Reordered e e') : Reordered (hs.foldl step e) (hs.foldl step e') := by
  induction hs generalizing e e' with
  | nil => exact r
  | cons h hs ih =>
      obtain ⟨conn, o⟩ := hlive h List.mem_cons_self
      exact ih (List.nodup_cons.mp hn).2 (forall_holds_step hstep hn hlive) ((hstep h conn).reordered r o)

/-- Sessions may be dealt with in any order. -/
theorem foldl_perm {hs hs' : List Handle} (hp : hs.Perm hs') (hn : hs.Nodup)
    (hlive : ∀ i ∈ hs, ∃ conn, e.Holds i conn) : Reordered (hs.foldl step e) (hs'.foldl step e) := by
  induction hp generalizing e with
  | nil => exact .refl e
  | cons h hp ih => exact ih (List.nodup_cons.mp hn).2 (forall_holds_step hstep hn hlive)
  | swap h g hs =>
      obtain ⟨other, o'⟩ := hlive g List.mem_cons_self
      obtain ⟨conn, o⟩ := hlive h (List.mem_cons_of_mem g List.mem_cons_self)
      have hne : g ≠ h := fun he => (List.nodup_cons.mp hn).1 (he ▸ List.mem_cons_self)
      have hrest := forall_holds_step hstep (List.nodup_cons.mp hn).2 (forall_holds_step hstep hn hlive)
      exact foldl_reordered hstep (List.nodup_cons.mp (List.nodup_cons.mp hn).2).2 hrest
        ((hstep g other).comm (hstep h conn) o' o hne.symm)
  | trans hp hp' ih ih' =>
      exact (ih hn hlive).trans (ih' (hp.nodup_iff.mp hn) fun i hi => hlive i (hp.mem_iff.mpr hi))

end

/-- A poll may visit the sessions in any order. -/
theorem poll_reordered (w : e.registry.WellFormed) {hs : List Handle} (hp : hs.Perm e.registry.liveHandles) :
    Reordered (hs.foldl pollSession e) e.poll := by
  refine (foldl_perm (fun h conn _ _ _ _ s => pollSession_inStep s) hp.symm w.handles_nodup fun i hi => ?_).symm
  obtain ⟨t, ht, rfl⟩ := List.mem_map.mp hi
  exact ⟨t.conn, w, t, w.get?_eq_some.mpr ⟨ht, rfl⟩, rfl⟩

end Engine
end WebServer
