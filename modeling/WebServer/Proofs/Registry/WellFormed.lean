import Mathlib.Data.List.Nodup
import WebServer.Registry

/-! # Well-formed registries

A registry keeps the sessions and the handles of their connections apart. Every operation keeps the two in step,
so that a handle and a connection name the same session. -/

namespace WebServer.Registry

variable {κ : Type} {r : Registry κ}

/-- Every handle and every connection names one session, and the two tables agree. -/
structure WellFormed (r : Registry κ) : Prop where
  handles_nodup : (r.sessions.map Session.handle).Nodup
  conns_nodup : (r.handles.map Prod.fst).Nodup
  mem_handles : ∀ conn h, (conn, h) ∈ r.handles ↔ ∃ t ∈ r.sessions, t.conn = conn ∧ t.handle = h

theorem wellFormed_new (limit : Nat) : (new limit : Registry κ).WellFormed :=
  ⟨by simp [new], by simp [new], by simp [new]⟩

/-! ## Looking up -/

theorem mem_of_get? {h : Handle} {t : Session κ} (hg : r.get? h = some t) : t ∈ r.sessions :=
  List.mem_of_find?_eq_some hg

theorem handle_of_get? {h : Handle} {t : Session κ} (hg : r.get? h = some t) : t.handle = h := by
  simpa using List.find?_some hg

theorem get?_eq_none {h : Handle} : r.get? h = none ↔ ∀ t ∈ r.sessions, t.handle ≠ h := by
  simp [get?]

namespace WellFormed

theorem eq_of_handle (w : r.WellFormed) {t u : Session κ} (ht : t ∈ r.sessions) (hu : u ∈ r.sessions)
    (h : t.handle = u.handle) : t = u :=
  List.inj_on_of_nodup_map w.handles_nodup ht hu h

theorem eq_of_conn (w : r.WellFormed) {t u : Session κ} (ht : t ∈ r.sessions) (hu : u ∈ r.sessions)
    (h : t.conn = u.conn) : t = u := by
  have hm := (w.mem_handles t.conn t.handle).mpr ⟨t, ht, rfl, rfl⟩
  have hn := (w.mem_handles t.conn u.handle).mpr ⟨u, hu, h.symm, rfl⟩
  have he := List.inj_on_of_nodup_map w.conns_nodup hm hn rfl
  exact w.eq_of_handle ht hu (Prod.mk.inj he).2

theorem get?_eq_some (w : r.WellFormed) {h : Handle} {t : Session κ} :
    r.get? h = some t ↔ t ∈ r.sessions ∧ t.handle = h := by
  constructor
  · exact fun hg => ⟨mem_of_get? hg, handle_of_get? hg⟩
  · rintro ⟨ht, rfl⟩
    cases hg : r.get? t.handle with
    | none => exact absurd rfl (get?_eq_none.mp hg t ht)
    | some u => rw [w.eq_of_handle (mem_of_get? hg) ht (handle_of_get? hg)]

end WellFormed

/-! ## Changing -/

theorem mem_update {h : Handle} {f : Session κ → Session κ} {t : Session κ} :
    t ∈ (r.update h f).sessions ↔ ∃ u ∈ r.sessions, t = if u.handle = h then f u else u := by
  simp [update, eq_comm]

theorem get?_update {h : Handle} {f : Session κ → Session κ} (hf : ∀ t, (f t).handle = t.handle)
    (h' : Handle) :
    (r.update h f).get? h' = (r.get? h').map fun t => if t.handle = h then f t else t := by
  rw [get?, get?, update, List.find?_map]
  have hp : (fun s : Session κ => decide (s.handle = h')) ∘ (fun s => if s.handle = h then f s else s) =
      fun s => decide (s.handle = h') := by
    funext t
    by_cases ht : t.handle = h <;> simp [ht, hf]
  rw [hp]

theorem get?_update_self {h : Handle} {f : Session κ → Session κ} (hf : ∀ t, (f t).handle = t.handle) :
    (r.update h f).get? h = (r.get? h).map f := by
  rw [get?_update hf]
  cases hg : r.get? h with
  | none => rfl
  | some t => simp [handle_of_get? hg]

/-- What holds of the session with a handle, if there is one. -/
def At (r : Registry κ) (h : Handle) (P : Session κ → Prop) : Prop :=
  ∀ t, r.get? h = some t → P t

namespace At

variable {h : Handle} {P Q : Session κ → Prop}

theorem of_none (hg : r.get? h = none) : r.At h P := by
  simp [At, hg]

theorem of_get? {t : Session κ} (hg : r.get? h = some t) (hp : P t) : r.At h P := by
  intro u hu
  rwa [Option.some.inj (hu.symm.trans hg)]

theorem of_mem (a : r.At h P) (w : r.WellFormed) {t : Session κ} (ht : t ∈ r.sessions) (hh : t.handle = h) : P t :=
  a t (w.get?_eq_some.mpr ⟨ht, hh⟩)

theorem imp (a : r.At h P) (hPQ : ∀ t, P t → Q t) : r.At h Q :=
  fun t ht => hPQ t (a t ht)

theorem update (a : r.At h P) {f : Session κ → Session κ} (hh : ∀ t, (f t).handle = t.handle)
    (hf : ∀ t, P t → Q (f t)) : (r.update h f).At h Q := by
  intro t ht
  rw [get?_update_self hh, Option.map_eq_some_iff] at ht
  obtain ⟨u, hu, rfl⟩ := ht
  exact hf u (a u hu)

theorem of_update {t : Session κ} (hg : r.get? h = some t) {f : Session κ → Session κ}
    (hh : ∀ t, (f t).handle = t.handle) (hp : P (f t)) : (r.update h f).At h P := by
  refine .of_get? (t := f t) ?_ hp
  rw [get?_update_self hh, hg, Option.map_some]

end At

theorem WellFormed.update (w : r.WellFormed) {h : Handle} {f : Session κ → Session κ}
    (hf : ∀ t, (f t).handle = t.handle) (hc : ∀ t, (f t).conn = t.conn) :
    (r.update h f).WellFormed := by
  have key (t : Session κ) : (if t.handle = h then f t else t).handle = t.handle := by
    split
    · exact hf t
    · rfl
  have conn (t : Session κ) : (if t.handle = h then f t else t).conn = t.conn := by
    split
    · exact hc t
    · rfl
  refine ⟨?_, w.conns_nodup, ?_⟩
  · rw [Registry.update, List.map_map, show Session.handle ∘ (fun s => if s.handle = h then f s else s) =
      Session.handle from funext key]
    exact w.handles_nodup
  · intro c h'
    rw [show (r.update h f).handles = r.handles from rfl, w.mem_handles]
    constructor
    · rintro ⟨t, ht, rfl, rfl⟩
      exact ⟨_, mem_update.mpr ⟨t, ht, rfl⟩, conn t, key t⟩
    · rintro ⟨u, hu, rfl, rfl⟩
      obtain ⟨t, ht, rfl⟩ := mem_update.mp hu
      exact ⟨t, ht, (conn t).symm, (key t).symm⟩

theorem place_perm (s : Session κ) (ts : List (Session κ)) : (place s ts).Perm (s :: ts) := by
  induction ts with
  | nil => exact .refl _
  | cons t ts ih =>
      rw [place]
      split
      · exact .refl _
      · exact (ih.cons t).trans (.swap s t ts)

theorem get?_eq_none_of_issue? {tries : Nat} {last h : Handle} (hi : r.issue? tries last = some h) :
    r.get? h = none := by
  induction tries generalizing last with
  | zero => simp [issue?] at hi
  | succ tries ih =>
      rw [issue?] at hi
      split at hi
      · exact ih hi
      · rename_i hfree
        simp only [Option.some.injEq] at hi
        subst hi
        simpa [contains] using hfree

/-! ## Connections -/

variable [DecidableEq κ]

namespace WellFormed

theorem handleOf?_eq_some (w : r.WellFormed) {conn : κ} {h : Handle} :
    r.handleOf? conn = some h ↔ ∃ t ∈ r.sessions, t.conn = conn ∧ t.handle = h := by
  rw [← w.mem_handles]
  change (r.handles.find? fun p => decide (p.1 = conn)).map Prod.snd = some h ↔ _
  rw [Option.map_eq_some_iff]
  constructor
  · rintro ⟨⟨c, h'⟩, hf, rfl⟩
    have hc : c = conn := by simpa using List.find?_some hf
    exact hc ▸ List.mem_of_find?_eq_some hf
  · intro hm
    cases hf : r.handles.find? fun p => decide (p.1 = conn) with
    | none =>
        have hne := List.find?_eq_none.mp hf (conn, h) hm
        simp at hne
    | some p =>
        have hp : p.1 = conn := by simpa using List.find?_some hf
        have he := List.inj_on_of_nodup_map w.conns_nodup (List.mem_of_find?_eq_some hf) hm hp
        exact ⟨p, rfl, by rw [he]⟩

theorem ofConn?_eq_some (w : r.WellFormed) {conn : κ} {t : Session κ} :
    r.ofConn? conn = some t ↔ t ∈ r.sessions ∧ t.conn = conn := by
  rw [ofConn?, Option.bind_eq_some_iff]
  constructor
  · rintro ⟨h, hh, hg⟩
    obtain ⟨u, hu, hc, rfl⟩ := w.handleOf?_eq_some.mp hh
    obtain ⟨ht, he⟩ := w.get?_eq_some.mp hg
    exact ⟨ht, by rw [w.eq_of_handle ht hu he, hc]⟩
  · rintro ⟨ht, hc⟩
    exact ⟨t.handle, w.handleOf?_eq_some.mpr ⟨t, ht, hc, rfl⟩, w.get?_eq_some.mpr ⟨ht, rfl⟩⟩

theorem handleOf?_eq_none (w : r.WellFormed) {conn : κ} : r.handleOf? conn = none ↔ r.ofConn? conn = none := by
  constructor
  · intro hh
    rw [ofConn?, hh]
    rfl
  · intro hc
    cases hh : r.handleOf? conn with
    | none => rfl
    | some h =>
        obtain ⟨t, ht, hconn, -⟩ := w.handleOf?_eq_some.mp hh
        exact nomatch hc.symm.trans (w.ofConn?_eq_some.mpr ⟨ht, hconn⟩)

theorem get?_of_ofConn? (w : r.WellFormed) {conn : κ} {t : Session κ} (hc : r.ofConn? conn = some t) :
    r.get? t.handle = some t :=
  w.get?_eq_some.mpr ⟨(w.ofConn?_eq_some.mp hc).1, rfl⟩

end WellFormed

/-! ## Creating and removing -/

/-- What a registry becomes when it makes a connection a session. -/
structure Registered (r : Registry κ) (conn : κ) (now : Nat) (h : Handle) (r' : Registry κ) : Prop where
  conn_free : r.handleOf? conn = none
  room : r.size < r.limit
  handle_free : r.get? h = none
  eq : r' = { r with
    lastIssued := h
    sessions := place (.accepted h conn now) r.sessions
    handles := r.handles ++ [(conn, h)] }

theorem registered_of_create {conn : κ} {now : Nat} {h : Handle} {r' : Registry κ}
    (hc : r.create conn now = (.ok h, r')) : Registered r conn now h r' := by
  rw [create] at hc
  split at hc
  · simp at hc
  · rename_i hfree
    split at hc
    · simp at hc
    · rename_i hroom
      split at hc
      · simp at hc
      · rename_i h' hissue
        simp only [Prod.mk.injEq, Except.ok.injEq] at hc
        obtain ⟨rfl, rfl⟩ := hc
        exact ⟨by simpa using hfree, Nat.lt_of_not_le hroom, get?_eq_none_of_issue? hissue, rfl⟩

theorem eq_of_create_error {conn : κ} {now : Nat} {e : RegistryError κ} {r' : Registry κ}
    (hc : r.create conn now = (.error e, r')) : r' = r := by
  rw [create] at hc
  split at hc
  · exact (Prod.mk.inj hc).2.symm
  · split at hc
    · exact (Prod.mk.inj hc).2.symm
    · split at hc
      · exact (Prod.mk.inj hc).2.symm
      · simp at hc

theorem Registered.mem_sessions {conn : κ} {now : Nat} {h : Handle} {r' : Registry κ}
    (hr : Registered r conn now h r') {t : Session κ} :
    t ∈ r'.sessions ↔ t = .accepted h conn now ∨ t ∈ r.sessions := by
  rw [hr.eq]
  exact (place_perm _ _).mem_iff.trans List.mem_cons

theorem Registered.wellFormed {conn : κ} {now : Nat} {h : Handle} {r' : Registry κ} (w : r.WellFormed)
    (hr : Registered r conn now h r') : r'.WellFormed := by
  have hfree := get?_eq_none.mp hr.handle_free
  have hconn : ∀ p ∈ r.handles, p.1 ≠ conn := by
    have := hr.conn_free
    simpa [handleOf?] using this
  refine ⟨?_, ?_, ?_⟩
  · have hperm : (r'.sessions.map Session.handle).Perm (h :: r.sessions.map Session.handle) := by
      rw [hr.eq]
      exact (place_perm _ _).map Session.handle
    rw [hperm.nodup_iff, List.nodup_cons]
    refine ⟨?_, w.handles_nodup⟩
    rw [List.mem_map]
    rintro ⟨t, ht, he⟩
    exact hfree t ht he
  · rw [hr.eq, List.map_append, List.nodup_append]
    refine ⟨w.conns_nodup, by simp, ?_⟩
    intro c hc d hd
    obtain ⟨p, hp, rfl⟩ := List.mem_map.mp hc
    simp only [List.map_cons, List.map_nil, List.mem_singleton] at hd
    rw [hd]
    exact hconn p hp
  · intro c h'
    rw [show r'.handles = r.handles ++ [(conn, h)] by rw [hr.eq], List.mem_append, w.mem_handles,
      List.mem_singleton, Prod.mk.injEq]
    constructor
    · rintro (⟨t, ht, hc, hh⟩ | ⟨rfl, rfl⟩)
      · exact ⟨t, hr.mem_sessions.mpr (.inr ht), hc, hh⟩
      · exact ⟨_, hr.mem_sessions.mpr (.inl rfl), rfl, rfl⟩
    · rintro ⟨t, ht, hc, hh⟩
      rcases hr.mem_sessions.mp ht with rfl | ht
      · exact .inr ⟨hc.symm, hh.symm⟩
      · exact .inl ⟨t, ht, hc, hh⟩

variable {r' : Registry κ} {conn : κ} {now : Nat} {h g : Handle}

theorem Registered.get?_self (hr : Registered r conn now h r') (w : r.WellFormed) :
    r'.get? h = some (.accepted h conn now) :=
  (hr.wellFormed w).get?_eq_some.mpr ⟨hr.mem_sessions.mpr (.inl rfl), rfl⟩

theorem Registered.get?_of_ne (hr : Registered r conn now h r') (w : r.WellFormed) (hg : g ≠ h) :
    r'.get? g = r.get? g := by
  ext t
  rw [(hr.wellFormed w).get?_eq_some, w.get?_eq_some, hr.mem_sessions]
  constructor
  · rintro ⟨rfl | ht, rfl⟩
    · exact absurd rfl hg
    · exact ⟨ht, rfl⟩
  · rintro ⟨ht, rfl⟩
    exact ⟨.inr ht, rfl⟩

/-- Removing a session by its handle takes it, and nothing else, out of both tables. -/
theorem WellFormed.remove_eq (w : r.WellFormed) {h : Handle} {t : Session κ} (hg : r.get? h = some t) :
    r.remove h = (some t, { r with
      sessions := r.sessions.filter fun s => s.handle ≠ h
      handles := r.handles.filter fun (c, _) => c ≠ t.conn }) := by
  have hh := handle_of_get? hg
  have hconn : r.handleOf? t.conn = some h :=
    w.handleOf?_eq_some.mpr ⟨t, mem_of_get? hg, rfl, hh⟩
  rw [remove, hg]
  dsimp only
  rw [removeConn, hconn]
  dsimp only
  rw [hg]

theorem remove_eq_none {h : Handle} (hg : r.get? h = none) : r.remove h = (none, r) := by
  rw [remove, hg]

theorem WellFormed.mem_remove (w : r.WellFormed) {h : Handle} {t : Session κ} :
    t ∈ (r.remove h).2.sessions ↔ t ∈ r.sessions ∧ t.handle ≠ h := by
  cases hg : r.get? h with
  | none =>
      rw [remove_eq_none hg]
      exact ⟨fun ht => ⟨ht, get?_eq_none.mp hg t ht⟩, fun ht => ht.1⟩
  | some u =>
      rw [w.remove_eq hg]
      simp

theorem WellFormed.remove (w : r.WellFormed) (h : Handle) : (r.remove h).2.WellFormed := by
  cases hg : r.get? h with
  | none =>
      rw [remove_eq_none hg]
      exact w
  | some u =>
      have hu := mem_of_get? hg
      have hh := handle_of_get? hg
      have hmem := fun t => w.mem_remove (h := h) (t := t)
      refine ⟨?_, ?_, ?_⟩
      · rw [w.remove_eq hg]
        exact w.handles_nodup.sublist (List.filter_sublist.map _)
      · rw [w.remove_eq hg]
        exact w.conns_nodup.sublist (List.filter_sublist.map _)
      · intro c h'
        rw [w.remove_eq hg] at hmem ⊢
        simp only [List.mem_filter, w.mem_handles, decide_eq_true_eq]
        constructor
        · rintro ⟨⟨t, ht, rfl, rfl⟩, hne⟩
          refine ⟨t, ⟨ht, ?_⟩, rfl, rfl⟩
          intro he
          exact hne (by rw [w.eq_of_handle ht hu (he.trans hh.symm)])
        · rintro ⟨t, ⟨ht, hne⟩, rfl, rfl⟩
          refine ⟨⟨t, ht, rfl, rfl⟩, ?_⟩
          intro he
          exact hne (by rw [w.eq_of_conn ht hu he, hh])

theorem WellFormed.get?_remove_self (w : r.WellFormed) : (r.remove h).2.get? h = none :=
  get?_eq_none.mpr fun _ ht => (w.mem_remove.mp ht).2

theorem WellFormed.get?_remove_of_ne (w : r.WellFormed) (hg : g ≠ h) : (r.remove h).2.get? g = r.get? g := by
  ext t
  rw [(w.remove h).get?_eq_some, w.get?_eq_some, w.mem_remove]
  constructor
  · rintro ⟨⟨ht, -⟩, hh⟩
    exact ⟨ht, hh⟩
  · rintro ⟨ht, rfl⟩
    exact ⟨⟨ht, hg⟩, rfl⟩

end WebServer.Registry
