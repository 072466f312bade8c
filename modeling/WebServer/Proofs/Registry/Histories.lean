import Mathlib.Data.List.Perm.Basic
import WebServer.Proofs.Registry.WellFormed

/-! # Histories of a registry

Whatever sessions are created and removed, the two tables of a registry stay inverse to each other and within its
limit, creation fails for the stated reasons only, and what fails or finds nothing changes nothing. -/

namespace WebServer.Registry

variable {κ : Type} [DecidableEq κ] {r r' : Registry κ} {conn : κ} {now : Nat} {h : Handle} {t : Session κ}

/-- A call that changes which sessions are live. -/
inductive Change (κ : Type) where
  | create (conn : κ) (now : Nat)
  | removeConn (conn : κ)
  | remove (h : Handle)

def apply (r : Registry κ) : Change κ → Registry κ
  | .create conn now => (r.create conn now).2
  | .removeConn conn => (r.removeConn conn).2
  | .remove h => (r.remove h).2

/-- The registry after some calls, the first of them first. -/
def after (r : Registry κ) (changes : List (Change κ)) : Registry κ :=
  changes.foldl apply r

/-! ## The two tables -/

/-- What the look-ups of a registry say about each other and about its size. -/
structure Consistent (r : Registry κ) : Prop where
  inverse : ∀ conn h, (∃ t, r.get? h = some t ∧ t.conn = conn ∧ t.handle = h) ↔ r.handleOf? conn = some h
  handle : ∀ h t, r.get? h = some t → t.handle = h
  ofConn : ∀ conn t, r.ofConn? conn = some t ↔ r.get? t.handle = some t ∧ t.conn = conn
  handleOf : ∀ conn, r.handleOf? conn = (r.ofConn? conn).map Session.handle
  conns_nodup : (r.handles.map Prod.fst).Nodup
  size_conns : r.size = (r.handles.map Prod.fst).length
  size_le : r.size ≤ r.limit

theorem WellFormed.handleOf?_eq_map (w : r.WellFormed) (conn : κ) :
    r.handleOf? conn = (r.ofConn? conn).map Session.handle := by
  ext h
  simp only [w.handleOf?_eq_some, Option.map_eq_some_iff, w.ofConn?_eq_some, and_assoc]

theorem WellFormed.ofConn?_eq_some_get? (w : r.WellFormed) :
    r.ofConn? conn = some t ↔ r.get? t.handle = some t ∧ t.conn = conn := by
  rw [w.ofConn?_eq_some, w.get?_eq_some, and_iff_left rfl]

omit [DecidableEq κ] in
/-- As many connections have a handle as there are sessions. -/
theorem WellFormed.size_eq (w : r.WellFormed) : r.size = r.handles.length := by
  have hp : r.handles.Perm (r.sessions.map fun t => (t.conn, t.handle)) := by
    have hn : (r.sessions.map fun t => (t.conn, t.handle)).Nodup := by
      refine List.Nodup.of_map Prod.snd ?_
      rw [List.map_map]
      exact w.handles_nodup
    refine (List.perm_ext_iff_of_nodup (List.Nodup.of_map _ w.conns_nodup) hn).mpr ?_
    rintro ⟨conn, h⟩
    rw [w.mem_handles, List.mem_map]
    simp only [Prod.mk.injEq]
  rw [size, hp.length_eq, List.length_map]

theorem WellFormed.consistent (w : r.WellFormed) (hl : r.size ≤ r.limit) : r.Consistent where
  inverse conn h := by
    rw [w.handleOf?_eq_some]
    constructor
    · rintro ⟨t, hg, ht⟩
      exact ⟨t, mem_of_get? hg, ht⟩
    · rintro ⟨t, ht, hc, hh⟩
      exact ⟨t, w.get?_eq_some.mpr ⟨ht, hh⟩, hc, hh⟩
  handle _ _ := handle_of_get?
  ofConn _ _ := w.ofConn?_eq_some_get?
  handleOf := w.handleOf?_eq_map
  conns_nodup := w.conns_nodup
  size_conns := by rw [w.size_eq, List.length_map]
  size_le := hl

/-! ## Creating -/

/-- What a call that creates a session answers and leaves behind. -/
structure Creates (r : Registry κ) (conn : κ) (now : Nat) : Prop where
  duplicate : ∀ c, (r.create conn now).1 = .error (.duplicateConnection c) ↔ c = conn ∧ (r.handleOf? conn).isSome
  full : ∀ n, (r.create conn now).1 = .error (.full n) ↔
    r.handleOf? conn = none ∧ n = r.limit ∧ r.size = r.limit
  failed : ∀ e, (r.create conn now).1 = .error e → (r.create conn now).2 = r
  created : ∀ h, (r.create conn now).1 = .ok h →
    r.get? h = none ∧ (r.create conn now).2.get? h = some (.accepted h conn now) ∧
      (∀ g, g ≠ h → (r.create conn now).2.get? g = r.get? g) ∧
      (r.create conn now).2.size = r.size + 1 ∧ (r.create conn now).2.limit = r.limit

theorem create_of_live (now : Nat) (hc : (r.handleOf? conn).isSome) :
    r.create conn now = (.error (.duplicateConnection conn), r) := by
  rw [create, if_pos hc]

theorem create_of_full (now : Nat) (hc : r.handleOf? conn = none) (hf : r.limit ≤ r.size) :
    r.create conn now = (.error (.full r.limit), r) := by
  rw [create, hc, if_neg (by simp), if_pos hf]

/-- With room for a connection that is not live, only the handles can be missing. -/
theorem create_of_room (now : Nat) (hc : r.handleOf? conn = none) (hf : r.size < r.limit) :
    (r.create conn now).1 = .error .handlesExhausted ∨ ∃ h, (r.create conn now).1 = .ok h := by
  rw [create, hc, if_neg (by simp), if_neg (by omega)]
  split
  · exact .inl rfl
  · exact .inr ⟨_, rfl⟩

theorem Registered.size_eq (hr : Registered r conn now h r') : r'.size = r.size + 1 := by
  rw [hr.eq]
  exact (place_perm _ _).length_eq

theorem WellFormed.creates (w : r.WellFormed) (hl : r.size ≤ r.limit) (conn : κ) (now : Nat) :
    Creates r conn now where
  duplicate c := by
    rcases hc : r.handleOf? conn with _ | h
    · rcases Nat.lt_or_eq_of_le hl with hroom | hfull
      · rcases create_of_room now hc hroom with ha | ⟨g, ha⟩ <;> simp [ha]
      · simp [create_of_full now hc (Nat.le_of_eq hfull.symm)]
    · simp [create_of_live now (show (r.handleOf? conn).isSome by simp [hc]), eq_comm]
  full n := by
    rcases hc : r.handleOf? conn with _ | h
    · rcases Nat.lt_or_eq_of_le hl with hroom | hfull
      · rcases create_of_room now hc hroom with ha | ⟨g, ha⟩ <;> simp [ha, Nat.ne_of_lt hroom]
      · simp [create_of_full now hc (Nat.le_of_eq hfull.symm), hfull, eq_comm]
    · simp [create_of_live now (show (r.handleOf? conn).isSome by simp [hc])]
  failed e he := eq_of_create_error (e := e) (Prod.ext he rfl)
  created h ha := by
    have hr := registered_of_create (Prod.ext ha rfl : r.create conn now = (.ok h, (r.create conn now).2))
    refine ⟨hr.handle_free, hr.get?_self w, fun g hg => hr.get?_of_ne w hg, hr.size_eq, ?_⟩
    rw [hr.eq]

/-! ## Removing -/

/-- What the two calls that remove a session answer and leave behind. -/
structure Removes (r : Registry κ) : Prop where
  unknown_conn : ∀ conn, r.handleOf? conn = none → r.removeConn conn = (none, r)
  unknown : ∀ h, r.get? h = none → r.remove h = (none, r)
  same : ∀ conn h, r.handleOf? conn = some h → r.removeConn conn = r.remove h
  removed : ∀ h t, r.get? h = some t → (r.remove h).1 = some t ∧ (r.remove h).2.get? h = none ∧
    (r.remove h).2.handleOf? t.conn = none ∧ (∀ g, g ≠ h → (r.remove h).2.get? g = r.get? g) ∧
    (r.remove h).2.limit = r.limit ∧ (r.remove h).2.lastIssued = r.lastIssued
  again : ∀ h, (r.remove h).2.remove h = (none, (r.remove h).2)
  again_conn : ∀ conn, (r.removeConn conn).2.removeConn conn = (none, (r.removeConn conn).2)
  again_crossed : ∀ conn h, r.handleOf? conn = some h →
    (r.removeConn conn).2.remove h = (none, (r.removeConn conn).2) ∧
      (r.remove h).2.removeConn conn = (none, (r.remove h).2)

theorem removeConn_eq_none (hc : r.handleOf? conn = none) : r.removeConn conn = (none, r) := by
  rw [removeConn, hc]

/-- Removing by the connection and by the handle of one session is the same. -/
theorem WellFormed.removeConn_eq_remove (w : r.WellFormed) (hc : r.handleOf? conn = some h) :
    r.removeConn conn = r.remove h := by
  obtain ⟨t, ht, rfl, hh⟩ := w.handleOf?_eq_some.mp hc
  have hg : r.get? h = some t := w.get?_eq_some.mpr ⟨ht, hh⟩
  rw [Registry.remove, hg]

/-- The connection of a removed session has no handle any more. -/
theorem WellFormed.handleOf?_remove (w : r.WellFormed) (hc : r.handleOf? conn = some h) :
    (r.remove h).2.handleOf? conn = none := by
  obtain ⟨t, ht, rfl, hh⟩ := w.handleOf?_eq_some.mp hc
  refine Option.eq_none_iff_forall_ne_some.mpr fun g hg => ?_
  obtain ⟨u, hu, hconn, -⟩ := (w.remove h).handleOf?_eq_some.mp hg
  obtain ⟨hu, hne⟩ := w.mem_remove.mp hu
  exact hne (by rw [w.eq_of_conn hu ht hconn, hh])

theorem WellFormed.handleOf?_of_get? (w : r.WellFormed) (hg : r.get? h = some t) : r.handleOf? t.conn = some h :=
  w.handleOf?_eq_some.mpr ⟨t, mem_of_get? hg, rfl, handle_of_get? hg⟩

theorem WellFormed.removes (w : r.WellFormed) : Removes r where
  unknown_conn _ := removeConn_eq_none
  unknown _ := remove_eq_none
  same _ _ := w.removeConn_eq_remove
  removed h t hg := by
    refine ⟨?_, w.get?_remove_self, w.handleOf?_remove (w.handleOf?_of_get? hg), fun g => w.get?_remove_of_ne, ?_⟩
    · rw [w.remove_eq hg]
    · rw [w.remove_eq hg]
      exact ⟨rfl, rfl⟩
  again h := remove_eq_none w.get?_remove_self
  again_conn conn := by
    cases hc : r.handleOf? conn with
    | none => rw [removeConn_eq_none hc, removeConn_eq_none hc]
    | some h =>
        rw [w.removeConn_eq_remove hc]
        exact removeConn_eq_none (w.handleOf?_remove hc)
  again_crossed conn h hc := by
    rw [w.removeConn_eq_remove hc]
    exact ⟨remove_eq_none w.get?_remove_self, removeConn_eq_none (w.handleOf?_remove hc)⟩

/-! ## Histories -/

/-- A well-formed registry that keeps within its limit. -/
structure Within (limit : Nat) (r : Registry κ) : Prop where
  wellFormed : r.WellFormed
  limit_eq : r.limit = limit
  size_le : r.size ≤ limit

theorem Within.create {limit : Nat} (w : Within limit r) (conn : κ) (now : Nat) :
    Within limit (r.create conn now).2 := by
  rcases hc : r.create conn now with ⟨_ | h, r'⟩
  · rwa [eq_of_create_error hc]
  · have hr := registered_of_create hc
    have hroom := hr.room
    rw [w.limit_eq] at hroom
    refine ⟨hr.wellFormed w.wellFormed, ?_, ?_⟩
    · rw [hr.eq]
      exact w.limit_eq
    · rw [hr.size_eq]
      omega

theorem Within.remove {limit : Nat} (w : Within limit r) (h : Handle) : Within limit (r.remove h).2 := by
  cases hg : r.get? h with
  | none => rwa [remove_eq_none hg]
  | some t =>
      refine ⟨w.wellFormed.remove h, ?_, ?_⟩
      · rw [w.wellFormed.remove_eq hg]
        exact w.limit_eq
      · rw [w.wellFormed.remove_eq hg]
        exact Nat.le_trans (List.length_filter_le _ _) w.size_le

theorem Within.removeConn {limit : Nat} (w : Within limit r) (conn : κ) : Within limit (r.removeConn conn).2 := by
  cases hc : r.handleOf? conn with
  | none => rwa [removeConn_eq_none hc]
  | some h =>
      rw [w.wellFormed.removeConn_eq_remove hc]
      exact w.remove h

theorem Within.apply {limit : Nat} (w : Within limit r) (change : Change κ) : Within limit (r.apply change) := by
  cases change with
  | create conn now => exact w.create conn now
  | removeConn conn => exact w.removeConn conn
  | remove h => exact w.remove h

theorem Within.after {limit : Nat} (w : Within limit r) (changes : List (Change κ)) :
    Within limit (r.after changes) := by
  induction changes generalizing r with
  | nil => exact w
  | cons change changes ih => exact ih (w.apply change)

/-- After any history the tables are inverse to each other and within the limit, and every call that follows
creates, removes or refuses as it should. -/
theorem consistent_after (limit : Nat) (changes : List (Change κ)) :
    ((new limit).after changes).limit = limit ∧ ((new limit).after changes).Consistent ∧
      (∀ conn now, Creates ((new limit).after changes) conn now) ∧ Removes ((new limit).after changes) := by
  have w : Within limit ((new limit : Registry κ).after changes) :=
    .after ⟨wellFormed_new limit, rfl, Nat.zero_le limit⟩ changes
  have hl : ((new limit : Registry κ).after changes).size ≤ ((new limit : Registry κ).after changes).limit :=
    Nat.le_trans w.size_le (Nat.le_of_eq w.limit_eq.symm)
  exact ⟨w.limit_eq, w.wellFormed.consistent hl, w.wellFormed.creates hl, w.wellFormed.removes⟩

end WebServer.Registry
