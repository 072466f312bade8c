import WebServer.Proofs.Registry.WellFormed

/-! # Replacing a session

What is done to one live session leaves a registry in which it is replaced by another one, or gone. -/

namespace WebServer.Registry

variable {κ : Type} [DecidableEq κ]

/-- The session `h` of the connection `conn` is replaced, or removed together with its connection. -/
def replace (r : Registry κ) (h : Handle) (conn : κ) (t? : Option (Session κ)) : Registry κ :=
  { r with
    sessions := r.sessions.filterMap fun s => if s.handle = h then t? else some s
    handles := r.handles.filter fun (c, _) => t?.isSome || decide (c ≠ conn) }

variable {r : Registry κ} {h g : Handle} {conn other : κ} {t : Session κ} {t? u? : Option (Session κ)}

theorem replace_self (w : r.WellFormed) (hg : r.get? h = some t) (conn : κ) : r.replace h conn (some t) = r := by
  have hsessions : (r.sessions.filterMap fun s => if s.handle = h then some t else some s) = r.sessions := by
    refine (List.filterMap_congr fun s hs => ?_).trans List.filterMap_some
    split
    · rename_i hh
      exact hg.symm.trans (w.get?_eq_some.mpr ⟨hs, hh⟩)
    · rfl
  rw [replace, hsessions]
  simp

theorem get?_replace_of_ne (ht : ∀ t ∈ t?, t.handle = h) (hne : g ≠ h) : (r.replace h conn t?).get? g = r.get? g := by
  have hpred : (fun s : Session κ => (if s.handle = h then t? else some s).any fun s => s.handle = g) =
      fun s => decide (s.handle = g) := by
    funext s
    split
    · rename_i hs
      cases t? with
      | none => simp [hs, hne.symm]
      | some t => simp [ht t rfl, hs]
    · rfl
  rw [get?, get?, replace, List.find?_filterMap, hpred]
  cases hs : r.sessions.find? fun s => s.handle = g with
  | none => rfl
  | some s =>
      have hh : s.handle = g := by simpa using List.find?_some hs
      rw [Option.bind_some, hh, if_neg hne]

theorem get?_replace_none : (r.replace h conn none).get? h = none := by
  rw [get?_eq_none]
  intro t ht
  obtain ⟨s, -, hs⟩ := List.mem_filterMap.mp ht
  split at hs
  · cases hs
  · rename_i hne
    exact Option.some.inj hs ▸ hne

theorem handleOf?_replace_self (hconn : r.handleOf? conn = some h) :
    (r.replace h conn t?).handleOf? conn = t?.map fun _ => h := by
  cases t? with
  | none => simp [handleOf?, replace]
  | some t =>
      rw [Option.map_some, ← hconn, handleOf?, handleOf?, replace]
      simp

theorem update_replace {f : Session κ → Session κ} (ht : ∀ t ∈ t?, t.handle = h) :
    (r.replace h conn t?).update h f = r.replace h conn (t?.map f) := by
  have hsessions (s : Session κ) :
      ((if s.handle = h then t? else some s).map fun s => if s.handle = h then f s else s) =
        if s.handle = h then t?.map f else some s := by
    split
    · cases t? with
      | none => rfl
      | some t => simp [ht t rfl]
    · simp [*]
  rw [update, replace, replace, Option.isSome_map]
  simp only [List.map_filterMap, hsessions]

theorem remove_replace (hconn : r.handleOf? conn = some h) (hg : (r.replace h conn (some t)).get? h = some t)
    (hc : t.conn = conn) : (r.replace h conn (some t)).remove h = (some t, r.replace h conn none) := by
  have hhandle : (r.replace h conn (some t)).handleOf? conn = some h := handleOf?_replace_self hconn
  have hsessions : ((r.sessions.filterMap fun s => if s.handle = h then some t else some s).filter fun s => s.handle ≠ h) =
      r.sessions.filterMap fun s => if s.handle = h then none else some s := by
    rw [List.filter_filterMap]
    refine List.filterMap_congr fun s _ => ?_
    split
    · simp [handle_of_get? hg]
    · simp [Option.filter, *]
  rw [remove, hg]
  dsimp only
  rw [removeConn, hc, hhandle]
  dsimp only
  rw [hg]
  simp only [replace, hsessions]
  simp

theorem WellFormed.replace (w : r.WellFormed) (hg : r.get? h = some t) (ht : ∀ u ∈ t?, u.handle = h)
    (hc : ∀ u ∈ t?, u.conn = t.conn) : (r.replace h t.conn t?).WellFormed := by
  have hself := replace_self w hg t.conn
  cases t? with
  | none =>
      have hconn : r.handleOf? t.conn = some h := w.handleOf?_eq_some.mpr ⟨t, mem_of_get? hg, rfl, handle_of_get? hg⟩
      have hremove := remove_replace hconn (hself.symm ▸ hg) rfl
      have hw := w.remove h
      rwa [← hself, hremove] at hw
  | some u =>
      -- The other session keeps the handle and the connection.
      have hhandle : ∀ s ∈ some t, s.handle = h := fun s hs => Option.some.inj hs ▸ handle_of_get? hg
      have hupdate : (r.replace h t.conn (some t)).update h (fun s => { u with handle := s.handle, conn := s.conn }) = _ :=
        update_replace hhandle
      have hkept : ({ u with handle := t.handle, conn := t.conn } : Session κ) = u := by
        rw [handle_of_get? hg, ← ht u rfl, ← hc u rfl]
      rw [hself, Option.map_some, hkept] at hupdate
      exact hupdate ▸ w.update (fun _ => rfl) fun _ => rfl

theorem replace_comm (ht : ∀ t ∈ t?, t.handle = h) (hu : ∀ u ∈ u?, u.handle = g) (hne : g ≠ h) :
    (r.replace h conn t?).replace g other u? = (r.replace g other u?).replace h conn t? := by
  have hsessions (s : Session κ) :
      ((if s.handle = h then t? else some s).bind fun s => if s.handle = g then u? else some s) =
        (if s.handle = g then u? else some s).bind fun s => if s.handle = h then t? else some s := by
    by_cases hs : s.handle = h
    · have hsg : s.handle ≠ g := fun he => hne (he.symm.trans hs)
      rw [if_pos hs, if_neg hsg, Option.bind_some, if_pos hs]
      cases t? with
      | none => rfl
      | some t => rw [Option.bind_some, if_neg fun he => hne (he.symm.trans (ht t rfl))]
    · rw [if_neg hs, Option.bind_some]
      by_cases hsg : s.handle = g
      · rw [if_pos hsg]
        cases u? with
        | none => rfl
        | some u => rw [Option.bind_some, if_neg fun he => hne ((hu u rfl).symm.trans he)]
      · rw [if_neg hsg, Option.bind_some, if_neg hs]
  simp only [replace, List.filterMap_filterMap, List.filter_filter, hsessions, Bool.and_comm]

end WebServer.Registry
