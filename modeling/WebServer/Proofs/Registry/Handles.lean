import Mathlib.Data.List.Nodup
import Mathlib.Data.List.Perm.Subperm
import Mathlib.Data.Nat.ModEq
import Mathlib.Logic.Function.Iterate
import WebServer.Proofs.Registry.Histories

/-! # Fresh handles

Handles are issued in a circle that leaves out the reserved numbers. A turn of the circle holds every other handle once,
so the scan for a free one ends well as long as there are fewer sessions than handles. Until the first turn is over, the
handles ascend, and none of them is issued twice. -/

namespace WebServer

namespace Handle

/-- How many handles can be issued. -/
def supply : Nat := 2 ^ 32 - first.raw.toNat

/-- The handles that come after `last`, the next one first. -/
def following (last : Handle) : Nat → List Handle
  | 0 => []
  | n + 1 => last.next :: following last.next n

theorem toNat_next (h : Handle) :
    h.next.raw.toNat = if h.raw.toNat + 1 < 1000 ∨ h.raw.toNat + 1 = 2 ^ 32 then 1000 else h.raw.toNat + 1 := by
  have hlt := h.raw.toNat_lt
  have hadd : (h.raw + 1).toNat = (h.raw.toNat + 1) % 2 ^ 32 := UInt32.toNat_add h.raw 1
  have hfirst : first.raw.toNat = 1000 := rfl
  rw [next]
  simp only [UInt32.lt_iff_toNat_lt, hadd, hfirst]
  split <;> split <;> simp only [hadd, hfirst] <;> omega

theorem isValid_iff {h : Handle} : h.isValid = true ↔ 1000 ≤ h.raw.toNat := by
  simp [isValid, UInt32.le_iff_toNat_le, first]

theorem isValid_next (h : Handle) : h.next.isValid = true := by
  rw [isValid_iff, toNat_next]
  split <;> omega

/-- A valid handle is a place in the circle, from which the next handles go on. -/
theorem toNat_iterate_next {h : Handle} (hv : h.isValid = true) (k : Nat) :
    (next^[k] h).raw.toNat = 1000 + (h.raw.toNat - 1000 + k) % supply := by
  have hlt := h.raw.toNat_lt
  have hsupply : supply = 4294966296 := rfl
  rw [isValid_iff] at hv
  induction k with
  | zero =>
      rw [Function.iterate_zero_apply, hsupply]
      omega
  | succ k ih =>
      rw [Function.iterate_succ_apply', toNat_next, ih, hsupply]
      split <;> omega

theorem following_eq_map (last : Handle) (n : Nat) :
    last.following n = (List.range n).map fun k => next^[k] last.next := by
  induction n generalizing last with
  | zero => rfl
  | succ n ih =>
      rw [following, ih, List.range_succ_eq_map, List.map_cons, List.map_map]
      rfl

/-- A turn of the circle holds no handle twice. -/
theorem nodup_following (last : Handle) {n : Nat} (hn : n ≤ supply) : (last.following n).Nodup := by
  rw [following_eq_map]
  refine List.Nodup.map_on ?_ List.nodup_range
  intro k hk l hl heq
  have hk : k < supply := Nat.lt_of_lt_of_le (List.mem_range.mp hk) hn
  have hl : l < supply := Nat.lt_of_lt_of_le (List.mem_range.mp hl) hn
  have hplace := congrArg (fun h : Handle => h.raw.toNat) heq
  simp only [toNat_iterate_next (isValid_next last), Nat.add_left_cancel_iff] at hplace
  have hmod : k ≡ l [MOD supply] := Nat.ModEq.add_left_cancel' _ hplace
  exact hmod.eq_of_lt_of_lt hk hl

end Handle

namespace Registry

variable {κ : Type} {r r' : Registry κ} {conn : κ} {now : Nat} {h : Handle} {t : Session κ}

/-! ## The scan for a free handle -/

theorem contains_iff : r.contains h = true ↔ h ∈ r.liveHandles := by
  rw [contains, get?, List.find?_isSome]
  simp [liveHandles]

theorem isValid_of_issue? {tries : Nat} {last : Handle} (hi : r.issue? tries last = some h) : h.isValid = true := by
  induction tries generalizing last with
  | zero => simp [issue?] at hi
  | succ tries ih =>
      rw [issue?] at hi
      split at hi
      · exact ih hi
      · exact Option.some.inj hi ▸ last.isValid_next

/-- A scan that finds nothing has met live handles only. -/
theorem following_subset_of_issue? {tries : Nat} {last : Handle} (hi : r.issue? tries last = none) :
    last.following tries ⊆ r.liveHandles := by
  induction tries generalizing last with
  | zero => exact List.nil_subset _
  | succ tries ih =>
      rw [issue?] at hi
      split at hi
      · rename_i hlive
        exact List.cons_subset.mpr ⟨contains_iff.mp hlive, ih hi⟩
      · cases hi

/-- Of more handles than there are sessions one is free. -/
theorem issue?_ne_none {tries : Nat} (hsize : r.size < tries) (hn : tries ≤ Handle.supply) (last : Handle) :
    r.issue? tries last ≠ none := by
  intro hi
  have hle := ((Handle.nodup_following last hn).subperm (following_subset_of_issue? hi)).length_le
  rw [Handle.following_eq_map, List.length_map, List.length_range, liveHandles, List.length_map] at hle
  exact absurd hsize (Nat.not_lt.mpr hle)

variable [DecidableEq κ]

theorem issue?_of_create (hc : r.create conn now = (.ok h, r')) : r.issue? (r.size + 1) r.lastIssued = some h := by
  rw [create] at hc
  split at hc
  · cases hc
  · split at hc
    · cases hc
    · split at hc
      · cases hc
      · rename_i h' hi
        cases hc
        exact hi

/-- What a registry with a handle to spare answers when a connection is to become a session. -/
structure Issues (r : Registry κ) (conn : κ) (now : Nat) : Prop where
  not_exhausted : (r.create conn now).1 ≠ .error .handlesExhausted
  succeeds : r.handleOf? conn = none → r.size < r.limit → ∃ h, (r.create conn now).1 = .ok h
  fresh : ∀ h, (r.create conn now).1 = .ok h → h.isValid = true ∧ h ≠ .invalid ∧ r.get? h = none

theorem create_ne_exhausted (hsize : r.size < Handle.supply) (conn : κ) (now : Nat) :
    (r.create conn now).1 ≠ .error .handlesExhausted := by
  have hissue := issue?_ne_none (Nat.lt_succ_self r.size) hsize r.lastIssued
  rw [create]
  split
  · simp
  · split
    · simp
    · split
      · rename_i hnone
        exact absurd hnone hissue
      · simp

theorem issues_of_lt (hsize : r.size < Handle.supply) (conn : κ) (now : Nat) : Issues r conn now where
  not_exhausted := create_ne_exhausted hsize conn now
  succeeds hc hroom := (create_of_room now hc hroom).resolve_left (create_ne_exhausted hsize conn now)
  fresh h hok := by
    have hcreate : r.create conn now = (.ok h, (r.create conn now).2) := Prod.ext hok rfl
    have hvalid := isValid_of_issue? (issue?_of_create hcreate)
    refine ⟨hvalid, ?_, (registered_of_create hcreate).handle_free⟩
    rintro rfl
    simp [Handle.isValid, Handle.first, Handle.invalid] at hvalid

/-! ## The handles of a history -/

/-- The handle that a call issues, if it makes a connection a session. -/
def issuedBy (r : Registry κ) : Change κ → Option Handle
  | .create conn now => (r.create conn now).1.toOption
  | .removeConn _ | .remove _ => none

/-- The handles that some calls issue, in the order in which they are issued. -/
def issued (r : Registry κ) : List (Change κ) → List Handle
  | [] => []
  | change :: changes => (r.issuedBy change).toList ++ (r.apply change).issued changes

/-- A registry whose handles have not come round yet. -/
structure FirstTurn (r : Registry κ) : Prop where
  wellFormed : r.WellFormed
  started : 1000 ≤ r.lastIssued.raw.toNat + 1
  live : ∀ t ∈ r.sessions, t.handle.raw.toNat ≤ r.lastIssued.raw.toNat

omit [DecidableEq κ] in
theorem firstTurn_new (limit : Nat) : FirstTurn (new limit : Registry κ) :=
  ⟨wellFormed_new limit, by simp [new, Handle.first], by simp [new]⟩

omit [DecidableEq κ] in
/-- In the first turn the handle behind the last one is free. -/
theorem FirstTurn.issue? (f : r.FirstTurn) (hroom : r.lastIssued.raw.toNat + 1 < 2 ^ 32) (tries : Nat) :
    r.issue? (tries + 1) r.lastIssued = some r.lastIssued.next ∧
      r.lastIssued.next.raw.toNat = r.lastIssued.raw.toNat + 1 := by
  have hstarted := f.started
  have hnext : r.lastIssued.next.raw.toNat = r.lastIssued.raw.toNat + 1 := by
    rw [Handle.toNat_next, if_neg (by omega)]
  have hfree : r.contains r.lastIssued.next = false := by
    rw [Bool.eq_false_iff, Ne, contains_iff, liveHandles, List.mem_map]
    rintro ⟨t, ht, hh⟩
    have hle := f.live t ht
    rw [hh, hnext] at hle
    omega
  refine ⟨?_, hnext⟩
  rw [Registry.issue?]
  simp [hfree]

/-- What a call does in the first turn: it issues nothing, or the handle behind the last one. -/
inductive Turns (r : Registry κ) (change : Change κ) : Prop where
  | issues {h : Handle} (hi : r.issuedBy change = some h) (hlast : (r.apply change).lastIssued = h)
      (hnext : h.raw.toNat = r.lastIssued.raw.toNat + 1) (hf : (r.apply change).FirstTurn)
      (hothers : ∀ g, g ≠ h → (r.apply change).get? g = r.get? g)
  | keeps (hi : r.issuedBy change = none) (hlast : (r.apply change).lastIssued = r.lastIssued)
      (hf : (r.apply change).FirstTurn) (hothers : ∀ g t, (r.apply change).get? g = some t → r.get? g = some t)

theorem FirstTurn.remove (f : r.FirstTurn) (h : Handle) : (r.remove h).2.FirstTurn ∧
    (r.remove h).2.lastIssued = r.lastIssued ∧ ∀ g t, (r.remove h).2.get? g = some t → r.get? g = some t := by
  have hlast : (r.remove h).2.lastIssued = r.lastIssued := by
    cases hg : r.get? h with
    | none => rw [remove_eq_none hg]
    | some t => rw [f.wellFormed.remove_eq hg]
  refine ⟨⟨f.wellFormed.remove h, hlast ▸ f.started, fun t ht => ?_⟩, hlast, fun g t hg => ?_⟩
  · rw [hlast]
    exact f.live t (f.wellFormed.mem_remove.mp ht).1
  · have hne : g ≠ h := by
      rintro rfl
      rw [f.wellFormed.get?_remove_self] at hg
      cases hg
    rwa [f.wellFormed.get?_remove_of_ne hne] at hg

theorem FirstTurn.create (f : r.FirstTurn) (conn : κ) (now : Nat)
    (hroom : ∀ h, r.issuedBy (.create conn now) = some h → r.lastIssued.raw.toNat + 1 < 2 ^ 32) :
    Turns r (.create conn now) := by
  rcases hc : r.create conn now with ⟨error | h, r'⟩
  · have hsame := eq_of_create_error hc
    have happly : r.apply (.create conn now) = r := by rw [apply, hc, hsame]
    refine .keeps ?_ (by rw [happly]) (by rwa [happly]) fun g t hg => ?_
    · rw [issuedBy, hc]
      rfl
    · rwa [happly] at hg
  · have hi : r.issuedBy (.create conn now) = some h := by
      rw [issuedBy, hc]
      rfl
    obtain ⟨hissue, hnext⟩ := f.issue? (hroom h hi) r.size
    obtain rfl : r.lastIssued.next = h := Option.some.inj (hissue.symm.trans (issue?_of_create hc))
    have hr := registered_of_create hc
    have happly : r.apply (.create conn now) = r' := by rw [apply, hc]
    have hlast : r'.lastIssued = r.lastIssued.next := by rw [hr.eq]
    have hstarted := f.started
    refine .issues hi (by rw [happly, hlast]) hnext ?_ fun g hg => ?_
    · rw [happly]
      refine ⟨hr.wellFormed f.wellFormed, by rw [hlast]; omega, fun t ht => ?_⟩
      rcases hr.mem_sessions.mp ht with rfl | ht
      · rw [hlast]
        exact Nat.le_refl _
      · have hle := f.live t ht
        rw [hlast]
        omega
    · rw [happly]
      exact hr.get?_of_ne f.wellFormed hg

theorem FirstTurn.apply (f : r.FirstTurn) (change : Change κ)
    (hroom : ∀ h, r.issuedBy change = some h → r.lastIssued.raw.toNat + 1 < 2 ^ 32) : Turns r change := by
  cases change with
  | create conn now => exact f.create conn now hroom
  | remove h =>
      obtain ⟨hf, hlast, hothers⟩ := f.remove h
      exact .keeps rfl hlast hf hothers
  | removeConn conn =>
      cases hc : r.handleOf? conn with
      | none =>
          have happly : r.apply (.removeConn conn) = r := by rw [Registry.apply, removeConn_eq_none hc]
          exact .keeps rfl (by rw [happly]) (by rwa [happly]) fun g t hg => by rwa [happly] at hg
      | some h =>
          have happly : r.apply (.removeConn conn) = (r.remove h).2 := by
            rw [Registry.apply, f.wellFormed.removeConn_eq_remove hc]
          obtain ⟨hf, hlast, hothers⟩ := f.remove h
          exact .keeps rfl (by rw [happly, hlast]) (by rwa [happly]) fun g t hg => hothers g t (by rwa [happly] at hg)

/-- What some calls do in the first turn: the handles that they issue follow each other, and no session gets a handle that
was issued before. -/
structure Ascends (r : Registry κ) (changes : List (Change κ)) : Prop where
  firstTurn : (r.after changes).FirstTurn
  last : (r.after changes).lastIssued.raw.toNat = r.lastIssued.raw.toNat + (r.issued changes).length
  issued : (r.issued changes).map (·.raw.toNat) =
    List.range' (r.lastIssued.raw.toNat + 1) (r.issued changes).length
  named : ∀ h t, h.raw.toNat ≤ r.lastIssued.raw.toNat → (r.after changes).get? h = some t → r.get? h = some t

theorem FirstTurn.ascends (f : r.FirstTurn) {changes : List (Change κ)}
    (hroom : r.lastIssued.raw.toNat + (r.issued changes).length < 2 ^ 32) : Ascends r changes := by
  induction changes generalizing r with
  | nil => exact ⟨f, rfl, rfl, fun _ _ _ hg => hg⟩
  | cons change changes ih =>
      have hstep : Turns r change := by
        refine f.apply change fun h hi => ?_
        rw [issued, hi, Option.toList_some, List.length_append, List.length_singleton] at hroom
        omega
      rw [issued] at hroom
      cases hstep with
      | @issues h hi hlast hnext hf hothers =>
          simp only [hi, Option.toList_some, List.singleton_append, List.length_cons] at hroom
          obtain ⟨hf', hlast', hissued', hnamed'⟩ := ih hf (by rw [hlast]; omega)
          rw [hlast, hnext] at hlast' hissued'
          refine ⟨hf', ?_, ?_, fun g t hg hs => ?_⟩
          · simp only [issued, hi, Option.toList_some, List.singleton_append, List.length_cons]
            exact hlast'.trans (by omega)
          · simp only [issued, hi, Option.toList_some, List.singleton_append, List.length_cons, List.map_cons,
              List.range'_succ, hnext, hissued']
          · have hne : g ≠ h := by
              rintro rfl
              omega
            rw [← hothers g hne]
            exact hnamed' g t (by rw [hlast]; omega) hs
      | keeps hi hlast hf hothers =>
          simp only [hi, Option.toList_none, List.nil_append] at hroom
          obtain ⟨hf', hlast', hissued', hnamed'⟩ := ih hf (by rwa [hlast])
          rw [hlast] at hlast' hissued' hnamed'
          refine ⟨hf', ?_, ?_, fun g t hg hs => hothers g t (hnamed' g t hg hs)⟩
          · simp only [issued, hi, Option.toList_none, List.nil_append]
            exact hlast'
          · simp only [issued, hi, Option.toList_none, List.nil_append]
            exact hissued'

theorem issued_append (r : Registry κ) (before behind : List (Change κ)) :
    r.issued (before ++ behind) = r.issued before ++ (r.after before).issued behind := by
  induction before generalizing r with
  | nil => rfl
  | cons change before ih =>
      rw [List.cons_append, issued, ih, issued, List.append_assoc]
      rfl

theorem after_append (r : Registry κ) (before behind : List (Change κ)) :
    r.after (before ++ behind) = (r.after before).after behind :=
  List.foldl_append

/-- The handles that some calls issue are used once: they ascend, and what a handle names afterwards it has named all the
time since it was issued. -/
structure UsedOnce (r : Registry κ) (changes : List (Change κ)) : Prop where
  ascending : (r.issued changes).Pairwise fun g h => g.raw < h.raw
  lasting : ∀ before behind, changes = before ++ behind → ∀ h ∈ r.issued before, ∀ t,
    (r.after changes).get? h = some t → (r.after before).get? h = some t

theorem FirstTurn.usedOnce (f : r.FirstTurn) {changes : List (Change κ)}
    (hroom : r.lastIssued.raw.toNat + (r.issued changes).length < 2 ^ 32) : UsedOnce r changes where
  ascending := by
    have hlt : ((r.issued changes).map (·.raw.toNat)).Pairwise (· < ·) := by
      rw [(f.ascends hroom).issued]
      exact List.pairwise_lt_range'
    rw [List.pairwise_map] at hlt
    exact hlt.imp UInt32.lt_iff_toNat_lt.mpr
  lasting := by
    rintro before behind rfl h hm t hs
    rw [issued_append, List.length_append] at hroom
    have hbefore : Ascends r before := f.ascends (by omega)
    -- The handle is not beyond the last one that was issued when it was kept.
    have hle : h.raw.toNat ≤ (r.after before).lastIssued.raw.toNat := by
      have hrange := List.mem_map_of_mem (f := fun g : Handle => g.raw.toNat) hm
      rw [hbefore.issued, List.mem_range'_1] at hrange
      rw [hbefore.last]
      omega
    have hbehind : Ascends (r.after before) behind := hbefore.firstTurn.ascends (by rw [hbefore.last]; omega)
    rw [after_append] at hs
    exact hbehind.named h t hle hs

/-- With fewer sessions than there are handles, wherever the last handle stands, a connection that can become a session
gets a valid handle that no session has. From a new registry on the handles ascend until all have been issued, and a
handle that an application has kept never names another session. -/
theorem handles_fresh :
    (∀ (r : Registry κ) (conn : κ) (now : Nat), r.size < Handle.supply → Issues r conn now) ∧
      ∀ (limit : Nat) (changes : List (Change κ)), ((new limit).issued changes).length ≤ Handle.supply →
        UsedOnce (new limit) changes := by
  refine ⟨fun r conn now hsize => issues_of_lt hsize conn now, fun limit changes hlength => ?_⟩
  refine (firstTurn_new limit).usedOnce ?_
  have hsupply : Handle.supply = 4294966296 := rfl
  have hlast : (new limit : Registry κ).lastIssued.raw.toNat = 999 := rfl
  omega

/-- The last handle of all was issued, and the first one is live. A session is removed, and another connection becomes
one. -/
theorem handles_fresh_of_wraparound :
    let session := Session.accepted .first 1 0
    let r : Registry Nat := { limit := 8, lastIssued := ⟨0xFFFFFFFF⟩, sessions := [session], handles := [(1, .first)] }
    let changes : List (Change Nat) := [.create 1 0, .remove .first, .create 1 0]
    r.size < Handle.supply ∧ (r.create 2 0).1 = .ok ⟨1001⟩ ∧ r.get? ⟨1001⟩ = none ∧
      (new 8).issued changes = [⟨1000⟩, ⟨1001⟩] ∧ ((new 8).after changes).get? ⟨1000⟩ = none := by
  intro session r changes
  obtain ⟨hissues, honce⟩ := handles_fresh (κ := Nat)
  have hsize : r.size < Handle.supply := by decide
  have hok : (r.create 2 0).1 = .ok ⟨1001⟩ := by decide
  have hused : UsedOnce (new 8) changes := honce 8 changes (by decide)
  refine ⟨hsize, hok, ((hissues r 2 0 hsize).fresh _ hok).2.2, by decide, ?_⟩
  cases hs : ((new 8).after changes).get? ⟨1000⟩ with
  | none => rfl
  | some t =>
      have hnone : ((new 8 : Registry Nat).after [.create 1 0, .remove .first]).get? ⟨1000⟩ = none := by decide
      have hsame := hused.lasting [.create 1 0, .remove .first] [.create 1 0] rfl ⟨1000⟩ (by decide) t hs
      exact nomatch hnone.symm.trans hsame

end Registry
end WebServer
