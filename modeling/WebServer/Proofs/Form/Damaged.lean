import WebServer.Proofs.Form.InPlace
import WebServer.Proofs.Form.Parts

/-! # Damaged forms

Whatever a body is, bytes behind it add fields to its form and take none away. The values of a form are ranges of the
body, one behind the other, with a delimiter between them. -/

namespace WebServer.Form

variable {body : Bytes} {boundary : String} {position : Nat}

/-! ## Longer bodies -/

theorem findFrom?_more {pattern : Bytes} {k : Nat} (h : findFrom? pattern body position = some k) (more : Bytes) :
    findFrom? pattern (body ++ more) position = some k := by
  obtain ⟨hstart, hle⟩ := findFrom?_le h
  obtain ⟨at_, hat, rfl⟩ := Option.map_eq_some_iff.mp h
  rw [findFrom?, List.drop_append_of_le_length (by omega), Bytes.find?_append hat, Option.map_some]

/-- A part that is complete is not changed by what follows. -/
theorem partAt?_more {part : Part} (h : partAt? body boundary position = some part) (more : Bytes) :
    partAt? (body ++ more) boundary position = some part := by
  obtain ⟨hopens, headStop, stop, hheadStop, hstop, hpart⟩ := partAt?_eq_some_iff.mp h
  obtain ⟨hlines, hle⟩ := findFrom?_le hheadStop
  have hdrop : (body ++ more).drop position = body.drop position ++ more :=
    List.drop_append_of_le_length (by omega)
  have hhead : ((body ++ more).drop (position + 2)).take (headStop - (position + 2)) =
      (body.drop (position + 2)).take (headStop - (position + 2)) := by
    rw [List.drop_append_of_le_length (by omega), List.take_append_of_le_length]
    rw [List.length_drop]
    omega
  refine partAt?_eq_some_iff.mpr ⟨?_, headStop, stop, findFrom?_more hheadStop more, findFrom?_more hstop more, ?_⟩
  · rw [hdrop]
    exact hopens.trans (List.prefix_append _ _)
  · rw [hhead, hpart]

/-- Where the shorter body has no further part the longer one may have some; up to there they have the same. -/
theorem partLoop_more {fuel fuel' : Nat} (hfuel : fuel ≤ fuel') (position : Nat) (more : Bytes) :
    partLoop body boundary fuel position <+: partLoop (body ++ more) boundary fuel' position := by
  induction fuel generalizing fuel' position with
  | zero => exact List.nil_prefix
  | succ fuel ih =>
      obtain ⟨fuel', rfl⟩ := Nat.exists_eq_add_one_of_ne_zero (show fuel' ≠ 0 by omega)
      rw [partLoop]
      cases hpart : partAt? body boundary position with
      | none => exact List.nil_prefix
      | some part =>
          rw [partLoop, partAt?_more hpart]
          exact List.cons_prefix_cons.mpr ⟨rfl, ih (Nat.le_of_succ_le_succ hfuel) part.next⟩

theorem parts_more (body : Bytes) (boundary : String) (more : Bytes) :
    parts body boundary <+: parts (body ++ more) boundary := by
  rw [parts]
  cases hfind : Bytes.find? (delimiter boundary) body with
  | none => exact List.nil_prefix
  | some at_ =>
      rw [parts, Bytes.find?_append hfind]
      refine partLoop_more ?_ _ more
      rw [List.length_append]
      exact Nat.le_add_right _ _

/-! ## Ranges -/

/-- The value of a part lies behind the delimiter before the part, and in the body. -/
theorem partLoop_places {fuel : Nat} : ∀ part ∈ partLoop body boundary fuel position,
    position ≤ part.start ∧ part.start ≤ part.stop ∧ part.stop ≤ body.length := by
  induction fuel generalizing position with
  | zero =>
      rw [partLoop]
      exact List.forall_mem_nil _
  | succ fuel ih =>
      rw [partLoop]
      cases hpart : partAt? body boundary position with
      | none => exact List.forall_mem_nil _
      | some part =>
          obtain ⟨hstart, hstop, hnext, hle⟩ := partAt?_places hpart
          refine List.forall_mem_cons.mpr ⟨by omega, fun q hq => ?_⟩
          obtain ⟨hq, hrest⟩ := ih q hq
          exact ⟨by omega, hrest⟩

/-- Between the values of two parts there is a delimiter. -/
theorem partLoop_spaced {fuel : Nat} : (partLoop body boundary fuel position).Pairwise fun p q =>
    p.stop + (Bytes.crlf ++ delimiter boundary).length ≤ q.start := by
  induction fuel generalizing position with
  | zero => exact .nil
  | succ fuel ih =>
      rw [partLoop]
      cases hpart : partAt? body boundary position with
      | none => exact .nil
      | some part =>
          obtain ⟨-, -, hnext, -⟩ := partAt?_places hpart
          exact .cons (fun q hq => hnext ▸ (partLoop_places q hq).1) ih

/-- Values that are ranges of the bytes from `first` up to `last`, each at least `gap` behind the one before it. -/
structure Ranged (gap first last : Nat) (values : List FieldValue) (ranges : List (Nat × Nat)) : Prop where
  slices : values = ranges.map fun r => .slice r.1 r.2
  within : ∀ r ∈ ranges, first ≤ r.1 ∧ r.1 ≤ r.2 ∧ r.2 ≤ last
  spaced : ranges.Pairwise fun r s => r.2 + gap ≤ s.1

theorem map_value_filterMap (base : Nat) (ps : List Part) :
    (ps.filterMap (Part.field? base)).map FormField.value =
      (ps.filter fun p => p.head.name.isSome).map fun p => .slice (base + p.start) (base + p.stop) := by
  induction ps with
  | nil => rfl
  | cons p ps ih =>
      cases hname : p.head.name with
      | none =>
          have hfield : p.field? base = none := by rw [Part.field?, hname]; rfl
          rw [List.filterMap_cons_none hfield, ih, List.filter_cons_of_neg (by simp [hname])]
      | some name =>
          have hfield : p.field? base = some {
              name, filename := p.head.filename, contentType := p.head.contentType,
              value := .slice (base + p.start) (base + p.stop) } := by
            rw [Part.field?, hname]
            rfl
          rw [List.filterMap_cons_some hfield, List.filter_cons_of_pos (by simp [hname]), List.map_cons, List.map_cons, ih]

theorem ranged_of_parts {ps : List Part} {gap last : Nat} (base : Nat)
    (hwithin : ∀ p ∈ ps, p.start ≤ p.stop ∧ p.stop ≤ last) (hspaced : ps.Pairwise fun p q => p.stop + gap ≤ q.start) :
    ∃ ranges, Ranged gap base (base + last) ((ps.filterMap (Part.field? base)).map FormField.value) ranges := by
  let named := ps.filter fun p => p.head.name.isSome
  refine ⟨named.map fun p => (base + p.start, base + p.stop), ?_, ?_, ?_⟩
  · rw [map_value_filterMap, List.map_map]
    rfl
  · intro r hr
    obtain ⟨p, hp, rfl⟩ := List.mem_map.mp hr
    obtain ⟨hstart, hstop⟩ := hwithin p (List.mem_filter.mp hp).1
    dsimp only
    omega
  · refine List.pairwise_map.mpr ((hspaced.filter _).imp fun h => ?_)
    dsimp only
    omega

/-! ## Forms -/

/-- What is left of a form when its body is damaged. Its reader comes to an end in memory, without a fault; the fields
are the first ones of any longer body; and every value is a range of the body, with a delimiter in front of the next. -/
structure Degrades (body more : Bytes) (boundary : String) (base : Nat) : Prop where
  ends : ∀ rounds, body.length ≤ rounds →
    formInPlace rounds body boundary base = .ok (some (ofMultipart body boundary base))
  kept : (ofMultipart body boundary base).fields <+: (ofMultipart (body ++ more) boundary base).fields
  ranged : ∃ ranges, Ranged (Bytes.crlf ++ delimiter boundary).length base (base + body.length)
    ((ofMultipart body boundary base).fields.map FormField.value) ranges

/-- Damage costs a form only the fields that it reaches. -/
theorem degrades_of_lt {body more : Bytes} {base : Nat} (h : base + (body ++ more).length < sizeLimit)
    (boundary : String) : Degrades body more boundary base where
  ends rounds hrounds := by
    rw [List.length_append] at h
    exact formInPlace_eq hrounds (by omega) boundary
  kept := (parts_more body boundary more).filterMap _
  ranged := by
    rw [ofMultipart, parts]
    cases Bytes.find? (delimiter boundary) body with
    | none => exact ⟨[], rfl, List.forall_mem_nil _, .nil⟩
    | some at_ => exact ranged_of_parts base (fun p hp => (partLoop_places p hp).2) partLoop_spaced

/-- The second of two fields is cut off within the delimiter behind its value, and is there once the rest has come. -/
theorem degrades_of_lt_of_cut :
    let first : Item := { name := "ok", value := [49] }
    let second : Item := { name := "cut", value := Text.utf8 "--b2--" }
    let whole := write "b" [first, second]
    let body := whole.take (whole.length - 8)
    let more := whole.drop (whole.length - 8)
    4 + (body ++ more).length < sizeLimit ∧ Degrades body more "b" 4 ∧
      ((ofMultipart body "b" 4).fields.map FormField.name = ["ok"] ∧
        (ofMultipart (body ++ more) "b" 4).fields.map FormField.name = ["ok", "cut"]) := by
  intro first second whole body more
  have hsize : 4 + (body ++ more).length < sizeLimit := by decide +kernel
  exact ⟨hsize, degrades_of_lt hsize "b", by decide +kernel⟩

end WebServer.Form
