import WebServer.Form.Multipart
import WebServer.Proofs.Text.Search
import WebServer.Proofs.WebSocket.InPlace

/-! # Multipart forms in memory

A reader at work on a body in memory, where sizes have 64 bits: every sum may overflow, every range may leave the body,
and nothing but the body brings its rounds to an end. It has no fault, and answers like `ofMultipart`. -/

namespace WebServer.Form

open WebSocket (Fault addSizes bytesIn addSizes_of_lt bytesIn_of_le)

/-! ## Where a part stands -/

section Places

variable {pattern body : Bytes} {boundary : String} {position start k : Nat} {part : Part}

theorem findFrom?_le (h : findFrom? pattern body start = some k) : start ≤ k ∧ k + pattern.length ≤ body.length := by
  obtain ⟨at_, hat, rfl⟩ := Option.map_eq_some_iff.mp h
  have hpattern : 0 < pattern.length := List.length_pos_iff.mpr (by rintro rfl; cases hat)
  have hle := Bytes.find?_le hat
  rw [List.length_drop] at hle
  omega

/-- A part is found where its delimiter is the end of a line, its lines end, and a delimiter follows its value. -/
theorem partAt?_eq_some_iff : partAt? body boundary position = some part ↔
    Bytes.crlf <+: body.drop position ∧ ∃ headStop stop,
      findFrom? Bytes.blankLine body (position + 2) = some headStop ∧
      findFrom? (Bytes.crlf ++ delimiter boundary) body (headStop + 4) = some stop ∧
      part = {
        head := PartHead.read ((body.drop (position + 2)).take (headStop - (position + 2))), start := headStop + 4,
        stop, next := stop + (Bytes.crlf ++ delimiter boundary).length } := by
  rw [partAt?, ← List.isPrefixOf_iff_prefix]
  cases Bytes.crlf.isPrefixOf (body.drop position) with
  | false => simp
  | true =>
      simp only [Bool.not_true, Bool.false_eq_true, if_false, Option.bind_eq_bind, Option.bind_eq_some_iff,
        Option.some.injEq, @eq_comm _ _ part, true_and, exists_and_left]

/-- The value of a part lies behind its lines, and the delimiter behind the value lies in the body. -/
theorem partAt?_places (h : partAt? body boundary position = some part) :
    position + 6 ≤ part.start ∧ part.start ≤ part.stop ∧
      part.next = part.stop + (Bytes.crlf ++ delimiter boundary).length ∧ part.next ≤ body.length := by
  obtain ⟨-, headStop, stop, hheadStop, hstop, rfl⟩ := partAt?_eq_some_iff.mp h
  obtain ⟨hlines, -⟩ := findFrom?_le hheadStop
  obtain ⟨hvalue, hnext⟩ := findFrom?_le hstop
  exact ⟨by dsimp only; omega, hvalue, rfl, hnext⟩

theorem findFrom?_zero (pattern text : Bytes) : findFrom? pattern text 0 = Bytes.find? pattern text := by
  rw [findFrom?, List.drop_zero]
  exact Option.map_id'

end Places

/-! ## In memory -/

/-- The first position of a pattern at or after a position. -/
def findInPlace (pattern text : Bytes) (start : Nat) : Except Fault (Option Nat) := do
  if text.length < start then return none
  let rest ← bytesIn text start text.length
  match Bytes.find? pattern rest with
  | none => return none
  | some at_ => return some (← addSizes at_ start)

/-- The field of a part that has a name. -/
def fieldInPlace (base : Nat) (head : PartHead) (start stop : Nat) : Except Fault (Option FormField) := do
  match head.name with
  | none => return none
  | some name =>
    let first ← addSizes base start
    let last ← addSizes base stop
    return some {
      name, filename := head.filename, contentType := head.contentType, value := .slice first last }

/-- The field of the part whose lines begin at `headStart`, and where its closing delimiter ends. -/
def linesInPlace (body : Bytes) (boundary : String) (base headStart : Nat) :
    Except Fault (Option (Option FormField × Nat)) := do
  match ← findInPlace Bytes.blankLine body headStart with
  | none => return none
  | some headStop =>
    let headers ← bytesIn body headStart headStop
    let start ← addSizes headStop 4
    let _capacity ← addSizes (delimiter boundary).length 2
    let closing := Bytes.crlf ++ delimiter boundary
    match ← findInPlace closing body start with
    | none => return none
    | some stop =>
      let field ← fieldInPlace base (PartHead.read headers) start stop
      let next ← addSizes stop closing.length
      return some (field, next)

/-- The field of the part whose opening delimiter ends at `position`, and where its closing delimiter ends. -/
def partInPlace (body : Bytes) (boundary : String) (base position : Nat) :
    Except Fault (Option (Option FormField × Nat)) := do
  let rest ← bytesIn body position body.length
  if [45, 45].isPrefixOf rest then return none
  if !Bytes.crlf.isPrefixOf rest then return none
  let headStart ← addSizes position 2
  linesInPlace body boundary base headStart

/-- The fields found so far and those from `position` on; nothing if that takes more rounds. -/
def fieldsInPlace (body : Bytes) (boundary : String) (base : Nat) :
    (rounds : Nat) → (position : Nat) → List FormField → Except Fault (Option (List FormField))
  | 0, _, _ => .ok none
  | rounds + 1, position, found => do
    match ← partInPlace body boundary base position with
    | none => return some found
    | some (field, next) => fieldsInPlace body boundary base rounds next (found ++ field.toList)

/-- The form of a body, unless its reader takes more rounds. -/
def formInPlace (rounds : Nat) (body : Bytes) (boundary : String) (base : Nat) : Except Fault (Option Form) := do
  match ← findInPlace (delimiter boundary) body 0 with
  | none => return some {}
  | some at_ =>
    let position ← addSizes at_ (delimiter boundary).length
    let fields ← fieldsInPlace body boundary base rounds position []
    return fields.map Form.mk

/-! ## The same answers -/

section Answers

variable {body : Bytes} {boundary : String} {base : Nat}

theorem bytesIn_rest {text : Bytes} {start : Nat} (h : start ≤ text.length) :
    bytesIn text start text.length = .ok (text.drop start) := by
  rw [bytesIn_of_le h (Nat.le_refl _), List.take_of_length_le (Nat.le_of_eq List.length_drop)]

theorem findInPlace_eq (hsize : body.length < sizeLimit) (pattern : Bytes) (start : Nat) :
    findInPlace pattern body start = .ok (findFrom? pattern body start) := by
  rw [findInPlace]
  by_cases hstart : body.length < start
  · have hnone : findFrom? pattern body start = none := by
      rw [Option.eq_none_iff_forall_ne_some]
      intro k hk
      have hle := findFrom?_le hk
      omega
    rw [if_pos hstart, hnone]
    rfl
  · rw [if_neg hstart, bytesIn_rest (Nat.le_of_not_lt hstart)]
    cases hfind : Bytes.find? pattern (body.drop start) with
    | none =>
        rw [findFrom?, hfind]
        simp only [bind, Except.bind, hfind]
        rfl
    | some at_ =>
        have hfrom : findFrom? pattern body start = some (at_ + start) := by rw [findFrom?, hfind, Option.map_some]
        have hle := (findFrom?_le hfrom).2
        rw [hfrom]
        simp only [bind, Except.bind, pure, Except.pure, hfind]
        rw [addSizes_of_lt (by omega)]

theorem fieldInPlace_eq (part : Part) (h : part.start ≤ part.stop) (hsize : base + part.stop < sizeLimit) :
    fieldInPlace base part.head part.start part.stop = .ok (part.field? base) := by
  rw [fieldInPlace, Part.field?, addSizes_of_lt hsize, addSizes_of_lt (by omega)]
  cases part.head.name with
  | none => rfl
  | some name => rfl

theorem linesInPlace_eq {position : Nat} (hopens : Bytes.crlf.isPrefixOf (body.drop position) = true)
    (hsize : base + body.length < sizeLimit) (hdelimiter : (delimiter boundary).length + 2 < sizeLimit) :
    linesInPlace body boundary base (position + 2) =
      .ok ((partAt? body boundary position).map fun part => (part.field? base, part.next)) := by
  have hbody : body.length < sizeLimit := by omega
  rw [linesInPlace, partAt?, hopens, Bool.not_true, if_neg Bool.false_ne_true]
  simp only [bind, Except.bind, findInPlace_eq hbody]
  cases hheadStop : findFrom? Bytes.blankLine body (position + 2) with
  | none => rfl
  | some headStop =>
      obtain ⟨hlines, hheadLe⟩ := findFrom?_le hheadStop
      change headStop + 4 ≤ body.length at hheadLe
      dsimp only
      rw [bytesIn_of_le hlines (by omega), addSizes_of_lt (by omega), addSizes_of_lt hdelimiter, Option.bind_some]
      dsimp only
      cases hstop : findFrom? (Bytes.crlf ++ delimiter boundary) body (headStop + 4) with
      | none => rfl
      | some stop =>
          obtain ⟨hvalue, hnext⟩ := findFrom?_le hstop
          let part : Part := {
            head := PartHead.read ((body.drop (position + 2)).take (headStop - (position + 2)))
            start := headStop + 4, stop, next := stop + (Bytes.crlf ++ delimiter boundary).length }
          have hfield := @fieldInPlace_eq base part hvalue (show base + stop < sizeLimit by omega)
          dsimp only
          rw [hfield, addSizes_of_lt (by omega)]
          rfl

/-- Behind an opening delimiter a reader in memory finds what `partAt?` does. The delimiter is no longer than the bytes
up to the position, so that its length overflows no sum. -/
theorem partInPlace_eq {position : Nat} (hsize : base + body.length < sizeLimit)
    (hdelimiter : (delimiter boundary).length ≤ position) (hposition : position ≤ body.length) :
    partInPlace body boundary base position =
      .ok ((partAt? body boundary position).map fun part => (part.field? base, part.next)) := by
  rw [partInPlace, bytesIn_rest hposition]
  simp only [bind, Except.bind]
  by_cases hopens : Bytes.crlf.isPrefixOf (body.drop position) = true
  · obtain ⟨rest, hrest⟩ := List.isPrefixOf_iff_prefix.mp hopens
    have hlast : [45, 45].isPrefixOf (body.drop position) = false := by rw [← hrest]; rfl
    have hlength := congrArg List.length hrest
    rw [List.length_append, List.length_drop] at hlength
    change 2 + rest.length = _ at hlength
    rw [hlast, hopens, if_neg Bool.false_ne_true, Bool.not_true, if_neg Bool.false_ne_true,
      addSizes_of_lt (by omega)]
    exact linesInPlace_eq hopens hsize (by omega)
  · rw [Bool.not_eq_true] at hopens
    rw [partAt?, hopens, Bool.not_false, if_pos rfl, if_pos rfl]
    split <;> rfl

/-- Every part brings the reader further, so that it is through before it has done a round for each byte. -/
theorem fieldsInPlace_eq {rounds fuel position : Nat} (hsize : base + body.length < sizeLimit)
    (hdelimiter : (delimiter boundary).length ≤ position) (hposition : position ≤ body.length)
    (hrounds : body.length < position + rounds) (hfuel : body.length < position + fuel) (found : List FormField) :
    fieldsInPlace body boundary base rounds position found =
      .ok (some (found ++ (partLoop body boundary fuel position).filterMap (Part.field? base))) := by
  induction rounds generalizing fuel position found with
  | zero => omega
  | succ rounds ih =>
      obtain ⟨fuel, rfl⟩ := Nat.exists_eq_add_one_of_ne_zero (show fuel ≠ 0 by omega)
      rw [fieldsInPlace, partInPlace_eq hsize hdelimiter hposition, partLoop]
      simp only [bind, Except.bind]
      cases hpart : partAt? body boundary position with
      | none => simp [pure, Except.pure]
      | some part =>
          obtain ⟨hstart, hstop, hnext, hle⟩ := partAt?_places hpart
          have hrest := ih (show _ ≤ part.next by omega) hle (by omega) (show _ < part.next + fuel by omega)
            (found ++ (part.field? base).toList)
          dsimp only [Option.map_some]
          rw [hrest, List.append_assoc]
          cases hfield : part.field? base with
          | none => rw [List.filterMap_cons_none hfield, Option.toList_none, List.nil_append]
          | some field => rw [List.filterMap_cons_some hfield, Option.toList_some, List.singleton_append]

/-- A reader in memory has no fault, and after a round for each byte at most it answers like `ofMultipart`. -/
theorem formInPlace_eq {rounds : Nat} (hrounds : body.length ≤ rounds) (hsize : base + body.length < sizeLimit)
    (boundary : String) : formInPlace rounds body boundary base = .ok (some (ofMultipart body boundary base)) := by
  rw [formInPlace, findInPlace_eq (by omega), findFrom?_zero, ofMultipart, parts]
  simp only [bind, Except.bind]
  cases hfind : Bytes.find? (delimiter boundary) body with
  | none => rfl
  | some at_ =>
      have hle := Bytes.find?_le hfind
      have hpositive : 0 < (delimiter boundary).length := by simp [delimiter]
      dsimp only
      rw [addSizes_of_lt (by omega)]
      dsimp only
      rw [fieldsInPlace_eq hsize (Nat.le_add_left _ _) hle (by omega) (show _ < _ + body.length by omega)]
      rfl

end Answers

end WebServer.Form
