import WebServer.Form.Multipart
import WebServer.Proofs.Form.Parameters
import WebServer.Proofs.Text.Lines

/-! # Parts written and read

The parts of a form are read back from the body that they were written to, each with its whole value: the delimiter
behind a value is the first one that stands in it. -/

namespace WebServer

namespace Text

theorem carriageReturn_not_mem_utf8 {s : String} (h : '\r' ∉ s.toList) : 13 ∉ utf8 s := by
  intro hmem
  obtain ⟨c, hc, hb⟩ := List.mem_flatMap.mp hmem
  obtain rfl : c = '\r' := Char.toNat_inj.mp (eq_of_mem_utf8EncodeChar hb (by decide)).2
  exact h hc

end Text

namespace Bytes

variable {text : Bytes} {start stop : Nat}

theorem slice_of_le (h : start ≤ stop) (hstop : stop ≤ text.length) :
    slice text start stop = (text.drop start).take (stop - start) :=
  if_pos ⟨h, hstop⟩

/-- A range of a text is the same bytes within a longer one. -/
theorem slice_shift (h : start ≤ stop) (hstop : stop ≤ text.length) (front rest : Bytes) :
    slice (front ++ text ++ rest) (front.length + start) (front.length + stop) = slice text start stop := by
  have hlength : front.length + stop ≤ (front ++ text ++ rest).length := by
    simp only [List.length_append]
    omega
  rw [slice_of_le (Nat.add_le_add_left h _) hlength, slice_of_le h hstop, List.append_assoc,
    ← List.drop_drop, List.drop_left' rfl, List.drop_append_of_le_length (by omega),
    Nat.add_sub_add_left, List.take_append_of_le_length]
  rw [List.length_drop]
  omega

theorem slice_append (front value rest : Bytes) :
    slice (front ++ value ++ rest) front.length (front.length + value.length) = value := by
  have hslice := @slice_shift value 0 value.length (Nat.zero_le _) (Nat.le_refl _) front rest
  rw [Nat.add_zero] at hslice
  rw [hslice, slice_of_le (Nat.zero_le _) (Nat.le_refl _)]
  exact List.take_length

end Bytes

namespace Form

open Text (OneLine)

/-! ## Parts as they are written -/

/-- What a part is written from. -/
structure Item where
  name : String
  filename : Option String := none
  contentType : Option String := none
  value : Bytes
deriving DecidableEq, Repr

def headerLine (name : String) (value : List Char) : List Char :=
  name.toList ++ ':' :: ' ' :: value

namespace Item

def parameters (i : Item) : List (String × String) :=
  ("name", i.name) :: (i.filename.map fun filename => ("filename", filename)).toList

def disposition (i : Item) : List Char :=
  headerLine "Content-Disposition" ("form-data".toList ++ i.parameters.flatMap parameterText)

def lines (i : Item) : List (List Char) :=
  i.disposition :: (i.contentType.map fun type => headerLine "Content-Type" type.toList).toList

/-- The bytes of the lines. -/
def block (i : Item) : Bytes :=
  Text.encode (Text.joinLines i.lines)

/-- The opening delimiter, the lines, an empty line and the value, up to the delimiter behind it. -/
def bytes (boundary : String) (i : Item) : Bytes :=
  delimiter boundary ++ (Bytes.crlf ++ (i.block ++ (Bytes.blankLine ++ (i.value ++ Bytes.crlf))))

/-- What is to be read from the lines: no blanks stand around the content type. -/
def head (i : Item) : PartHead where
  name := some i.name
  filename := i.filename
  contentType := i.contentType.map fun type => String.ofList (Text.trim type.toList)

/-- A part whose lines end where they should, and whose value is not cut by a delimiter. -/
structure Writable (boundary : String) (i : Item) : Prop where
  name : OneLine i.name.toList
  filename : ∀ filename ∈ i.filename, OneLine filename.toList
  contentType : ∀ type ∈ i.contentType, OneLine type.toList
  value : ¬ Bytes.crlf ++ delimiter boundary <:+: i.value

end Item

/-- The delimiter behind the last part. -/
def closing (boundary : String) : Bytes :=
  delimiter boundary ++ [45, 45]

/-- A body with the given parts. -/
def write (boundary : String) (items : List Item) : Bytes :=
  items.flatMap (Item.bytes boundary) ++ (closing boundary ++ Bytes.crlf)

/-! ## The lines of a part -/

namespace Item

variable {boundary : String} {i : Item}

theorem isKey_of_mem {p : String × String} (hp : p ∈ i.parameters) : IsKey p.1 := by
  have hname : IsKey "name" := ⟨by decide, by simp⟩
  have hfilename : IsKey "filename" := ⟨by decide, by simp⟩
  rcases List.mem_cons.mp hp with rfl | hp
  · exact hname
  · cases hf : i.filename with
    | none => simp [hf] at hp
    | some filename =>
        rw [hf] at hp
        obtain rfl := List.mem_singleton.mp hp
        exact hfilename

theorem Writable.oneLine_of_mem (hi : i.Writable boundary) {p : String × String} (hp : p ∈ i.parameters) :
    OneLine p.2.toList := by
  rcases List.mem_cons.mp hp with rfl | hp
  · exact hi.name
  · cases hf : i.filename with
    | none => simp [hf] at hp
    | some filename =>
        rw [hf] at hp
        obtain rfl := List.mem_singleton.mp hp
        exact hi.filename filename hf

theorem oneLine_headerLine {name : String} (hname : ∀ c ∈ name.toList, c ≠ '\r') {value : List Char}
    (hvalue : OneLine value) : OneLine (headerLine name value) :=
  OneLine.prepend hname ((hvalue.cons fun h => absurd h (by decide)).cons fun h => absurd h (by decide))

theorem Writable.oneLine (hi : i.Writable boundary) : ∀ line ∈ i.lines, OneLine line := by
  intro line hline
  rcases List.mem_cons.mp hline with rfl | hline
  · refine oneLine_headerLine (by simp) (OneLine.prepend (by simp) (oneLine_parameters fun p hp => ?_))
    exact ⟨isKey_of_mem hp, hi.oneLine_of_mem hp⟩
  · cases ht : i.contentType with
    | none => simp [ht] at hline
    | some type =>
        rw [ht] at hline
        obtain rfl := List.mem_singleton.mp hline
        exact oneLine_headerLine (by simp) (hi.contentType type ht)

theorem withLine_disposition (h : PartHead) (i : Item) :
    h.withLine i.disposition = i.parameters.foldl PartHead.withParameter h := by
  obtain ⟨cs, hcs⟩ : ∃ cs, i.parameters.flatMap parameterText = ';' :: cs :=
    ⟨_, flatMap_parameterText _ _⟩
  have hcolon : Text.cut? (· == ':') i.disposition =
      some ("Content-Disposition".toList, ' ' :: "form-data".toList ++ ';' :: cs) := by
    rw [disposition, hcs]
    exact Text.cut?_append (by simp) rfl _
  have hsemicolon : Text.cut? (· == ';') (' ' :: "form-data".toList ++ ';' :: cs) = some (' ' :: "form-data".toList, cs) :=
    Text.cut?_append (by simp) rfl _
  have hname : Text.sameName (String.ofList (Text.trim "Content-Disposition".toList)) "Content-Disposition" = true := by
    decide
  rw [PartHead.withLine, hcolon]
  dsimp only
  rw [if_pos hname, hsemicolon]
  dsimp only [Option.map_some, Option.getD_some]
  rw [parameters_text (fun p hp => isKey_of_mem hp) hcs]

theorem withLine_contentType (h : PartHead) (type : String) :
    h.withLine (headerLine "Content-Type" type.toList) =
      { h with contentType := some (String.ofList (Text.trim type.toList)) } := by
  have hcolon : Text.cut? (· == ':') (headerLine "Content-Type" type.toList) =
      some ("Content-Type".toList, ' ' :: type.toList) :=
    Text.cut?_append (by simp) rfl _
  have hdisposition : Text.sameName (String.ofList (Text.trim "Content-Type".toList)) "Content-Disposition" = false := by
    decide
  have hname : Text.sameName (String.ofList (Text.trim "Content-Type".toList)) "Content-Type" = true := by decide
  rw [PartHead.withLine, hcolon]
  dsimp only
  rw [hdisposition, if_neg Bool.false_ne_true, if_pos hname, Text.trim_space]

/-- What the lines say is read back. -/
theorem Writable.read_block (hi : i.Writable boundary) : PartHead.read i.block = i.head := by
  have hparameters : i.parameters.foldl PartHead.withParameter {} =
      { name := some i.name, filename := i.filename, contentType := none } := by
    have hname : ∀ h : PartHead, h.withParameter ("name", i.name) = { h with name := some i.name } := fun h => rfl
    have hfilename : ∀ (h : PartHead) filename,
        h.withParameter ("filename", filename) = { h with filename := some filename } := fun h filename => rfl
    rw [Item.parameters, List.foldl_cons, hname]
    cases i.filename with
    | none => rfl
    | some filename => exact hfilename _ _
  rw [PartHead.read, block, Text.decodeLossy_encode, lines, Text.lines_joinLines hi.oneLine, List.foldl_cons,
    withLine_disposition, hparameters, head]
  cases i.contentType with
  | none => rfl
  | some type => exact withLine_contentType _ type

theorem Writable.find?_blankLine (hi : i.Writable boundary) (rest : Bytes) :
    Bytes.find? Bytes.blankLine (i.block ++ (Bytes.blankLine ++ rest)) = some i.block.length := by
  have hne : ∀ line ∈ (i.contentType.map fun type => headerLine "Content-Type" type.toList).toList, line ≠ [] := by
    intro line hline
    cases ht : i.contentType with
    | none => simp [ht] at hline
    | some type =>
        rw [ht] at hline
        obtain rfl := List.mem_singleton.mp hline
        simp [headerLine]
  have hfind := Bytes.findLoop_joinLines hi.oneLine hne rest 0
  rw [Nat.zero_add] at hfind
  rw [Bytes.find?_of_ne_nil (by decide)]
  exact hfind

end Item

/-! ## Parts that are read -/

section Reading

variable {boundary : String}

theorem findFrom?_append {front : Bytes} {start : Nat} (h : front.length = start) (pattern text : Bytes) :
    findFrom? pattern (front ++ text) start = (Bytes.find? pattern text).map (· + start) := by
  rw [findFrom?, List.drop_left' h]

/-- The delimiter behind a value is found where it was put. -/
theorem Item.Writable.find?_delimiter {i : Item} (hi : i.Writable boundary) (hb : '\r' ∉ boundary.toList)
    (rest : Bytes) :
    Bytes.find? (Bytes.crlf ++ delimiter boundary) (i.value ++ (Bytes.crlf ++ delimiter boundary ++ rest)) =
      some i.value.length := by
  refine Bytes.find?_append_self ?_ hi.value rest
  have hplain := Text.carriageReturn_not_mem_utf8 hb
  simp [delimiter, hplain]

/-- A part in a body says what it was written from. -/
structure Part.Reads (body : Bytes) (part : Part) (i : Item) : Prop where
  head : part.head = i.head
  start_le : part.start ≤ part.stop
  stop_le : part.stop ≤ body.length
  value : Bytes.slice body part.start part.stop = i.value

/-- The part behind an opening delimiter is read up to the next delimiter. -/
theorem Item.Writable.partAt?_eq {i : Item} (hi : i.Writable boundary) (hb : '\r' ∉ boundary.toList)
    (front rest : Bytes) :
    let body := front ++ (i.bytes boundary ++ (delimiter boundary ++ rest))
    ∃ part, partAt? body boundary (front.length + (delimiter boundary).length) = some part ∧ part.Reads body i ∧
      part.next = (front ++ i.bytes boundary).length + (delimiter boundary).length := by
  intro body
  -- The body up to the lines, up to the value, and what follows the value.
  let lead := front ++ delimiter boundary ++ Bytes.crlf
  let before := lead ++ i.block ++ Bytes.blankLine
  let behind := Bytes.crlf ++ delimiter boundary ++ rest
  have hvalue : body = before ++ (i.value ++ behind) := by
    simp only [body, before, lead, behind, bytes, List.append_assoc]
  have hlines : body = lead ++ (i.block ++ (Bytes.blankLine ++ (i.value ++ behind))) := by
    rw [hvalue]
    simp only [before, List.append_assoc]
  have hlead : lead.length = front.length + (delimiter boundary).length + 2 := by
    rw [List.length_append, List.length_append]
    rfl
  have hbefore : before.length = i.block.length + lead.length + 4 := by
    rw [List.length_append, List.length_append, Nat.add_comm lead.length]
    rfl
  have hcrlf : Bytes.crlf.isPrefixOf (body.drop (front.length + (delimiter boundary).length)) = true := by
    have hfront : (front ++ delimiter boundary).length = front.length + (delimiter boundary).length :=
      List.length_append
    rw [hlines]
    simp only [lead]
    rw [List.append_assoc (front ++ delimiter boundary), List.drop_left' hfront, List.isPrefixOf_iff_prefix]
    exact List.prefix_append _ _
  have hheadStop : findFrom? Bytes.blankLine body lead.length = some (i.block.length + lead.length) := by
    rw [hlines, findFrom?_append rfl, hi.find?_blankLine, Option.map_some]
  have hstop : findFrom? (Bytes.crlf ++ delimiter boundary) body before.length =
      some (i.value.length + before.length) := by
    rw [hvalue, findFrom?_append rfl, hi.find?_delimiter hb, Option.map_some]
  have hhead : PartHead.read ((body.drop lead.length).take (i.block.length + lead.length - lead.length)) = i.head := by
    rw [hlines, List.drop_left' rfl, Nat.add_sub_cancel, List.take_left' rfl, hi.read_block]
  let part : Part := {
    head := i.head, start := before.length, stop := i.value.length + before.length,
    next := i.value.length + before.length + (Bytes.crlf ++ delimiter boundary).length }
  refine ⟨part, ?_, ?_, ?_⟩
  · rw [partAt?, hcrlf, Bool.not_true, if_neg Bool.false_ne_true, ← hlead]
    dsimp only
    rw [hheadStop, Option.bind_eq_bind, Option.bind_some, ← hbefore, hstop, Option.bind_some, hhead]
  · refine ⟨rfl, Nat.le_add_left _ _, ?_, ?_⟩
    · change i.value.length + before.length ≤ body.length
      rw [hvalue, @List.length_append _ before, @List.length_append _ i.value]
      omega
    · change Bytes.slice body before.length (i.value.length + before.length) = i.value
      rw [hvalue, ← List.append_assoc, Nat.add_comm i.value.length]
      exact Bytes.slice_append before i.value behind
  · change i.value.length + before.length + (Bytes.crlf ++ delimiter boundary).length = _
    rw [hbefore, hlead, bytes]
    simp only [List.length_append, Bytes.crlf, Bytes.blankLine, List.length_cons, List.length_nil]
    omega

theorem write_begins (boundary : String) (items : List Item) :
    ∃ rest, write boundary items = delimiter boundary ++ rest := by
  cases items with
  | nil => exact ⟨_, List.append_assoc _ _ _⟩
  | cons i items =>
      rw [write, List.flatMap_cons, Item.bytes, List.append_assoc, List.append_assoc]
      exact ⟨_, rfl⟩

theorem write_cons (boundary : String) (i : Item) (items : List Item) :
    write boundary (i :: items) = i.bytes boundary ++ write boundary items := by
  rw [write, List.flatMap_cons, List.append_assoc]
  rfl

/-- Behind the last part no other begins. -/
theorem partAt?_closing (front : Bytes) (boundary : String) :
    partAt? (front ++ write boundary []) boundary (front.length + (delimiter boundary).length) = none := by
  have hfront : (front ++ delimiter boundary).length = front.length + (delimiter boundary).length :=
    List.length_append
  have hbody : front ++ write boundary [] = front ++ delimiter boundary ++ [45, 45, 13, 10] := by
    rw [write, closing, List.flatMap_nil, List.nil_append, List.append_assoc, List.append_assoc]
    rfl
  rw [partAt?, hbody, List.drop_left' hfront]
  rfl

/-- The parts are read one by one, whatever stands before them. -/
theorem partLoop_write {items : List Item} (h : ∀ i ∈ items, i.Writable boundary) (hb : '\r' ∉ boundary.toList)
    (front : Bytes) {fuel : Nat} (hfuel : items.length ≤ fuel) :
    List.Forall₂ (Part.Reads (front ++ write boundary items))
      (partLoop (front ++ write boundary items) boundary fuel (front.length + (delimiter boundary).length)) items := by
  induction items generalizing front fuel with
  | nil =>
      cases fuel with
      | zero => exact .nil
      | succ fuel =>
          rw [partLoop, partAt?_closing]
          exact .nil
  | cons i items ih =>
      obtain ⟨fuel, rfl⟩ : ∃ n, fuel = n + 1 := ⟨fuel - 1, by rw [List.length_cons] at hfuel; omega⟩
      rw [List.forall_mem_cons] at h
      obtain ⟨rest, hrest⟩ := write_begins boundary items
      obtain ⟨part, hpart, hreads, hnext⟩ := h.1.partAt?_eq hb front rest
      rw [← hrest, ← write_cons] at hpart hreads
      rw [partLoop, hpart]
      refine .cons hreads ?_
      rw [hnext, write_cons, ← List.append_assoc]
      exact ih h.2 (front ++ i.bytes boundary) (Nat.le_of_succ_le_succ hfuel)

theorem parts_write {items : List Item} (h : ∀ i ∈ items, i.Writable boundary) (hb : '\r' ∉ boundary.toList) :
    List.Forall₂ (Part.Reads (write boundary items)) (parts (write boundary items) boundary) items := by
  have hfind : Bytes.find? (delimiter boundary) (write boundary items) = some 0 := by
    obtain ⟨rest, hrest⟩ := write_begins boundary items
    have hne : delimiter boundary ≠ [] := by simp [delimiter]
    rw [hrest, Bytes.find?_of_ne_nil hne, Bytes.findLoop_self hne]
  have hlength : items.length ≤ (write boundary items).length := by
    have hle : items.length ≤ (items.flatMap (Item.bytes boundary)).length :=
      Text.length_le_flatMap (fun i => by simp [Item.bytes, delimiter]) items
    rw [write, List.length_append]
    exact Nat.le_trans hle (Nat.le_add_right _ _)
  rw [parts, hfind]
  exact partLoop_write h hb [] hlength

end Reading

/-! ## Fields that are read -/

/-- A field gives back what a part was written from; its value is a range of the bytes that hold the body. -/
structure Item.IsField (i : Item) (raw : Bytes) (field : FormField) : Prop where
  name : field.name = i.name
  filename : field.filename = i.filename
  contentType : field.contentType = i.contentType.map fun type => String.ofList (Text.trim type.toList)
  range : ∃ start stop, field.value = .slice start stop
  value : field.value.resolve raw = i.value

theorem Part.Reads.field {body : Bytes} {part : Part} {i : Item} (h : part.Reads body i) (front rest : Bytes) :
    ∃ field, part.field? front.length = some field ∧ i.IsField (front ++ body ++ rest) field := by
  have hname : part.head.name = some i.name := by rw [h.head]; rfl
  refine ⟨_, by rw [Part.field?, hname]; rfl, rfl, ?_, ?_, ⟨_, _, rfl⟩, ?_⟩
  · dsimp only
    rw [h.head]
    rfl
  · dsimp only
    rw [h.head]
    rfl
  · dsimp only [FieldValue.resolve]
    rw [Bytes.slice_shift h.start_le h.stop_le, h.value]

/-- The fields of a body are the parts that it was written from, wherever the body stands. -/
theorem ofMultipart_write {boundary : String} {items : List Item} (h : ∀ i ∈ items, i.Writable boundary)
    (hb : '\r' ∉ boundary.toList) (front rest : Bytes) :
    List.Forall₂ (fun i field => i.IsField (front ++ write boundary items ++ rest) field) items
      (ofMultipart (write boundary items) boundary front.length).fields := by
  have hparts := parts_write h hb
  revert hparts
  rw [ofMultipart]
  generalize write boundary items = body
  generalize parts body boundary = ps
  intro hparts
  induction hparts with
  | nil => exact .nil
  | @cons part i ps items hpart _ ih =>
      rw [List.forall_mem_cons] at h
      obtain ⟨field, hfield, hreads⟩ := hpart.field front rest
      dsimp only
      rw [List.filterMap_cons_some hfield]
      exact .cons hreads (ih h.2)

end Form
end WebServer
