import WebServer.Proofs.Form.Parts

/-! # Forms sent and read

The content type of a form gives the boundary as a quoted parameter. A reader that goes by it finds the parts that the
body was written from, and nothing else. -/

namespace WebServer

namespace Form

/-! ## The content type -/

/-- A content type with quoted parameters. -/
def typeText (media : String) (parameters : List (String × String)) : String :=
  String.ofList (media.toList ++ parameters.flatMap parameterText)

/-- A content type of multipart form data; of the parameters that are called boundary the first one counts. -/
structure GivesBoundary (media : String) (parameters : List (String × String)) (boundary : String) : Prop where
  media : Text.sameName (String.ofList (Text.trim media.toList)) "multipart/form-data" = true
  keys : ∀ p ∈ parameters, IsKey p.1
  first : (parameters.find? fun p => Text.sameName p.1 "boundary").map Prod.snd = some boundary
  ne_empty : boundary ≠ ""

namespace GivesBoundary

variable {media boundary : String} {ps : List (String × String)}

theorem plain_media (h : GivesBoundary media ps boundary) : ∀ c ∈ media.toList, (c == ';') = false := by
  intro c hc
  refine beq_eq_false_iff_ne.mpr ?_
  rintro rfl
  have htrim : ';' ∈ (String.ofList (Text.trim media.toList)).toList := by
    rw [String.toList_ofList]
    exact Text.mem_trim (by decide) hc
  exact absurd (Text.sameName_mem h.media htrim) (by decide)

/-- The boundary is read from the content type. -/
theorem boundary?_eq (h : GivesBoundary media ps boundary) : boundary? (typeText media ps) = some boundary := by
  obtain ⟨p, hp, hvalue⟩ := Option.map_eq_some_iff.mp h.first
  obtain ⟨cs, hcs⟩ : ∃ cs, ps.flatMap parameterText = ';' :: cs := by
    cases ps with
    | nil => cases hp
    | cons p ps => exact ⟨_, flatMap_parameterText p ps⟩
  have htext : (typeText media ps).toList = media.toList ++ ';' :: cs := by
    rw [typeText, String.toList_ofList, hcs]
  have hmedia : mediaType (typeText media ps) = String.ofList (Text.trim media.toList) := by
    have hplain : ∀ c ∈ media.toList, (c != ';') = true := fun c hc => by rw [bne, h.plain_media c hc, Bool.not_false]
    rw [mediaType, htext, List.takeWhile_append_of_pos hplain, List.takeWhile_cons_of_neg (by decide), List.append_nil]
  have hcut : Text.cut? (· == ';') (typeText media ps).toList = some (media.toList, cs) := by
    rw [htext]
    exact Text.cut?_append h.plain_media (by decide) cs
  have hne : boundary.isEmpty = false := by
    rw [Bool.eq_false_iff, ne_eq, String.isEmpty_iff]
    exact h.ne_empty
  rw [boundary?, hmedia, h.media, Bool.not_true, if_neg Bool.false_ne_true, hcut]
  simp only [Option.bind_eq_bind, Option.bind_some, parameters_text h.keys hcs, hp, hvalue, hne]
  rfl

end GivesBoundary

/-! ## The whole form -/

namespace Item

/-- What a field says, given the request that it was read from. -/
def ofField (raw : Bytes) (field : FormField) : Item where
  name := field.name
  filename := field.filename
  contentType := field.contentType
  value := field.value.resolve raw

/-- No blanks stand around the content type. -/
def Trimmed (i : Item) : Prop :=
  ∀ type ∈ i.contentType, Text.trim type.toList = type.toList

variable {i : Item} {raw : Bytes} {field : FormField}

theorem Trimmed.map_trim (h : i.Trimmed) :
    (i.contentType.map fun type => String.ofList (Text.trim type.toList)) = i.contentType := by
  rw [Trimmed] at h
  cases ht : i.contentType with
  | none => rfl
  | some type => rw [Option.map_some, h type ht, String.ofList_toList]

theorem IsField.ofField_eq (h : i.IsField raw field) (htrim : i.Trimmed) : ofField raw field = i := by
  rw [ofField, h.name, h.filename, h.contentType, htrim.map_trim, h.value]

end Item

/-- A form is read back as it was written: the fields of its body are its parts, in their order, and every value is a
range of the request. -/
theorem ofBody_write {media boundary : String} {parameters : List (String × String)} {items : List Item}
    (htype : GivesBoundary media parameters boundary) (hplain : '\r' ∉ boundary.toList)
    (h : ∀ i ∈ items, i.Writable boundary ∧ i.Trimmed) (front rest : Bytes) :
    let fields := (ofBody (typeText media parameters) (write boundary items) front.length).fields
    fields.map (Item.ofField (front ++ write boundary items ++ rest)) = items ∧
      ∀ field ∈ fields, ∃ start stop, field.value = .slice start stop := by
  have hfields := ofMultipart_write (fun i hi => (h i hi).1) hplain front rest
  rw [ofBody, htype.boundary?_eq]
  dsimp only
  revert hfields
  generalize (ofMultipart (write boundary items) boundary front.length).fields = fields
  generalize front ++ write boundary items ++ rest = raw
  intro hfields
  induction hfields with
  | nil => exact ⟨rfl, List.forall_mem_nil _⟩
  | @cons i field items fields hfield _ ih =>
      rw [List.forall_mem_cons] at h
      obtain ⟨hitems, hranges⟩ := ih h.2
      refine ⟨?_, List.forall_mem_cons.mpr ⟨hfield.range, hranges⟩⟩
      rw [List.map_cons, hfield.ofField_eq h.1.2, hitems]

/-- A boundary with a quote in it, two fields of one name, the second of them empty, and a file whose value holds the
delimiter without the end of a line before it. -/
theorem ofBody_write_of_escapes :
    let parameters := [("charset", "a;b"), ("Boundary", "q\"\\;"), ("boundary", "x")]
    let items : List Item := [
      { name := "tag \"a\"", value := [13, 10, 45] },
      { name := "tag \"a\"", value := [] },
      { name := "", filename := some "a\\;=.txt", contentType := some "text/plain; x", value := delimiter "q\"\\;" }]
    let body := write "q\"\\;" items
    let fields := (ofBody (typeText " Multipart/Form-Data " parameters) body 3).fields
    (GivesBoundary " Multipart/Form-Data " parameters "q\"\\;" ∧ '\r' ∉ "q\"\\;".toList ∧
      ∀ i ∈ items, i.Writable "q\"\\;" ∧ i.Trimmed) ∧
      fields.map (Item.ofField ([1, 2, 3] ++ body ++ [4])) = items ∧
      ∀ field ∈ fields, ∃ start stop, field.value = .slice start stop := by
  intro parameters items body fields
  have hkeys : ∀ p ∈ parameters, IsKey p.1 := by
    intro p hp
    simp only [parameters, List.mem_cons, List.not_mem_nil, or_false] at hp
    rcases hp with rfl | rfl | rfl <;> exact ⟨by decide, by simp⟩
  have htype : GivesBoundary " Multipart/Form-Data " parameters "q\"\\;" := ⟨by decide, hkeys, by decide, by decide⟩
  have hplain : '\r' ∉ "q\"\\;".toList := by decide
  have hitems : ∀ i ∈ items, i.Writable "q\"\\;" ∧ i.Trimmed := by
    intro i hi
    simp only [items, List.mem_cons, List.not_mem_nil, or_false] at hi
    rcases hi with rfl | rfl | rfl
    · exact ⟨⟨by decide, nofun, nofun, by decide⟩, nofun⟩
    · exact ⟨⟨by decide, nofun, nofun, by decide⟩, nofun⟩
    · refine ⟨⟨by decide, by decide, by decide, by decide⟩, ?_⟩
      rintro type ⟨⟩
      decide
  exact ⟨⟨htype, hplain, hitems⟩, ofBody_write htype hplain hitems [1, 2, 3] [4]⟩

end Form
end WebServer
