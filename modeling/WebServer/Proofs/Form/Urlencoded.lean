import WebServer.Form.Urlencoded
import WebServer.Proofs.Text.Percent
import WebServer.Proofs.Text.Split

/-! # URL-encoded forms written and read

A form has many texts, since most bytes may be written in several ways. Each of these texts is cut where its writer put
the separators, before anything in it is decoded, and so all of them are read as the same form. -/

namespace WebServer.Form

open Text (Writes)

/-! ## Texts of a form -/

/-- The bytes that do not stand for themselves in a value: `&`, `+` and `%`. -/
def reservedInValue : Bytes := [38, 43, 37]

/-- In a name `=` does not either. -/
def reservedInName : Bytes := 61 :: reservedInValue

/-- The texts of a pair, with `=` between name and value. -/
inductive WritesPair : String × Bytes → Bytes → Prop
  | intro {name : String} {value nameText valueText : Bytes} (hname : Writes reservedInName (Text.utf8 name) nameText)
      (hvalue : Writes reservedInValue value valueText) : WritesPair (name, value) (nameText ++ 61 :: valueText)

/-- The texts of a list of pairs, with any number of `&` around them and at least one of them in between. -/
inductive WritesPairs : List (String × Bytes) → Bytes → Prop
  | nil : WritesPairs [] []
  | ampersand {ps : List (String × Bytes)} {body : Bytes} (h : WritesPairs ps body) : WritesPairs ps (38 :: body)
  | last {p : String × Bytes} {text : Bytes} (hp : WritesPair p text) : WritesPairs [p] text
  | cons {p : String × Bytes} {ps : List (String × Bytes)} {text body : Bytes} (hp : WritesPair p text)
      (h : WritesPairs ps body) : WritesPairs (p :: ps) (text ++ 38 :: body)

/-- The field that is read from a pair. -/
def field (p : String × Bytes) : FormField where
  name := p.1
  value := .decoded p.2

/-! ## Reading a pair -/

section

variable {p : String × Bytes} {ps : List (String × Bytes)} {text body : Bytes}

theorem WritesPair.ne_nil (h : WritesPair p text) : text ≠ [] := by
  cases h with
  | intro => simp

/-- No separator of pairs stands in a pair. -/
theorem WritesPair.plain (h : WritesPair p text) : ∀ b ∈ text, (b == 38) = false := by
  cases h with
  | intro hname hvalue =>
      intro b hb
      refine beq_eq_false_iff_ne.mpr ?_
      rintro rfl
      rw [List.mem_append, List.mem_cons] at hb
      rcases hb with hb | hb | hb
      · exact hname.not_mem (by decide) hb
      · exact absurd hb (by decide)
      · exact hvalue.not_mem (by decide) hb

theorem ofPair_of_writes (h : WritesPair p text) : ofPair text = field p := by
  cases h with
  | @intro name value nameText valueText hname hvalue =>
      have hplain : ∀ b ∈ nameText, (b == 61) = false := by
        intro b hb
        refine beq_eq_false_iff_ne.mpr ?_
        rintro rfl
        exact hname.not_mem (by decide) hb
      have hcut : Text.cut? (· == 61) (nameText ++ 61 :: valueText) = some (nameText, valueText) :=
        Text.cut?_append hplain rfl valueText
      rw [ofPair, hcut]
      dsimp only [Option.getD_some]
      rw [Text.decodeLossy_component (by decide) (by decide) hname,
        Text.decodeComponent_of_writes (by decide) (by decide) hvalue]
      rfl

/-! ## Reading the form -/

theorem ofUrlencoded_ampersand (body : Bytes) : ofUrlencoded (38 :: body) = ofUrlencoded body := by
  have hsplit : Text.splitWhere (· == 38) (38 :: body) = [] :: Text.splitWhere (· == 38) body := rfl
  rw [ofUrlencoded, hsplit]
  rfl

theorem ofUrlencoded_last (h : WritesPair p text) : (ofUrlencoded text).fields = [field p] := by
  rw [ofUrlencoded, Text.splitWhere_of_forall h.plain, List.filter_cons_of_pos (by simpa using h.ne_nil), List.filter_nil,
    List.map_cons, List.map_nil, ofPair_of_writes h]

theorem ofUrlencoded_cons (h : WritesPair p text) (body : Bytes) :
    (ofUrlencoded (text ++ 38 :: body)).fields = field p :: (ofUrlencoded body).fields := by
  rw [ofUrlencoded, Text.splitWhere_append h.plain rfl, List.filter_cons_of_pos (by simpa using h.ne_nil), List.map_cons,
    ofPair_of_writes h]
  rfl

theorem fields_of_writes (h : WritesPairs ps body) : (ofUrlencoded body).fields = ps.map field := by
  induction h with
  | nil => rfl
  | ampersand _ ih => rw [ofUrlencoded_ampersand, ih]
  | last hp => exact ofUrlencoded_last hp
  | cons hp _ ih => rw [ofUrlencoded_cons hp, ih, List.map_cons]

/-- Whichever of its texts a form was sent as, its pairs are read in their order; the value of a name is the first one
that was given to it, and all values of a name are those that were given to it. -/
theorem ofUrlencoded_of_writes (h : WritesPairs ps body) :
    (ofUrlencoded body).fields = ps.map field ∧
      ∀ (name : String) (raw : Bytes),
        ((ofUrlencoded body).get? name).map (fun f => f.value.resolve raw) =
            (ps.find? fun p => p.1 == name).map Prod.snd ∧
          ((ofUrlencoded body).getAll name).map (fun f => f.value.resolve raw) =
            (ps.filter fun p => p.1 == name).map Prod.snd := by
  have hfields := fields_of_writes h
  refine ⟨hfields, fun name raw => ⟨?_, ?_⟩⟩
  · rw [get?, hfields, List.find?_map, Option.map_map]
    rfl
  · rw [getAll, hfields, List.filter_map, List.map_map]
    rfl

end

/-- Two values of one name, which is written in two ways, and an empty pair between them. -/
theorem ofUrlencoded_of_writes_twice :
    let pairs : List (String × Bytes) := [("a& ü", [98, 61, 0, 32, 43]), ("", []), ("a& ü", [255])]
    let body := Text.utf8 "&a%26+%C3%bc=b=%00+%2B&&=&a%26%20ü=%fF"
    WritesPairs pairs body ∧ (ofUrlencoded body).fields = pairs.map field ∧
      ((ofUrlencoded body).get? "a& ü").map (fun f => f.value.resolve []) = some [98, 61, 0, 32, 43] ∧
      ((ofUrlencoded body).getAll "a& ü").map (fun f => f.value.resolve []) = [[98, 61, 0, 32, 43], [255]] := by
  intro pairs body
  let name : Bytes := [97, 37, 50, 54, 43, 37, 67, 51, 37, 98, 99]
  let value : Bytes := [98, 61, 37, 48, 48, 43, 37, 50, 66]
  let name' : Bytes := [97, 37, 50, 54, 37, 50, 48, 195, 188]
  let value' : Bytes := [37, 102, 70]
  have hbytes : Text.utf8 "a& ü" = [97, 38, 32, 195, 188] := by decide
  have hname : Writes reservedInName (Text.utf8 "a& ü") name :=
    hbytes ▸ .cons (.itself (by decide)) (.cons (.escape 38 true true) (.cons .plus (.cons (.escape 195 true true)
      (.cons (.escape 188 false false) .nil))))
  have hvalue : Writes reservedInValue [98, 61, 0, 32, 43] value :=
    .cons (.itself (by decide)) (.cons (.itself (by decide)) (.cons (.escape 0 true true) (.cons .plus
      (.cons (.escape 43 true true) .nil))))
  have hname' : Writes reservedInName (Text.utf8 "a& ü") name' :=
    hbytes ▸ .cons (.itself (by decide)) (.cons (.escape 38 true true) (.cons (.escape 32 true true)
      (.cons (.itself (by decide)) (.cons (.itself (by decide)) .nil))))
  have hvalue' : Writes reservedInValue [255] value' := .cons (.escape 255 false true) .nil
  have hpieces : 38 :: (name ++ 61 :: value ++ 38 :: 38 :: (61 :: 38 :: (name' ++ 61 :: value'))) = body := by decide
  have hbody : WritesPairs pairs body := by
    have hempty : WritesPair ("", []) [61] := @WritesPair.intro "" [] [] [] .nil .nil
    have hrest : WritesPairs pairs.tail (38 :: (61 :: 38 :: (name' ++ 61 :: value'))) :=
      .ampersand (.cons hempty (.last (.intro hname' hvalue')))
    rw [← hpieces]
    exact .ampersand (.cons (.intro hname hvalue) hrest)
  have hread := ofUrlencoded_of_writes hbody
  refine ⟨hbody, hread.1, ?_, ?_⟩
  · rw [(hread.2 "a& ü" []).1]
    decide
  · rw [(hread.2 "a& ü" []).2]
    decide

end WebServer.Form
