import WebServer.Http.Request
import WebServer.Proofs.Form.Urlencoded

/-! # The parts of a target

The path of a target ends before its query and its fragment. A query is looked for behind the first question mark, also
where that stands in the fragment of a target that has no query. -/

namespace WebServer

namespace Text

/-- A character that is one byte does not stand in a text without that byte. -/
theorem not_mem_of_encode {c : Char} {b : UInt8} {cs : List Char} (hc : b ∈ String.utf8EncodeChar c)
    (h : b ∉ encode cs) : c ∉ cs :=
  fun hm => h (List.mem_flatMap.mpr ⟨c, hm, hc⟩)

theorem uriDecode_of_writes {reserved : Bytes} (hpercent : 37 ∈ reserved) (hplus : 43 ∈ reserved) {s : String}
    {text : List Char} (h : Writes reserved (utf8 s) (encode text)) : uriDecode (String.ofList text) = s := by
  rw [uriDecode, utf8, String.toList_ofList]
  exact decodeLossy_component hpercent hplus h

end Text

namespace Http

open Text (Writes encode utf8 uriDecode)

/-! ## Targets as they are written -/

/-- In a query `#` does not stand for itself either, because it would begin the fragment. -/
def reservedInQuery : Bytes := 35 :: Form.reservedInValue

def reservedInKey : Bytes := 35 :: Form.reservedInName

/-- The texts of a parameter of a query. -/
inductive WritesParameter : String × String → List Char → Prop
  | intro {name value : String} {nameText valueText : List Char}
      (hname : Writes reservedInKey (utf8 name) (encode nameText))
      (hvalue : Writes reservedInQuery (utf8 value) (encode valueText)) :
      WritesParameter (name, value) (nameText ++ '=' :: valueText)

/-- The texts of a query, with `&` between its parameters. -/
inductive WritesQuery : List (String × String) → List Char → Prop
  | last {p : String × String} {text : List Char} (hp : WritesParameter p text) : WritesQuery [p] text
  | cons {p : String × String} {ps : List (String × String)} {text query : List Char} (hp : WritesParameter p text)
      (h : WritesQuery ps query) : WritesQuery (p :: ps) (text ++ '&' :: query)

/-- A target in parts. -/
structure Target where
  path : List Char
  query : Option (List Char) := none
  fragment : Option (List Char) := none

namespace Target

def queryText (t : Target) : List Char := t.query.elim [] ('?' :: ·)

def fragmentText (t : Target) : List Char := t.fragment.elim [] ('#' :: ·)

def text (t : Target) : String :=
  String.ofList (t.path ++ (t.queryText ++ t.fragmentText))

/-- The path ends where it should, and the query, if there is one, gives the parameters. -/
structure Gives (t : Target) (parameters : List (String × String)) : Prop where
  path : ∀ c ∈ t.path, c ≠ '?' ∧ c ≠ '#'
  query : ∀ query ∈ t.query, WritesQuery parameters query
  noQuery : t.query = none → parameters = []

end Target

/-! ## Reading a query -/

section

variable {p : String × String} {ps : List (String × String)} {text query : List Char}

theorem WritesParameter.plain (h : WritesParameter p text) : ∀ c ∈ text, c ≠ '&' ∧ c ≠ '#' := by
  cases h with
  | @intro name value nameText valueText hname hvalue =>
      have hplain {c : Char} {b : UInt8} (hc : b ∈ String.utf8EncodeChar c) (hne : c ≠ '=')
          (hkey : b ∉ encode nameText) (hvalue : b ∉ encode valueText) : c ∉ nameText ++ '=' :: valueText := by
        rw [List.mem_append, List.mem_cons, not_or, not_or]
        exact ⟨Text.not_mem_of_encode hc hkey, hne, Text.not_mem_of_encode hc hvalue⟩
      refine fun c hm => ⟨?_, ?_⟩
      · rintro rfl
        exact hplain (b := 38) (by decide) (by decide) (hname.not_mem (by decide)) (hvalue.not_mem (by decide)) hm
      · rintro rfl
        exact hplain (b := 35) (by decide) (by decide) (hname.not_mem (by decide)) (hvalue.not_mem (by decide)) hm

/-- The two sides of a piece of a query, still encoded. -/
def sides (piece : List Char) : String × String :=
  let (name, value) := (Text.cut? (· == '=') piece).getD (piece, [])
  (String.ofList name, String.ofList value)

/-- What the sides of a piece say. -/
def decoded (p : String × String) : String × String :=
  (uriDecode p.1, uriDecode p.2)

theorem decoded_sides_of_writes (h : WritesParameter p text) : decoded (sides text) = p := by
  cases h with
  | @intro name value nameText valueText hname hvalue =>
      have hplain : ∀ c ∈ nameText, (c == '=') = false := by
        intro c hc
        refine beq_eq_false_iff_ne.mpr ?_
        rintro rfl
        exact Text.not_mem_of_encode (b := 61) (by decide) (hname.not_mem (by decide)) hc
      have hcut : Text.cut? (· == '=') (nameText ++ '=' :: valueText) = some (nameText, valueText) :=
        Text.cut?_append hplain rfl valueText
      rw [decoded, sides, hcut]
      dsimp only [Option.getD_some]
      rw [Text.uriDecode_of_writes (by decide) (by decide) hname, Text.uriDecode_of_writes (by decide) (by decide) hvalue]

theorem decoded_of_writes (h : WritesQuery ps query) :
    ((Text.splitWhere (· == '&') query).map sides).map decoded = ps := by
  have hplain {p : String × String} {text : List Char} (hp : WritesParameter p text) : ∀ c ∈ text, (c == '&') = false :=
    fun c hc => beq_eq_false_iff_ne.mpr (hp.plain c hc).1
  induction h with
  | last hp =>
      rw [Text.splitWhere_of_forall (hplain hp), List.map_singleton, List.map_singleton, decoded_sides_of_writes hp]
  | cons hp _ ih =>
      rw [Text.splitWhere_append (hplain hp) rfl, List.map_cons, List.map_cons, decoded_sides_of_writes hp, ih]

theorem WritesQuery.plain (h : WritesQuery ps query) : ∀ c ∈ query, c ≠ '#' := by
  induction h with
  | last hp => exact fun c hc => (hp.plain c hc).2
  | cons hp _ ih =>
      intro c hc
      rw [List.mem_append, List.mem_cons] at hc
      rcases hc with hc | rfl | hc
      · exact (hp.plain c hc).2
      · decide
      · exact ih c hc

end

/-! ## Reading a target -/

namespace Request

variable {r : Request} {t : Target} {parameters : List (String × String)}

/-- The parameters that are asked are those behind the first question mark. -/
theorem query?_eq (r : Request) (key : String) :
    r.query? key = (Text.cut? (· == '?') r.head.url.toList).bind fun (_, rest) =>
      ((((Text.splitWhere (· == '&') (rest.takeWhile (· != '#'))).map sides).map decoded).find? fun p => p.1 == key).map
        Prod.snd := by
  rw [query?, queryPairs]
  cases Text.cut? (· == '?') r.head.url.toList with
  | none => rfl
  | some cut =>
      have hfind (ps : List (String × String)) :
          ((ps.find? fun p => uriDecode p.1 == key).bind fun p => some (uriDecode p.2)) =
            ((ps.map decoded).find? fun p => p.1 == key).map Prod.snd := by
        rw [List.find?_map, Option.map_map, Option.map_eq_bind]
        rfl
      exact hfind _

theorem path_of_target (hurl : r.head.url = t.text) (hpath : ∀ c ∈ t.path, c ≠ '?' ∧ c ≠ '#') :
    r.path = String.ofList t.path := by
  have hkept : ∀ c ∈ t.path, (c != '?' && c != '#') = true := fun c hc => by simp [hpath c hc]
  have hends : (t.queryText ++ t.fragmentText).takeWhile (fun c => c != '?' && c != '#') = [] := by
    rw [Target.queryText, Target.fragmentText]
    cases t.query with
    | some query => rfl
    | none =>
        cases t.fragment with
        | some fragment => rfl
        | none => rfl
  rw [path, pathChars, hurl, Target.text, String.toList_ofList, List.takeWhile_append_of_pos hkept, hends,
    List.append_nil]

theorem query?_of_query (hurl : r.head.url = t.text) (h : t.Gives parameters) (hq : t.query.isSome) (key : String) :
    r.query? key = (parameters.find? fun p => p.1 == key).map Prod.snd := by
  obtain ⟨query, hquery⟩ := Option.isSome_iff_exists.mp hq
  have hwrites := h.query query hquery
  have hpath : ∀ c ∈ t.path, (c == '?') = false := fun c hc => beq_eq_false_iff_ne.mpr (h.path c hc).1
  have hurl' : r.head.url.toList = t.path ++ '?' :: (query ++ t.fragmentText) := by
    rw [hurl, Target.text, String.toList_ofList, Target.queryText, hquery]
    rfl
  have hkept : ∀ c ∈ query, (c != '#') = true := fun c hc => bne_iff_ne.mpr (hwrites.plain c hc)
  have hends : t.fragmentText.takeWhile (· != '#') = [] := by
    rw [Target.fragmentText]
    cases t.fragment with
    | some fragment => rfl
    | none => rfl
  rw [query?_eq, hurl', Text.cut?_append hpath rfl, Option.bind_some]
  dsimp only
  rw [List.takeWhile_append_of_pos hkept, hends, List.append_nil, decoded_of_writes hwrites]

theorem query?_of_plain (hurl : r.head.url = t.text) (hpath : ∀ c ∈ t.path, c ≠ '?' ∧ c ≠ '#') (hq : t.query = none)
    (hf : ∀ fragment ∈ t.fragment, '?' ∉ fragment) (key : String) : r.query? key = none := by
  have hplain : ∀ c ∈ t.path ++ (t.queryText ++ t.fragmentText), (c == '?') = false := by
    intro c hc
    refine beq_eq_false_iff_ne.mpr ?_
    rw [Target.queryText, Target.fragmentText, hq, List.mem_append] at hc
    rcases hc with hc | hc
    · exact (hpath c hc).1
    · cases hfragment : t.fragment with
      | none => simp [hfragment] at hc
      | some fragment =>
          rw [hfragment] at hc
          rcases List.mem_cons.mp hc with rfl | hc
          · decide
          · rintro rfl
            exact hf fragment hfragment hc
  rw [query?_eq, hurl, Target.text, String.toList_ofList, Text.cut?_of_forall hplain, Option.bind_none]

/-- A question mark in the fragment of a target without a query begins one. -/
theorem query?_of_fragment (hurl : r.head.url = t.text) (hpath : ∀ c ∈ t.path, c ≠ '?' ∧ c ≠ '#') (hq : t.query = none)
    {fragment : List Char} (hf : t.fragment = some fragment) (hmark : '?' ∈ fragment) : ∃ key, r.query? key ≠ none := by
  obtain ⟨front, rest, rfl, hfront⟩ := List.eq_append_cons_of_mem hmark
  have hplain : ∀ c ∈ t.path ++ '#' :: front, (c == '?') = false := by
    intro c hc
    refine beq_eq_false_iff_ne.mpr ?_
    rw [List.mem_append, List.mem_cons] at hc
    rcases hc with hc | rfl | hc
    · exact (hpath c hc).1
    · decide
    · rintro rfl
      exact hfront hc
  have hurl' : r.head.url.toList = (t.path ++ '#' :: front) ++ '?' :: rest := by
    rw [hurl, Target.text, String.toList_ofList, Target.queryText, Target.fragmentText, hq, hf]
    simp
  obtain ⟨piece, pieces, hpieces⟩ :=
    List.exists_cons_of_ne_nil (Text.splitWhere_ne_nil (· == '&') (rest.takeWhile (· != '#')))
  -- The first piece names a parameter that is there.
  refine ⟨(decoded (sides piece)).1, ?_⟩
  rw [query?_eq, hurl', Text.cut?_append hplain rfl, Option.bind_some]
  dsimp only
  rw [hpieces, List.map_cons, List.map_cons, List.find?_cons_of_pos (by simp)]
  exact Option.some_ne_none _

/-- The path of a target is read from every target. Its query is read where there is one; where there is none, every
parameter is missing exactly if the fragment holds no question mark. -/
theorem reads_target (hurl : r.head.url = t.text) (h : t.Gives parameters) :
    r.path = String.ofList t.path ∧
      ((∀ key, r.query? key = (parameters.find? fun p => p.1 == key).map Prod.snd) ↔
        (t.query = none → ∀ fragment ∈ t.fragment, '?' ∉ fragment)) := by
  refine ⟨path_of_target hurl h.path, fun hreads hq fragment hf hmark => ?_, fun hplain key => ?_⟩
  · obtain ⟨key, hkey⟩ := query?_of_fragment hurl h.path hq hf hmark
    rw [hreads key, h.noQuery hq] at hkey
    exact hkey rfl
  · by_cases hq : t.query = none
    · rw [query?_of_plain hurl h.path hq (hplain hq), h.noQuery hq]
      rfl
    · exact query?_of_query hurl h (Option.isSome_iff_ne_none.mpr hq) key

/-- A query with question marks, a plus sign for a blank and one key twice, and a fragment that looks like a query. -/
theorem reads_target_of_escapes :
    let raw := utf8 "GET /find?a%26=J%c3%BC+M=&x?=&a%26=2#top?x?=1#z HTTP/1.1\r\n\r\n"
    let t : Target := ⟨"/find".toList, some "a%26=J%c3%BC+M=&x?=&a%26=2".toList, some "top?x?=1#z".toList⟩
    let parameters := [("a&", "Jü M="), ("x?", ""), ("a&", "2")]
    let r : Request := { raw, head := ⟨"GET", t.text, "HTTP/1.1", [], raw.length, 0⟩ }
    (Request.read raw = .ready r ∧ t.Gives parameters) ∧ r.path = "/find" ∧ r.query? "a&" = some "Jü M=" ∧
      r.query? "x?" = some "" ∧ r.query? "y" = none := by
  intro raw t parameters r
  have hread : Request.read raw = .ready r := by decide +kernel
  have hwritten : utf8 "a&" = [97, 38] ∧ encode "a%26".toList = [97, 37, 50, 54] ∧
      utf8 "Jü M=" = [74, 195, 188, 32, 77, 61] ∧
      encode "J%c3%BC+M=".toList = [74, 37, 99, 51, 37, 66, 67, 43, 77, 61] := by decide
  have hkey : Writes reservedInKey (utf8 "a&") (encode "a%26".toList) := by
    rw [hwritten.1, hwritten.2.1]
    exact .cons (.itself (by decide)) (.cons (.escape 38 true true) .nil)
  have hvalue : Writes reservedInQuery (utf8 "Jü M=") (encode "J%c3%BC+M=".toList) := by
    rw [hwritten.2.2.1, hwritten.2.2.2]
    exact .cons (.itself (by decide)) (.cons (.escape 195 false false) (.cons (.escape 188 true true)
      (.cons .plus (.cons (.itself (by decide)) (.cons (.itself (by decide)) .nil)))))
  have hquery : WritesQuery parameters "a%26=J%c3%BC+M=&x?=&a%26=2".toList := by
    have hmark : Writes reservedInKey (utf8 "x?") (encode "x?".toList) :=
      .cons (.itself (by decide)) (.cons (.itself (by decide)) .nil)
    have hdigit : Writes reservedInQuery (utf8 "2") (encode "2".toList) := .cons (.itself (by decide)) .nil
    have hlast : WritesQuery [("a&", "2")] ("a%26".toList ++ '=' :: "2".toList) := .last (.intro hkey hdigit)
    have hmiddle : WritesParameter ("x?", "") ("x?".toList ++ '=' :: "".toList) := .intro hmark .nil
    exact .cons (.intro hkey hvalue) (.cons hmiddle hlast)
  have hgives : t.Gives parameters := ⟨by simp [t], fun query hq => Option.some.inj hq ▸ hquery, nofun⟩
  have hurl : r.head.url = t.text := rfl
  obtain ⟨hpath, hreads⟩ := reads_target hurl hgives
  have hanswers := hreads.mpr nofun
  refine ⟨⟨hread, hgives⟩, hpath.trans (by decide), ?_, ?_, ?_⟩
  · exact (hanswers "a&").trans (by decide)
  · exact (hanswers "x?").trans (by decide)
  · exact (hanswers "y").trans (by decide)

/-- A parameter is read from the fragment of a target that has no query. -/
theorem query?_of_mark_in_fragment :
    let raw := utf8 "GET /p#a?x=1 HTTP/1.1\r\n\r\n"
    let t : Target := ⟨"/p".toList, none, some "a?x=1".toList⟩
    let r : Request := { raw, head := ⟨"GET", t.text, "HTTP/1.1", [], raw.length, 0⟩ }
    Request.read raw = .ready r ∧ t.Gives [] ∧ r.path = "/p" ∧ r.query? "x" = some "1" := by
  intro raw t r
  have hgives : t.Gives [] := ⟨by simp [t], nofun, fun _ => rfl⟩
  exact ⟨by decide +kernel, hgives, by decide +kernel, by decide +kernel⟩

end Request
end Http
end WebServer
