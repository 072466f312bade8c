import WebServer.Proofs.Http.Framing

/-! # The lines beside the length

A head that is given a length is read as text, cut into lines and put together again. Its other lines keep their order,
and each comes out as it went in exactly if it is well-formed text: what is malformed in it is mended on the way. -/

namespace WebServer.Http.Response

open Text (IsWord OneLine decodeLossy encode isBlank mend sameName utf8)

/-- A line with the name `Content-Length` in front of its first colon, in letters of any case and with blanks around. -/
inductive TellsLength : Bytes → Prop
  | intro {before name after : List Char} (value : Bytes) (hbefore : ∀ c ∈ before, isBlank c = true)
      (hname : sameName (String.ofList name) "Content-Length" = true) (hafter : ∀ c ∈ after, isBlank c = true) :
      TellsLength (encode (before ++ (name ++ after)) ++ 58 :: value)

/-! ## Lines as text and as bytes -/

section

variable {line head body m : Bytes} {name : List Char}

theorem isWord_of_sameName (h : sameName (String.ofList name) "Content-Length" = true) : IsWord name := by
  have hword := IsWord.of_sameName h (by decide)
  rwa [String.toList_ofList] at hword

/-- The name is well-formed, blanks and all. -/
theorem not_mem_name {before after : List Char} {c : Char} (hbefore : ∀ c ∈ before, isBlank c = true)
    (hname : sameName (String.ofList name) "Content-Length" = true) (hafter : ∀ c ∈ after, isBlank c = true)
    (hblank : isBlank c = false) (hc : c.toLower ∉ "Content-Length".toList.map Char.toLower) :
    c ∉ before ++ (name ++ after) := by
  have hnot {blanks : List Char} (hall : ∀ d ∈ blanks, isBlank d = true) : c ∉ blanks :=
    fun hmem => absurd (hall c hmem) (by simp [hblank])
  have hother : c ∉ name := fun hmem => hc (Text.sameName_mem hname (by rwa [String.toList_ofList]))
  rw [List.mem_append, List.mem_append, not_or, not_or]
  exact ⟨hnot hbefore, hother, hnot hafter⟩

/-- A line is recognised by its bytes, although it is looked at as text. -/
theorem isLengthLine_decodeLossy : isLengthLine (decodeLossy line) = true ↔ TellsLength line := by
  constructor
  · intro h
    rw [isLengthLine] at h
    split at h
    · rename_i front value hcut
      obtain ⟨colon, hcolon, hline⟩ := Text.eq_of_cut? hcut
      obtain rfl := eq_of_beq hcolon
      obtain ⟨before, after, hfront, hbefore, hafter⟩ := Text.exists_of_trim front
      have hclean := not_mem_name (c := '\uFFFD') hbefore h hafter (by decide) (by decide)
      rw [← hfront] at hclean
      have hkey : '\uFFFD' ∉ front ++ [':'] := by simpa using hclean
      rw [List.append_cons] at hline
      obtain ⟨rest, rfl, -⟩ := Text.decodeLossy_eq_append hkey hline
      rw [Text.encode_append, List.append_assoc, hfront]
      exact .intro rest hbefore h hafter
    · cases h
  · rintro ⟨value, hbefore, hname, hafter⟩
    rename_i before name after
    have hplain : ∀ c ∈ before ++ (name ++ after), (c == ':') = false := by
      intro c hc
      refine beq_eq_false_iff_ne.mpr ?_
      rintro rfl
      exact not_mem_name hbefore hname hafter (by decide) (by decide) hc
    have hread : decodeLossy (encode (before ++ (name ++ after)) ++ 58 :: value) =
        before ++ (name ++ after) ++ ':' :: decodeLossy value := by
      rw [Text.decodeLossy_encode_append]
      exact congrArg (before ++ (name ++ after) ++ ·) (Text.decodeLossy_encode_append [':'] value)
    rw [isLengthLine, hread, Text.cut?_append hplain rfl]
    dsimp only
    rwa [(isWord_of_sameName hname).trim_padded hbefore hafter]

instance : DecidablePred TellsLength := fun line =>
  decidable_of_iff (isLengthLine (decodeLossy line) = true) isLengthLine_decodeLossy

/-- The lines of a head but for those that tell a length. -/
def otherLines (head : Bytes) : List Bytes :=
  (Bytes.lines head).filter (¬TellsLength ·)

/-- The bytes of the line that gives the length of a body. -/
def lengthBytes (body : Bytes) : Bytes :=
  utf8 ("Content-Length: " ++ toString body.length)

theorem filter_map_decodeLossy (ls : List Bytes) :
    (ls.map decodeLossy).filter (!isLengthLine ·) = (ls.filter (¬TellsLength ·)).map decodeLossy := by
  rw [List.filter_map]
  congr 1
  refine List.filter_congr fun line _ => ?_
  rw [Function.comp_apply, Bool.eq_iff_iff, Bool.not_eq_true', decide_eq_true_eq, ← isLengthLine_decodeLossy,
    Bool.not_eq_true]

/-! ## The new head -/

/-- The head of a message that is given the length of its body. -/
def relengthened (head body : Bytes) : Bytes :=
  encode (Text.joinLines (relength (Text.lines (decodeLossy head)) body.length))

theorem Splits.relengthened (s : Splits m head body) :
    withLength? m = some (Response.relengthened head body ++ (Bytes.blankLine ++ body)) ∧
      Splits (Response.relengthened head body ++ (Bytes.blankLine ++ body)) (Response.relengthened head body) body :=
  ⟨withLength?_of_splits s, (s.headLines.relength body.length).splits body⟩

/-- Every line but the new one went through text. -/
theorem Splits.lines_relengthened (s : Splits m head body) :
    Bytes.lines (Response.relengthened head body) = (otherLines head).map mend ++ [lengthBytes body] := by
  have hlines := s.headLines.relength body.length
  obtain ⟨l, ls, hl⟩ := List.exists_cons_of_ne_nil hlines.ne_nil
  have hone : ∀ line ∈ l :: ls, OneLine line := hl ▸ hlines.oneLine
  rw [Response.relengthened, hl, Bytes.lines_encode_joinLines hone, ← hl, relength, Bytes.lines_decodeLossy,
    filter_map_decodeLossy, List.map_append, List.map_map]
  rfl

/-- A message splits at its first empty line only. -/
theorem Splits.unique {head' body' : Bytes} (s : Splits m head body) (s' : Splits m head' body') :
    head = head' ∧ body = body' := by
  have hlength : head.length = head'.length := Option.some.inj (s.find?_eq.symm.trans s'.find?_eq)
  obtain ⟨hhead, hrest⟩ := List.append_inj (s.eq.symm.trans s'.eq) hlength
  exact ⟨hhead, List.append_cancel_left hrest⟩

/-- A message with an empty line is given the length of its body behind its other lines, which are those of the message
as text reads them: they are the same bytes exactly if all of them are well-formed. -/
theorem keeps_otherLines (h : Bytes.blankLine <:+: m) :
    ∃ head body head', Splits m head body ∧ withLength? m = some (head' ++ (Bytes.blankLine ++ body)) ∧
      Splits (head' ++ (Bytes.blankLine ++ body)) head' body ∧
      Bytes.lines head' = (otherLines head).map mend ++ [lengthBytes body] ∧
      (Bytes.lines head' = otherLines head ++ [lengthBytes body] ↔
        ∀ line ∈ otherLines head, (Text.decode? line).isSome = true) := by
  obtain ⟨head, body, s⟩ := exists_splits h
  have hmended := s.lines_relengthened
  refine ⟨head, body, relengthened head body, s, s.relengthened.1, s.relengthened.2, hmended, ?_⟩
  calc Bytes.lines (relengthened head body) = otherLines head ++ [lengthBytes body]
      ↔ (otherLines head).map mend = (otherLines head).map id := by
        rw [hmended, List.append_left_inj, List.map_id]
    _ ↔ ∀ line ∈ otherLines head, mend line = line := List.map_inj_left
    _ ↔ ∀ line ∈ otherLines head, (Text.decode? line).isSome = true := by
        simp only [Text.mend_eq_self_iff]

/-- Two lines that told a length, one with a byte that is no text, and another one with a letter of two bytes. -/
theorem keeps_otherLines_of_stale_lengths :
    let head := utf8 "HTTP/1.1 200 OK\r\n CONTENT-Length\u3000: 9" ++ [255] ++ utf8 "\r\nX: ü:\r\ncontent-length:"
    let m := head ++ (Bytes.blankLine ++ [97, 98])
    Bytes.blankLine <:+: m ∧ ∃ head', withLength? m = some (head' ++ (Bytes.blankLine ++ [97, 98])) ∧
      Bytes.lines head' = [utf8 "HTTP/1.1 200 OK", utf8 "X: ü:", utf8 "Content-Length: 2"] := by
  intro head m
  have s : Splits m head [97, 98] := ⟨rfl, by decide⟩
  have hm : Bytes.blankLine <:+: m := by decide
  obtain ⟨_, _, head', s', hm', -, -, hexact⟩ := keeps_otherLines hm
  obtain ⟨rfl, rfl⟩ := s'.unique s
  have hothers : otherLines head = [utf8 "HTTP/1.1 200 OK", utf8 "X: ü:"] := by decide +kernel
  rw [hothers] at hexact
  exact ⟨hm, head', hm', hexact.mpr (by decide +kernel)⟩

/-- A header in another encoding is not kept. -/
theorem not_keeps_otherLines_of_malformed :
    ¬∀ m head body head' : Bytes, Splits m head body → withLength? m = some (head' ++ (Bytes.blankLine ++ body)) →
      Splits (head' ++ (Bytes.blankLine ++ body)) head' body →
      Bytes.lines head' = otherLines head ++ [lengthBytes body] := by
  intro h
  let head := utf8 "HTTP/1.1 200 OK\r\nX-Name: Jos" ++ [233]
  have s : Splits (head ++ (Bytes.blankLine ++ [97, 98])) head [97, 98] := ⟨rfl, by decide⟩
  have hkept := h _ _ _ _ s s.relengthened.1 s.relengthened.2
  revert hkept
  decide +kernel

end

end WebServer.Http.Response
