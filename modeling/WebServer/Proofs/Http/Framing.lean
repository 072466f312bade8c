import WebServer.Http.Head
import WebServer.Http.Response
import WebServer.Proofs.Text.Lines

/-! # Responses with the length of their body

A message that is given the true length of its body keeps that body: none of the lines that are put together again is
empty, but perhaps the first one, so that the head still ends where the body begins. -/

namespace WebServer.Http.Response

open Text (OneLine encode decodeLossy joinLines lines utf8 sameName)

/-! ## Heads and bodies -/

/-- The message has a head, and a body behind the first empty line in it. -/
structure Splits (message head body : Bytes) : Prop where
  eq : message = head ++ (Bytes.blankLine ++ body)
  first : ∀ n < head.length, ¬Bytes.blankLine <+: message.drop n

/-- The lines of a head: no line ends within one of them, and only the first one may be empty. -/
structure HeadLines (ls : List (List Char)) : Prop where
  ne_nil : ls ≠ []
  oneLine : ∀ line ∈ ls, OneLine line
  visible : ∀ line ∈ ls.tail, line ≠ []

/-- A message with these lines in its head. -/
def message (ls : List (List Char)) (body : Bytes) : Bytes :=
  encode (joinLines ls) ++ (Bytes.blankLine ++ body)

/-- The headers of a head that tell the length of the body. -/
def lengths (head : Bytes) : List Header :=
  ((lines (decodeLossy head)).filterMap Header.read?).filter fun h => sameName h.name "Content-Length"

section

variable {head body m : Bytes} {ls : List (List Char)}

theorem Splits.find?_eq (s : Splits m head body) : Bytes.find? Bytes.blankLine m = some head.length := by
  refine (Bytes.find?_eq_some (by decide)).mpr ⟨?_, s.first⟩
  rw [s.eq, List.drop_left]
  exact List.prefix_append _ _

theorem exists_splits (h : Bytes.blankLine <:+: m) : ∃ head body, Splits m head body := by
  have hfound : Bytes.find? Bytes.blankLine m ≠ none := by
    rwa [Bytes.find?_of_ne_nil (by decide), Ne, Bytes.findLoop_eq_none (by decide), Classical.not_not]
  obtain ⟨stop, hstop⟩ := Option.ne_none_iff_exists'.mp hfound
  have hle := Bytes.find?_le hstop
  obtain ⟨hstands, hfirst⟩ := (Bytes.find?_eq_some (by decide)).mp hstop
  obtain ⟨body, hbody⟩ := hstands
  refine ⟨m.take stop, body, ?_, ?_⟩
  · rw [hbody, List.take_append_drop]
  · rwa [List.length_take, Nat.min_eq_left (by omega)]

theorem HeadLines.splits (h : HeadLines ls) (body : Bytes) : Splits (message ls body) (encode (joinLines ls)) body := by
  obtain ⟨l, ls, rfl⟩ := List.exists_cons_of_ne_nil h.ne_nil
  have hfound := Bytes.findLoop_joinLines h.oneLine h.visible body 0
  rw [← Bytes.find?_of_ne_nil (by decide), Nat.zero_add] at hfound
  exact ⟨rfl, ((Bytes.find?_eq_some (by decide)).mp hfound).2⟩

theorem HeadLines.lines_eq (h : HeadLines ls) : lines (decodeLossy (encode (joinLines ls))) = ls := by
  obtain ⟨l, ls, rfl⟩ := List.exists_cons_of_ne_nil h.ne_nil
  rw [Text.decodeLossy_encode, Text.lines_joinLines h.oneLine]

/-- However a head reads, it reads as lines: an empty one would have ended it. -/
theorem Splits.headLines (s : Splits m head body) : HeadLines (lines (decodeLossy head)) := by
  refine ⟨Text.lines_ne_nil _, fun line hline => Text.oneLine_of_mem_lines hline, ?_⟩
  obtain ⟨l, ls, hl⟩ := List.exists_cons_of_ne_nil (Text.lines_ne_nil (decodeLossy head))
  have hjoin : joinLines (l :: ls) = decodeLossy head := by rw [← hl, Text.joinLines_lines]
  rw [hl, List.tail_cons]
  rintro line hline rfl
  rcases Text.ends_of_empty_line hline with hinfix | hsuffix
  · rw [hjoin] at hinfix
    obtain ⟨front, more, rfl⟩ : Bytes.blankLine <:+: head := Text.infix_of_decodeLossy (by decide) hinfix
    refine s.first front.length (by simp [Bytes.blankLine]) ?_
    rw [s.eq, List.append_assoc, List.append_assoc, List.drop_left]
    exact List.prefix_append _ _
  · rw [hjoin] at hsuffix
    obtain ⟨front, rfl⟩ : Bytes.crlf <:+ head := Text.suffix_of_decodeLossy (by decide) hsuffix
    refine s.first front.length (by simp [Bytes.crlf]) ?_
    rw [s.eq, List.append_assoc, List.drop_left]
    exact ⟨Bytes.crlf ++ body, rfl⟩

/-! ## Lines with the length -/

/-- The lines of a head with the given length, and with no other. -/
def relength (ls : List (List Char)) (length : Nat) : List (List Char) :=
  ls.filter (!isLengthLine ·) ++ [lengthLine length]

variable (length : Nat)

theorem lengthLine_eq : lengthLine length = "Content-Length".toList ++ ':' :: ' ' :: (toString length).toList := by
  rw [lengthLine, String.toList_append]
  rfl

theorem oneLine_lengthLine : OneLine (lengthLine length) := by
  have hdigits : OneLine (toString length).toList := .of_visible (Text.isWord_toString length).visible
  rw [lengthLine_eq]
  exact .prepend (by simp) ((hdigits.cons fun h => absurd h (by decide)).cons fun h => absurd h (by decide))

theorem read?_lengthLine : Header.read? (lengthLine length) = some ⟨"Content-Length", toString length⟩ := by
  have hcut : Text.cut? (· == ':') ("Content-Length".toList ++ ':' :: ' ' :: (toString length).toList) =
      some ("Content-Length".toList, ' ' :: (toString length).toList) := Text.cut?_append (by simp) rfl _
  have hname : String.ofList (Text.trim "Content-Length".toList) = "Content-Length" := by decide
  rw [Header.read?, lengthLine_eq, hcut, Option.map_some]
  dsimp only
  rw [Text.trim_space, (Text.isWord_toString length).trim_eq, String.ofList_toList, hname]

/-- A line gives the length if the header that is read from it does. -/
theorem isLengthLine_eq (line : List Char) :
    isLengthLine line = (Header.read? line).any fun h => sameName h.name "Content-Length" := by
  rw [isLengthLine, Header.read?]
  cases Text.cut? (· == ':') line <;> rfl

theorem isLengthLine_lengthLine : isLengthLine (lengthLine length) = true := by
  have hname : sameName "Content-Length" "Content-Length" = true := by decide
  rw [isLengthLine_eq, read?_lengthLine]
  exact hname

variable {length}

theorem HeadLines.relength (h : HeadLines ls) (length : Nat) : HeadLines (relength ls length) := by
  obtain ⟨l, ls, rfl⟩ := List.exists_cons_of_ne_nil h.ne_nil
  have hne : lengthLine length ≠ [] := by simp [lengthLine_eq]
  refine ⟨by simp [Response.relength], fun line hline => ?_, fun line hline => ?_⟩
  · rw [Response.relength, List.mem_append, List.mem_singleton] at hline
    rcases hline with hline | rfl
    · exact h.oneLine line (List.mem_of_mem_filter hline)
    · exact oneLine_lengthLine length
  · -- What was not the first line is not the first line now.
    have htail : (Response.relength (l :: ls) length).tail <:+ ls.filter (!isLengthLine ·) ++ [lengthLine length] := by
      rw [Response.relength, List.filter_cons]
      split
      · exact List.suffix_refl _
      · exact List.tail_suffix _
    have hmem := htail.subset hline
    rw [List.mem_append, List.mem_singleton] at hmem
    rcases hmem with hmem | rfl
    · exact h.visible line (List.mem_of_mem_filter hmem)
    · exact hne

/-- The length is told once, and rightly. -/
theorem lengths_relength (h : HeadLines ls) (length : Nat) :
    lengths (encode (joinLines (relength ls length))) = [⟨"Content-Length", toString length⟩] := by
  have hkept : ((ls.filter (!isLengthLine ·)).filterMap Header.read?).filter
      (fun h => sameName h.name "Content-Length") = [] := by
    refine List.filter_eq_nil_iff.mpr fun header hheader hnamed => ?_
    obtain ⟨line, hline, hread⟩ := List.mem_filterMap.mp hheader
    have hother := (List.mem_filter.mp hline).2
    rw [isLengthLine_eq, hread, Option.any_some, hnamed] at hother
    exact absurd hother (by decide)
  rw [lengths, (h.relength length).lines_eq, relength, List.filterMap_append, List.filter_append, hkept,
    List.filterMap_cons_some (read?_lengthLine length), List.filterMap_nil, List.nil_append]
  exact List.filter_cons_of_pos (by decide : sameName "Content-Length" "Content-Length" = true)

/-- A second time no line is added or dropped. -/
theorem relength_relength (ls : List (List Char)) (length : Nat) :
    relength (relength ls length) length = relength ls length := by
  have hdropped : [lengthLine length].filter (!isLengthLine ·) = [] := by
    simp [isLengthLine_lengthLine]
  rw [relength, relength, List.filter_append, List.filter_filter, hdropped, List.append_nil]
  simp only [Bool.and_self]

/-! ## Messages with the length -/

theorem withLength?_of_splits (s : Splits m head body) :
    withLength? m = some (message (relength (lines (decodeLossy head)) body.length) body) := by
  have htake : m.take head.length = head := by rw [s.eq, List.take_left' rfl]
  have hdrop : m.drop head.length = Bytes.blankLine ++ body := by rw [s.eq, List.drop_left' rfl]
  have hbody : m.drop (head.length + Bytes.blankLine.length) = body := by
    rw [← List.drop_drop, hdrop, List.drop_left' rfl]
  rw [withLength?, s.find?_eq, Option.map_some]
  dsimp only
  rw [htake, hdrop, hbody]
  rfl

theorem withLength?_message (h : HeadLines ls) (body : Bytes) :
    withLength? (message ls body) = some (message (relength ls body.length) body) := by
  rw [withLength?_of_splits (h.splits body), h.lines_eq]

theorem withLength?_eq_none (h : ¬Bytes.blankLine <:+: m) : withLength? m = none := by
  rw [withLength?, Bytes.find?_of_ne_nil (by decide), (Bytes.findLoop_eq_none (by decide)).mpr h, Option.map_none]

/-! ## Responses that are built -/

/-- The lines of the head of a response. -/
def responseLines (status contentType : String) (length : Nat) : List (List Char) :=
  ["HTTP/1.1 ".toList ++ status.toList, "Content-Type: ".toList ++ contentType.toList, lengthLine length]

theorem utf8_headText (status contentType : String) (length : Nat) :
    utf8 (headText status contentType length) = message (responseLines status contentType length) [] := by
  have hhead : (headText status contentType length).toList =
      joinLines (responseLines status contentType length) ++ ['\r', '\n', '\r', '\n'] := by
    simp [headText, responseLines, lengthLine, joinLines, List.intercalate]
  rw [utf8, hhead, Text.encode_append]
  rfl

theorem build_eq (status contentType : String) (body : Bytes) :
    build status contentType body = message (responseLines status contentType body.length) body := by
  rw [build, utf8_headText, message, message, List.append_assoc]
  rfl

/-- The name in front of a colon in the first line has a slash in it. -/
theorem isLengthLine_statusLine (status : String) : isLengthLine ("HTTP/1.1 ".toList ++ status.toList) = false := by
  have hversion : ∀ c ∈ "HTTP/1.1 ".toList, (c == ':') = false := by simp
  rw [isLengthLine]
  by_cases hcolon : ':' ∈ status.toList
  · obtain ⟨front, rest, hstatus, hfront⟩ := List.eq_append_cons_of_mem hcolon
    have hplain : ∀ c ∈ "HTTP/1.1 ".toList ++ front, (c == ':') = false := by
      refine List.forall_mem_append.mpr ⟨hversion, fun c hc => beq_eq_false_iff_ne.mpr ?_⟩
      rintro rfl
      exact hfront hc
    rw [hstatus, ← List.append_assoc, Text.cut?_append hplain rfl]
    dsimp only
    rw [Bool.eq_false_iff]
    intro hname
    have hslash : '/' ∈ (String.ofList (Text.trim ("HTTP/1.1 ".toList ++ front))).toList := by
      rw [String.toList_ofList]
      exact Text.mem_trim (by decide) (List.mem_append_left front (by decide))
    exact absurd (Text.sameName_mem hname hslash) (by decide)
  · have hplain : ∀ c ∈ "HTTP/1.1 ".toList ++ status.toList, (c == ':') = false := by
      refine List.forall_mem_append.mpr ⟨hversion, fun c hc => beq_eq_false_iff_ne.mpr ?_⟩
      rintro rfl
      exact hcolon hc
    rw [Text.cut?_of_forall hplain]

theorem isLengthLine_typeLine (contentType : String) :
    isLengthLine ("Content-Type: ".toList ++ contentType.toList) = false := by
  have hcut : Text.cut? (· == ':') ("Content-Type".toList ++ ':' :: ' ' :: contentType.toList) =
      some ("Content-Type".toList, ' ' :: contentType.toList) := Text.cut?_append (by simp) rfl _
  have hline : "Content-Type: ".toList ++ contentType.toList = "Content-Type".toList ++ ':' :: ' ' :: contentType.toList :=
    rfl
  have hname : sameName (String.ofList (Text.trim "Content-Type".toList)) "Content-Length" = false := by decide
  rw [isLengthLine, hline, hcut]
  exact hname

theorem relength_twoLines (status contentType : String) (length : Nat) :
    relength ["HTTP/1.1 ".toList ++ status.toList, "Content-Type: ".toList ++ contentType.toList] length =
      responseLines status contentType length := by
  simp only [relength, List.filter_cons, isLengthLine_statusLine, isLengthLine_typeLine, Bool.not_false, if_true,
    List.filter_nil]
  rfl

theorem headLines_twoLines {status contentType : String} (hs : OneLine status.toList) (ht : OneLine contentType.toList) :
    HeadLines ["HTTP/1.1 ".toList ++ status.toList, "Content-Type: ".toList ++ contentType.toList] := by
  refine ⟨List.cons_ne_nil _ _, ?_, ?_⟩
  · rw [List.forall_mem_cons, List.forall_mem_singleton]
    exact ⟨.prepend (by simp) hs, .prepend (by simp) ht⟩
  · rw [List.tail_cons, List.forall_mem_singleton]
    simp

/-- The length of a response that was built is right. -/
theorem withLength?_build {status contentType : String} (hs : OneLine status.toList) (ht : OneLine contentType.toList)
    (body : Bytes) : withLength? (build status contentType body) = some (build status contentType body) := by
  rw [build_eq, ← relength_twoLines, withLength?_message ((headLines_twoLines hs ht).relength _), relength_relength]

theorem page_eq_build (text : String) : page text = build "200 OK" "text/html; charset=utf-8" (utf8 text) := by
  have hstart : utf8 defaultHeader ++ Bytes.blankLine ++ utf8 text =
      message ["HTTP/1.1 ".toList ++ "200 OK".toList, "Content-Type: ".toList ++ "text/html; charset=utf-8".toList]
        (utf8 text) := by
    rw [message, List.append_assoc]
    rfl
  have hstatus : OneLine "200 OK".toList := by decide
  have htype : OneLine "text/html; charset=utf-8".toList := by decide
  have hlines := headLines_twoLines hstatus htype
  rw [page, hstart, withLength?_message hlines, Option.getD_some, relength_twoLines, build_eq]

/-! ## Every message -/

/-- The message `m'` has the body of `m`, tells its length once and rightly, and is not changed again. -/
structure Framed (m m' : Bytes) : Prop where
  parts : ∃ head head' body, Splits m head body ∧ Splits m' head' body ∧
    lengths head' = [⟨"Content-Length", toString body.length⟩]
  again : withLength? m' = some m'

/-- Every message with an empty line is given the length of its body, and one without is refused; a response that was
built has that length already, and a page is such a response. -/
theorem frames_message :
    (∀ m, Bytes.blankLine <:+: m → ∃ m', withLength? m = some m' ∧ Framed m m') ∧
      (∀ m, ¬Bytes.blankLine <:+: m → withLength? m = none) ∧
      (∀ status contentType body, OneLine status.toList → OneLine contentType.toList →
        withLength? (build status contentType body) = some (build status contentType body)) ∧
      ∀ text, page text = build "200 OK" "text/html; charset=utf-8" (utf8 text) := by
  refine ⟨fun m hm => ?_, fun m hm => withLength?_eq_none hm, fun _ _ body hs ht => withLength?_build hs ht body,
    page_eq_build⟩
  obtain ⟨head, body, s⟩ := exists_splits hm
  have hlines := s.headLines.relength body.length
  refine ⟨_, withLength?_of_splits s, ⟨head, _, body, s, hlines.splits body, lengths_relength s.headLines _⟩, ?_⟩
  rw [withLength?_message hlines, relength_relength]

/-- A head that begins with an empty line, with two wrong lengths and a byte that is no text, and a body with an empty
line in it; a response whose status looks like a header. -/
theorem frames_message_of_stale_lengths :
    let m := utf8 "\r\ncontent-length : 9\r\nX: " ++ [255] ++ utf8 "\r\nContent-Length:1\r\n\r\nab\r\n\r\nc"
    let m' := utf8 "\r\nX: \uFFFD\r\nContent-Length: 7\r\n\r\nab\r\n\r\nc"
    let response := build "200 Content-Length: 1" "" [1, 2]
    (Bytes.blankLine <:+: m ∧ ¬Bytes.blankLine <:+: m.take 40 ∧ OneLine "200 Content-Length: 1".toList ∧
        OneLine "".toList) ∧
      withLength? m = some m' ∧ Framed m m' ∧ withLength? (m.take 40) = none ∧ withLength? response = some response := by
  intro m m' response
  have hm : Bytes.blankLine <:+: m := by decide +kernel
  have hcut : ¬Bytes.blankLine <:+: m.take 40 := by decide +kernel
  have hs : OneLine "200 Content-Length: 1".toList := by decide
  have ht : OneLine "".toList := by decide
  obtain ⟨hframes, hnone, hbuild, -⟩ := frames_message
  obtain ⟨result, hresult, hframed⟩ := hframes m hm
  have hm' : withLength? m = some m' := by decide +kernel
  obtain rfl := Option.some.inj (hm'.symm.trans hresult)
  exact ⟨⟨hm, hcut, hs, ht⟩, hm', hframed, hnone _ hcut, hbuild _ _ _ hs ht⟩

end

end WebServer.Http.Response
