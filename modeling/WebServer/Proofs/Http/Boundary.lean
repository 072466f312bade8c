import WebServer.Proofs.Form.Parts
import WebServer.Proofs.Http.RoundTrip

/-! # Bodies that end at a boundary

Without a length the body of a form ends at the first closing delimiter in it, with the end of that line if it is
there. So it can end before its last part does, and once more when the end of the line comes late. -/

namespace WebServer.Http

open Form (closing)

variable {boundary : String}

/-! ## A delimiter in a growing buffer -/

theorem multipartLength?_eq (body : Bytes) (boundary : String) :
    multipartLength? body boundary = (Bytes.find? (closing boundary) body).map fun at_ =>
      if Bytes.crlf.isPrefixOf (body.drop (at_ + (closing boundary).length)) then at_ + (closing boundary).length + 2
      else at_ + (closing boundary).length :=
  rfl

theorem not_closing_suffix (boundary : String) (front : Bytes) : ¬ closing boundary <:+ front ++ Bytes.crlf := by
  rintro ⟨tail, htail⟩
  have hlast := congrArg List.getLast? htail
  simp [closing, Bytes.crlf] at hlast

/-- The body seemed to end with the closing delimiter, but the end of that line stands behind it. -/
def EndsEarly (boundary : String) (head : Head) (buffer : Bytes) : Prop :=
  let body := buffer.drop head.bodyOffset
  closing boundary <:+ body.take head.bodyLength ∧ Bytes.crlf <+: body.drop head.bodyLength

instance (boundary : String) (head : Head) (buffer : Bytes) : Decidable (EndsEarly boundary head buffer) :=
  inferInstanceAs (Decidable (_ ∧ _))

/-- The delimiter stays where it was found, and the end of its line counts as soon as it is there. -/
theorem multipartLength?_append {body : Bytes} {n : Nat} (h : multipartLength? body boundary = some n) (more : Bytes) :
    n ≤ body.length ∧ multipartLength? (body ++ more) boundary =
      some (if closing boundary <:+ (body ++ more).take n ∧ Bytes.crlf <+: (body ++ more).drop n then n + 2 else n) := by
  rw [multipartLength?_eq] at h
  obtain ⟨at_, hat, hn⟩ := Option.map_eq_some_iff.mp h
  obtain ⟨stop, hstop⟩ : ∃ stop, stop = at_ + (closing boundary).length := ⟨_, rfl⟩
  have hn : n = if Bytes.crlf.isPrefixOf (body.drop stop) then stop + 2 else stop := hstop ▸ hn.symm
  have hle : stop ≤ body.length := hstop ▸ Bytes.find?_le hat
  have hlonger : multipartLength? (body ++ more) boundary =
      some (if Bytes.crlf.isPrefixOf ((body ++ more).drop stop) then stop + 2 else stop) := by
    rw [multipartLength?_eq, Bytes.find?_append hat, hstop]
    rfl
  have hdrop : (body ++ more).drop stop = body.drop stop ++ more := List.drop_append_of_le_length hle
  by_cases hline : Bytes.crlf <+: body.drop stop
  · -- The end of the line was there, so that the body does not end with the delimiter.
    rw [if_pos (List.isPrefixOf_iff_prefix.mpr hline)] at hn
    subst hn
    obtain ⟨tail, htail⟩ := hline
    have htake : (body ++ more).take (stop + 2) = body.take stop ++ Bytes.crlf := by
      rw [List.take_add, hdrop, ← htail, List.append_assoc, List.take_append_of_le_length hle]
      rfl
    have hlength := congrArg List.length htail
    rw [List.length_append, List.length_drop] at hlength
    have hcrlf : Bytes.crlf.isPrefixOf ((body ++ more).drop stop) = true := by
      rw [List.isPrefixOf_iff_prefix, hdrop, ← htail, List.append_assoc]
      exact List.prefix_append _ _
    refine ⟨?_, ?_⟩
    · change 2 + tail.length = _ at hlength
      omega
    · rw [hlonger, if_pos hcrlf, if_neg]
      rw [htake]
      exact fun hboth => not_closing_suffix boundary _ hboth.1
  · rw [if_neg (fun hp => hline (List.isPrefixOf_iff_prefix.mp hp))] at hn
    subst hn
    have hsuffix : closing boundary <:+ (body ++ more).take n := by
      obtain ⟨tail, htail⟩ := Bytes.find?_prefix hat
      refine ⟨body.take at_, ?_⟩
      rw [List.take_append_of_le_length hle, hstop, List.take_add, ← htail]
      exact congrArg _ (List.take_left' rfl).symm
    refine ⟨hle, ?_⟩
    rw [hlonger]
    simp [hsuffix]

/-- Bytes behind a request whose body ends at a boundary change the answer only if the end of the line of the closing
delimiter is among them: then the body is two bytes longer, or too long. -/
theorem Head.read_append_of_boundary {limit : Nat} {buffer : Bytes} {block : HeadBlock} {head : Head}
    (hblock : HeadBlock.read buffer = .ready block) (hboundary : block.boundary? = some boundary)
    (h : Head.read limit buffer = .ready head) (more : Bytes) :
    Head.read limit (buffer ++ more) =
      if EndsEarly boundary head (buffer ++ more) then
        let longer : Head := { head with bodyLength := head.bodyLength + 2 }
        if limit < longer.totalLength then .failed (.tooLarge longer.totalLength limit) else .ready longer
      else .ready head := by
  obtain ⟨block', n, hblock', hmeasure, rfl, hlimit, hlength⟩ := read_eq_ready.mp h
  obtain rfl := Reading.ready.inj (hblock.symm.trans hblock')
  have hoffset := (HeadBlock.offset_le hblock).2
  have hdrop : (buffer ++ more).drop block.offset = buffer.drop block.offset ++ more :=
    List.drop_append_of_le_length hoffset
  have hn : multipartLength? (buffer.drop block.offset) boundary = some n := by
    rw [HeadBlock.measureBody, hboundary] at hmeasure
    dsimp only at hmeasure
    split at hmeasure
    · rename_i hn
      rw [hn, Reading.ready.inj hmeasure]
    · cases hmeasure
  obtain ⟨hle, hlonger⟩ := multipartLength?_append hn more
  rw [List.length_drop] at hle
  have hread : HeadBlock.read (buffer ++ more) = .ready block := by
    rw [HeadBlock.read_append (by simp [hblock]), hblock]
  have hmeasure' : block.measureBody (buffer ++ more) =
      .ready (if EndsEarly boundary (block.toHead n) (buffer ++ more) then n + 2 else n) := by
    rw [HeadBlock.measureBody, hboundary]
    dsimp only
    rw [hdrop, hlonger, ← hdrop]
    rfl
  rw [Head.read, hread]
  dsimp only
  rw [hmeasure']
  dsimp only
  by_cases hearly : EndsEarly boundary (block.toHead n) (buffer ++ more)
  · have hroom : n + 2 ≤ (buffer.drop block.offset ++ more).length := by
      have hcrlf := hearly.2.length_le
      change Bytes.crlf.length ≤ (((buffer ++ more).drop block.offset).drop n).length at hcrlf
      rw [hdrop, List.length_drop] at hcrlf
      change 2 ≤ _ at hcrlf
      omega
    have hfits : ¬ (buffer ++ more).length < (block.toHead (n + 2)).totalLength := by
      rw [List.length_append, List.length_drop] at hroom
      rw [List.length_append, Head.totalLength]
      change ¬ _ < min (block.offset + (n + 2)) maxSize
      omega
    rw [if_pos hearly, if_pos hearly, if_neg hfits]
    rfl
  · rw [if_neg hearly, if_neg hearly, if_neg (Nat.not_lt.mpr hlimit), if_neg]
    rw [List.length_append]
    omega

/-- A form without fields, the last two bytes of which come late. -/
theorem Head.read_append_of_boundary_late_crlf :
    let front := Text.utf8 "POST / HTTP/1.1\r\nContent-Type: multipart/form-data; boundary=X\r\n\r\n"
    let block : HeadBlock := ⟨⟨"POST", "/", "HTTP/1.1"⟩, [⟨"Content-Type", "multipart/form-data; boundary=X"⟩], 66⟩
    let buffer := front ++ Text.utf8 "--X--"
    HeadBlock.read buffer = .ready block ∧ block.boundary? = some "X" ∧
      Head.read 100 buffer = .ready (block.toHead 5) ∧ Head.read 100 (buffer ++ [13, 10]) = .ready (block.toHead 7) := by
  intro front block buffer
  have hblock : HeadBlock.read buffer = .ready block := by decide
  have hboundary : block.boundary? = some "X" := by decide
  have hread : Head.read 100 buffer = .ready (block.toHead 5) := by decide
  refine ⟨hblock, hboundary, hread, ?_⟩
  rw [Head.read_append_of_boundary hblock hboundary hread]
  decide

/-- The answer to a request whose body ends at a boundary depends on where the stream is cut. -/
theorem Head.read_append_of_boundary_changes :
    ¬ ∀ (limit : Nat) (buffer : Bytes) (block : HeadBlock) (boundary : String) (head : Head),
      HeadBlock.read buffer = .ready block → block.boundary? = some boundary →
        Head.read limit buffer = .ready head → ∀ more, Head.read limit (buffer ++ more) = .ready head := by
  intro h
  let front := Text.utf8 "POST / HTTP/1.1\r\nContent-Type: multipart/form-data; boundary=X\r\n\r\n"
  let block : HeadBlock := ⟨⟨"POST", "/", "HTTP/1.1"⟩, [⟨"Content-Type", "multipart/form-data; boundary=X"⟩], 66⟩
  have hsame := h 100 (front ++ Text.utf8 "--X--") block "X" (block.toHead 5) (by decide) (by decide) (by decide) [13, 10]
  revert hsame
  decide

/-! ## Forms that are sent without a length -/

section Forms

variable {items : List Form.Item} {i : Form.Item}

/-- A closing delimiter stands before the end of a line or behind it. -/
theorem findLoop_closing_append_crlf (hb : '\r' ∉ boundary.toList) (front rest : Bytes) (at_ : Nat) :
    Bytes.findLoop (closing boundary) (front ++ (Bytes.crlf ++ rest)) at_ =
      (Bytes.findLoop (closing boundary) front at_).or
        (Bytes.findLoop (closing boundary) rest (at_ + front.length + 2)) := by
  refine Bytes.findLoop_append_crlf (by decide) ?_ front rest at_
  simpa [Form.delimiter] using Text.carriageReturn_not_mem_utf8 hb

theorem bytes_eq_append_crlf (boundary : String) (i : Form.Item) :
    ∃ front, i.bytes boundary = front ++ Bytes.crlf := by
  refine ⟨Form.delimiter boundary ++ (Bytes.crlf ++ (i.block ++ (Bytes.blankLine ++ i.value))), ?_⟩
  simp only [Form.Item.bytes, List.append_assoc]

/-- The first closing delimiter stands in a part, and the end of a line behind it there, or it stands behind the part. -/
theorem findLoop_closing_bytes (hb : '\r' ∉ boundary.toList) (i : Form.Item) (rest : Bytes) (at_ : Nat) :
    (¬ closing boundary <:+: i.bytes boundary ∧
      Bytes.findLoop (closing boundary) (i.bytes boundary ++ rest) at_ =
        Bytes.findLoop (closing boundary) rest (at_ + (i.bytes boundary).length)) ∨
    closing boundary <:+: i.bytes boundary ∧
      ∃ k, Bytes.findLoop (closing boundary) (i.bytes boundary ++ rest) at_ = some k ∧
        k + (closing boundary).length + 2 ≤ at_ + (i.bytes boundary).length := by
  obtain ⟨front, hfront⟩ := bytes_eq_append_crlf boundary i
  have hne : closing boundary ≠ [] := by simp [closing]
  have hlength : (front ++ Bytes.crlf).length = front.length + 2 := List.length_append
  have hwhole := findLoop_closing_append_crlf hb front [] at_
  rw [List.append_nil, Bytes.findLoop, Option.or_none] at hwhole
  rw [hfront, List.append_assoc, findLoop_closing_append_crlf hb, hlength]
  cases hfind : Bytes.findLoop (closing boundary) front at_ with
  | none => exact .inl ⟨(Bytes.findLoop_eq_none hne).mp (hwhole.trans hfind), rfl⟩
  | some k =>
      have hle := (Bytes.findLoop_le hfind).2
      refine .inr ⟨?_, k, rfl, by omega⟩
      by_contra hinfix
      rw [(Bytes.findLoop_eq_none hne).mpr hinfix, hfind] at hwhole
      cases hwhole

theorem findLoop_closing_items (hb : '\r' ∉ boundary.toList) (items : List Form.Item) (rest : Bytes) (at_ : Nat) :
    ((∀ i ∈ items, ¬ closing boundary <:+: i.bytes boundary) ∧
      Bytes.findLoop (closing boundary) (items.flatMap (Form.Item.bytes boundary) ++ rest) at_ =
        Bytes.findLoop (closing boundary) rest (at_ + (items.flatMap (Form.Item.bytes boundary)).length)) ∨
    (¬ ∀ i ∈ items, ¬ closing boundary <:+: i.bytes boundary) ∧
      ∃ k, Bytes.findLoop (closing boundary) (items.flatMap (Form.Item.bytes boundary) ++ rest) at_ = some k ∧
        k + (closing boundary).length + 2 ≤ at_ + (items.flatMap (Form.Item.bytes boundary)).length := by
  induction items generalizing at_ with
  | nil => exact .inl ⟨by simp, rfl⟩
  | cons i items ih =>
      rw [List.flatMap_cons, List.append_assoc, List.length_append, ← Nat.add_assoc, List.forall_mem_cons]
      rcases findLoop_closing_bytes hb i (items.flatMap (Form.Item.bytes boundary) ++ rest) at_ with
        ⟨hi, hfind⟩ | ⟨hi, k, hfind, hk⟩
      · rw [hfind]
        rcases ih (at_ + (i.bytes boundary).length) with ⟨hitems, hrest⟩ | ⟨hitems, hrest⟩
        · exact .inl ⟨⟨hi, hitems⟩, hrest⟩
        · exact .inr ⟨fun h => hitems h.2, hrest⟩
      · exact .inr ⟨fun h => h.1 hi, k, hfind, by omega⟩

/-- The body ends where it was written to end, unless a part holds a closing delimiter: then it ends before that. -/
theorem multipartLength?_write (hb : '\r' ∉ boundary.toList) (items : List Form.Item) (rest : Bytes) :
    ∃ n, multipartLength? (Form.write boundary items ++ rest) boundary = some n ∧
      n ≤ (Form.write boundary items).length ∧
      (n = (Form.write boundary items).length ↔ ∀ i ∈ items, ¬ closing boundary <:+: i.bytes boundary) := by
  obtain ⟨front, hfront⟩ : ∃ front, front = items.flatMap (Form.Item.bytes boundary) := ⟨_, rfl⟩
  have hne : closing boundary ≠ [] := by simp [closing]
  have hbody : Form.write boundary items ++ rest = front ++ (closing boundary ++ (Bytes.crlf ++ rest)) := by
    rw [Form.write, ← hfront, List.append_assoc, List.append_assoc]
  have hlength : (Form.write boundary items).length = front.length + (closing boundary).length + 2 := by
    rw [Form.write, ← hfront, List.length_append, List.length_append, ← Nat.add_assoc]
    rfl
  have hitems := findLoop_closing_items hb items (closing boundary ++ (Bytes.crlf ++ rest)) 0
  rw [← hfront, Nat.zero_add] at hitems
  rw [multipartLength?_eq, hbody, Bytes.find?_of_ne_nil hne, hlength]
  rcases hitems with ⟨hclear, hfind⟩ | ⟨hhidden, k, hfind, hk⟩
  · have hstop : (front ++ closing boundary).length = front.length + (closing boundary).length := List.length_append
    have hcrlf : Bytes.crlf.isPrefixOf ((front ++ (closing boundary ++ (Bytes.crlf ++ rest))).drop
        (front.length + (closing boundary).length)) = true := by
      rw [← List.append_assoc, List.drop_left' hstop, List.isPrefixOf_iff_prefix]
      exact List.prefix_append _ _
    refine ⟨front.length + (closing boundary).length + 2, ?_, Nat.le_refl _, iff_of_true rfl hclear⟩
    rw [hfind, Bytes.findLoop_self hne]
    exact congrArg some (if_pos hcrlf)
  · rw [hfind, Option.map_some]
    refine ⟨_, rfl, ?_, iff_of_false ?_ hhidden⟩
    · split <;> omega
    · split <;> omega

end Forms

/-- A request whose body is the form of these parts, and whose head tells no more about it than the boundary. -/
structure Message.Submits (m : Message) (boundary : String) (items : List Form.Item) : Prop where
  head : m.HeadWritable
  contentLength : Head.valueOf? m.headers "Content-Length" = none
  contentType : (Head.valueOf? m.headers "Content-Type").bind Form.boundary? = some boundary
  plain : '\r' ∉ boundary.toList
  parts : ∀ i ∈ items, i.Writable boundary
  body : m.body = Form.write boundary items

/-- What is read of a form that was sent. The body is no longer than it was written. It is the whole body just if no
part holds a closing delimiter; then the form has all parts, and what follows is left. -/
structure Message.FormRead (m : Message) (boundary : String) (items : List Form.Item) (rest : Bytes) (head : Head) :
    Prop where
  ready : Head.read maxSize (m.bytes ++ rest) = .ready head
  offset : head.bodyOffset = m.head.bodyOffset
  within : head.bodyLength ≤ m.body.length
  whole_iff : head.bodyLength = m.body.length ↔ ∀ i ∈ items, ¬ closing boundary <:+: i.bytes boundary
  fields : head.bodyLength = m.body.length →
    let request : Request := { raw := (m.bytes ++ rest).take head.totalLength, head }
    List.Forall₂ (fun i field => i.IsField request.raw field) items request.form.fields
  left : head.bodyLength = m.body.length → (m.bytes ++ rest).drop head.totalLength = rest

namespace Message

variable {m : Message} {items : List Form.Item}

/-- The form of a request that was read as it was written. -/
theorem Submits.form_eq (h : m.Submits boundary items) (hsize : m.bytes.length < sizeLimit) :
    List.Forall₂ (fun i field => i.IsField m.bytes field) items m.request.form.fields := by
  obtain ⟨type, htype, hboundary⟩ := Option.bind_eq_some_iff.mp h.contentType
  have hbody : m.request.body = m.body := congrArg Message.body (ofRequest_request hsize).1
  have hoffset : m.request.bodyOffset = (m.lines ++ Bytes.blankLine).length := by
    rw [length_front, request_eq]
    exact bodyOffset_eq hsize []
  have hheader : (m.request.header? "Content-Type").getD "" = type := by
    change (Head.valueOf? m.headers "Content-Type").getD "" = type
    rw [htype, Option.getD_some]
  have hfields := Form.ofMultipart_write h.parts h.plain (m.lines ++ Bytes.blankLine) []
  rw [← h.body, List.append_nil, ← bytes_eq] at hfields
  rw [Request.form, hheader, hbody, hoffset, Form.ofBody, hboundary]
  exact hfields

/-- The head finds the end of a form that was sent without a length, unless a part holds a closing delimiter. -/
theorem Submits.read_form (h : m.Submits boundary items) (hsize : m.bytes.length < sizeLimit) (rest : Bytes) :
    ∃ head, m.FormRead boundary items rest head := by
  obtain ⟨n, hn, hle, hwhole⟩ := multipartLength?_write h.plain items rest
  rw [← h.body] at hn hle hwhole
  have hdrop : (m.bytes ++ rest).drop m.block.offset = m.body ++ rest := by
    rw [bytes_eq, List.append_assoc]
    exact List.drop_left' (length_front m)
  have hmeasure : m.block.measureBody (m.bytes ++ rest) = .ready n := by
    have hboundary : m.block.boundary? = some boundary := by
      have hheaders : m.block.headers = m.headers := rfl
      rw [HeadBlock.boundary?, hheaders, h.contentLength]
      exact h.contentType
    rw [HeadBlock.measureBody, hboundary]
    dsimp only
    rw [hdrop, hn]
  have hlength : (m.block.toHead n).totalLength ≤ m.bytes.length := by
    refine Nat.le_trans (Nat.min_le_left _ _) ?_
    rw [length_bytes]
    exact Nat.add_le_add_left hle m.block.offset
  -- The head of the whole body is the one that was written.
  have hhead : n = m.body.length → m.block.toHead n = m.head := by
    rintro rfl
    rfl
  refine ⟨m.block.toHead n, ?_, rfl, hle, hwhole, ?_, ?_⟩
  · refine Head.read_eq_ready.mpr ⟨m.block, n, h.head.read_block rest, hmeasure, rfl, Nat.min_le_right _ _, ?_⟩
    rw [List.length_append]
    exact Nat.le_trans hlength (Nat.le_add_right _ _)
  · intro heq request
    have hrequest : request = m.request := by
      change { raw := (m.bytes ++ rest).take (m.block.toHead n).totalLength, head := m.block.toHead n } = m.request
      rw [hhead heq, totalLength_head hsize, List.take_left' rfl]
      rfl
    rw [hrequest]
    exact h.form_eq hsize
  · intro heq
    rw [hhead heq, totalLength_head hsize, List.drop_left' rfl]

/-- A form with a field and a file, and the beginning of another request behind it. -/
theorem Submits.read_form_of_file :
    let items : List Form.Item := [
      { name := "say \"a\"", value := [49] },
      { name := "file", filename := some "a;b.txt", contentType := some "text/plain", value := [45, 45, 88] }]
    let m : Message := {
      method := "POST", url := "/", version := "HTTP/1.1",
      headers := [⟨"Content-Type", "multipart/form-data; boundary=X"⟩], body := Form.write "X" items }
    m.Submits "X" items ∧ m.bytes.length < sizeLimit ∧ ∃ head, m.FormRead "X" items [71, 69, 84] head := by
  intro items m
  have hsubmits : m.Submits "X" items := {
    head := ⟨by decide, by decide, by decide, by decide, by decide⟩
    contentLength := by decide
    contentType := by decide
    plain := by decide
    parts := by
      intro i hi
      simp only [items, List.mem_cons, List.not_mem_nil, or_false] at hi
      rcases hi with rfl | rfl
      · exact ⟨by decide, by decide, by decide, by decide⟩
      · exact ⟨by decide, by decide, by decide, by decide⟩
    body := rfl }
  have hsize : m.bytes.length < sizeLimit := by decide +kernel
  exact ⟨hsubmits, hsize, hsubmits.read_form hsize [71, 69, 84]⟩

/-- A file that holds the closing delimiter ends the body, whatever stands before it. -/
theorem Submits.not_whole_of_delimiter_in_file :
    ¬ ∀ (m : Message) (boundary : String) (items : List Form.Item) (rest : Bytes) (head : Head),
      m.Submits boundary items → Head.read maxSize (m.bytes ++ rest) = .ready head →
        head.bodyLength = m.body.length := by
  intro h
  let items : List Form.Item := [{ name := "f", value := Text.utf8 "a--X--b" }]
  let m : Message := {
    method := "POST", url := "/", version := "HTTP/1.1",
    headers := [⟨"Content-Type", "multipart/form-data; boundary=X"⟩], body := Form.write "X" items }
  have hsubmits : m.Submits "X" items := {
    head := ⟨by decide, by decide, by decide, by decide, by decide⟩
    contentLength := by decide
    contentType := by decide
    plain := by decide
    parts := by
      intro i hi
      obtain rfl := List.mem_singleton.mp hi
      exact ⟨by decide, by decide, by decide, by decide⟩
    body := rfl }
  have hread : Head.read maxSize (m.bytes ++ []) = .ready (m.block.toHead 55) := by decide +kernel
  have hlength := h m "X" items [] _ hsubmits hread
  revert hlength
  decide

end Message

end WebServer.Http
