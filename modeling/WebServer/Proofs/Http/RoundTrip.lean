import WebServer.Http.Request
import WebServer.Proofs.Http.Minimality
import WebServer.Proofs.Text.Lines

/-! # Requests written and read

Requests that were written one behind the other are read back one by one: no empty line stands in a head but at its
end, and the head tells where its body ends. -/

namespace WebServer

namespace Http

/-! ## Requests as they are written -/

/-- What a request is written from, and what is to be read from it. -/
structure Message where
  method : String
  url : String
  version : String
  headers : List Header
  body : Bytes
deriving DecidableEq, Repr

/-- A header that its line gives back. -/
@[mk_iff]
structure Header.Writable (h : Header) : Prop where
  colon : ':' ∉ h.name.toList
  name_line : Text.OneLine h.name.toList
  name_trim : Text.trim h.name.toList = h.name.toList
  value_line : Text.OneLine h.value.toList
  value_trim : Text.trim h.value.toList = h.value.toList

instance (h : Header) : Decidable h.Writable :=
  decidable_of_iff' _ (Header.writable_iff h)

def Header.line (h : Header) : List Char :=
  h.name.toList ++ ':' :: ' ' :: h.value.toList

namespace Message

/-- What a request says, apart from the place of its parts. -/
def ofRequest (r : Request) : Message :=
  ⟨r.head.method, r.head.url, r.head.version, r.head.headers, r.body⟩

/-- A request the parts of whose head can be told apart. -/
structure HeadWritable (m : Message) : Prop where
  method : Text.IsWord m.method.toList
  url : Text.IsWord m.url.toList
  version : Text.IsWord m.version.toList
  http : "HTTP/".toList <+: m.version.toList
  headers : ∀ h ∈ m.headers, h.Writable

/-- A request whose parts can be told apart, and whose head tells the length of the body. -/
@[mk_iff]
structure Writable (m : Message) : Prop where
  method : Text.IsWord m.method.toList
  url : Text.IsWord m.url.toList
  version : Text.IsWord m.version.toList
  http : "HTTP/".toList <+: m.version.toList
  headers : ∀ h ∈ m.headers, h.Writable
  body : Head.valueOf? m.headers "Content-Length" = some (toString m.body.length) ∨
    Head.valueOf? m.headers "Content-Length" = none ∧
      (Head.valueOf? m.headers "Content-Type").bind Form.boundary? = none ∧ m.body = []

instance (m : Message) : Decidable m.Writable :=
  decidable_of_iff' _ (writable_iff m)

theorem Writable.head {m : Message} (hw : m.Writable) : m.HeadWritable :=
  ⟨hw.method, hw.url, hw.version, hw.http, hw.headers⟩

def requestLine (m : Message) : List Char :=
  m.method.toList ++ ' ' :: (m.url.toList ++ ' ' :: m.version.toList)

/-- The bytes of the lines. -/
def lines (m : Message) : Bytes :=
  Text.encode (Text.joinLines (m.requestLine :: m.headers.map Header.line))

/-- The lines, an empty line and the body. -/
def bytes (m : Message) : Bytes :=
  m.lines ++ (Bytes.blankLine ++ m.body)

def block (m : Message) : HeadBlock :=
  ⟨⟨m.method, m.url, m.version⟩, m.headers, m.lines.length + 4⟩

def head (m : Message) : Head :=
  m.block.toHead m.body.length

/-- The request that is read from the bytes. -/
def request (m : Message) : Request :=
  { raw := m.bytes, head := m.head }

end Message

/-! ## Lines -/

theorem Header.Writable.line_oneLine {h : Header} (hw : h.Writable) : Text.OneLine h.line := by
  refine hw.name_line.append ?_ (by decide) (by decide)
  exact hw.value_line.cons fun hc => absurd hc (by decide)

theorem Header.Writable.read?_line {h : Header} (hw : h.Writable) : Header.read? h.line = some h := by
  have hcolon : ∀ c ∈ h.name.toList, (c == ':') = false := fun c hc =>
    beq_eq_false_iff_ne.mpr fun heq => hw.colon (heq ▸ hc)
  rw [Header.read?, Header.line, Text.cut?_append hcolon rfl, Option.map_some]
  dsimp only
  rw [Text.trim_space, hw.name_trim, hw.value_trim, String.ofList_toList, String.ofList_toList]

namespace Message

variable {m : Message}

theorem HeadWritable.requestLine_oneLine (hw : m.HeadWritable) : Text.OneLine m.requestLine := by
  apply Text.OneLine.append (.of_visible hw.method.visible) ?_ (by decide) (by decide)
  exact Text.OneLine.append (.of_visible hw.url.visible) (.of_visible hw.version.visible) (by decide) (by decide)

theorem HeadWritable.read?_requestLine (hw : m.HeadWritable) :
    RequestLine.read? m.requestLine = some ⟨m.method, m.url, m.version⟩ := by
  rw [RequestLine.read?, requestLine, Text.words_three hw.method hw.url hw.version]
  dsimp only
  rw [if_pos (List.isPrefixOf_iff_prefix.mpr hw.http), String.ofList_toList, String.ofList_toList, String.ofList_toList]

theorem HeadWritable.oneLine (hw : m.HeadWritable) : ∀ line ∈ m.requestLine :: m.headers.map Header.line, Text.OneLine line := by
  intro line hline
  rcases List.mem_cons.mp hline with rfl | hline
  · exact hw.requestLine_oneLine
  · obtain ⟨h, hh, rfl⟩ := List.mem_map.mp hline
    exact (hw.headers h hh).line_oneLine

theorem HeadWritable.find?_blankLine (hw : m.HeadWritable) (rest : Bytes) :
    Bytes.find? Bytes.blankLine (m.bytes ++ rest) = some m.lines.length := by
  have hne : ∀ line ∈ m.headers.map Header.line, line ≠ [] := by
    rintro line hline
    obtain ⟨h, -, rfl⟩ := List.mem_map.mp hline
    simp [Header.line]
  have hfind := Bytes.findLoop_joinLines hw.oneLine hne (m.body ++ rest) 0
  rw [Nat.zero_add] at hfind
  rw [Bytes.find?, if_neg (by decide), bytes, List.append_assoc, List.append_assoc]
  exact hfind

theorem HeadWritable.filterMap_line (hw : m.HeadWritable) : (m.headers.map Header.line).filterMap Header.read? = m.headers := by
  rw [List.filterMap_map]
  refine (List.filterMap_congr fun h hh => (hw.headers h hh).read?_line).trans ?_
  exact List.filterMap_some

/-- A request does not begin with an empty line. -/
theorem HeadWritable.leadingLines_eq (hw : m.HeadWritable) (rest : Bytes) : leadingLines (m.bytes ++ rest) 0 = 0 := by
  apply leadingLines_of_ne
  intro more
  obtain ⟨c, cs, hc⟩ := List.exists_cons_of_ne_nil hw.method.ne_nil
  have hvisible : Text.isBlank c = false := hw.method.visible c (hc ▸ List.mem_cons_self)
  obtain ⟨behind, hlines⟩ := Text.joinLines_begins m.requestLine (m.headers.map Header.line)
  rw [bytes, lines, ← hlines, requestLine, hc, List.append_assoc]
  apply Text.encode_ne_cons (by decide)
  intro hn
  obtain rfl : c = '\r' := Char.toNat_inj.mp hn
  exact absurd hvisible (by decide)

theorem HeadWritable.read_block (hw : m.HeadWritable) (rest : Bytes) : HeadBlock.read (m.bytes ++ rest) = .ready m.block := by
  have htake : (m.bytes ++ rest).take m.lines.length = m.lines := by
    rw [bytes, List.append_assoc]
    exact List.take_left' rfl
  have hdecode : Text.decode? m.lines = some (Text.joinLines (m.requestLine :: m.headers.map Header.line)) :=
    Text.decode?_encode _
  rw [HeadBlock.read, hw.leadingLines_eq]
  dsimp only
  rw [List.drop_zero, hw.find?_blankLine]
  dsimp only
  rw [htake, hdecode]
  dsimp only
  rw [Text.lines_joinLines hw.oneLine]
  dsimp only
  rw [hw.read?_requestLine, hw.filterMap_line, Nat.zero_add]
  rfl

/-! ## One request -/

theorem length_bytes (m : Message) : m.bytes.length = m.head.bodyOffset + m.head.bodyLength := by
  rw [bytes, List.length_append, List.length_append, ← Nat.add_assoc]
  rfl

theorem length_bytes_pos (m : Message) : 0 < m.bytes.length := by
  rw [length_bytes]
  exact Nat.lt_of_lt_of_le (Nat.succ_pos _) (Nat.le_add_right _ _)

theorem totalLength_head (hsize : m.bytes.length < sizeLimit) : m.head.totalLength = m.bytes.length := by
  rw [Head.totalLength, ← length_bytes]
  exact Nat.min_eq_left (Nat.le_sub_one_of_lt hsize)

theorem Writable.boundary?_eq_none (hw : m.Writable) : m.block.boundary? = none := by
  have hheaders : m.block.headers = m.headers := rfl
  rw [HeadBlock.boundary?, hheaders]
  rcases hw.body with hlength | ⟨hlength, hboundary, -⟩
  · rw [hlength]
  · rw [hlength]
    exact hboundary

theorem Writable.measureBody_eq (hw : m.Writable) (hsize : m.bytes.length < sizeLimit) (buffer : Bytes) :
    m.block.measureBody buffer = .ready m.body.length := by
  refine (HeadBlock.measureBody_eq_ready hw.boundary?_eq_none).mpr ?_
  rw [length_bytes] at hsize
  rcases hw.body with hlength | ⟨hlength, -, hbody⟩
  · exact .inl ⟨_, hlength, Text.readSize?_toString (by exact Nat.lt_of_le_of_lt (Nat.le_add_left _ _) hsize), hsize⟩
  · exact .inr ⟨hlength, by rw [hbody]; rfl⟩

/-- A request is read back whatever follows. -/
theorem Writable.read_bytes (hw : m.Writable) {limit : Nat} (hlimit : m.bytes.length ≤ limit)
    (hsize : m.bytes.length < sizeLimit) (rest : Bytes) : Head.read limit (m.bytes ++ rest) = .ready m.head := by
  refine Head.read_eq_ready.mpr ⟨m.block, m.body.length, hw.head.read_block rest, hw.measureBody_eq hsize _, rfl, ?_, ?_⟩
  · rw [totalLength_head hsize]
    exact hlimit
  · rw [totalLength_head hsize, List.length_append]
    exact Nat.le_add_right _ _

/-- A part of a request is not read. -/
theorem Writable.read_part (hw : m.Writable) {limit : Nat} (hlimit : m.bytes.length ≤ limit)
    (hsize : m.bytes.length < sizeLimit) {n : Nat} (hn : n < m.bytes.length) :
    Head.read limit (m.bytes.take n) = .notYet := by
  have hread := hw.read_bytes hlimit hsize []
  have hblock := hw.head.read_block []
  rw [List.append_nil] at hread hblock
  have hplain : Plain m.bytes := by
    intro block hb
    obtain rfl := Reading.ready.inj (hblock.symm.trans hb)
    exact hw.boundary?_eq_none
  apply Head.read_take_of_lt hread hplain
  rwa [totalLength_head hsize]

theorem size_eq (hsize : m.bytes.length < sizeLimit) (rest : Bytes) :
    Request.size { raw := m.bytes ++ rest, head := m.head } = m.bytes.length := by
  rw [Request.size, totalLength_head hsize, List.length_append]
  exact Nat.min_eq_left (Nat.le_add_right _ _)

theorem bodyOffset_eq (hsize : m.bytes.length < sizeLimit) (rest : Bytes) :
    Request.bodyOffset { raw := m.bytes ++ rest, head := m.head } = m.head.bodyOffset := by
  rw [Request.bodyOffset, size_eq hsize, length_bytes]
  exact Nat.min_eq_left (Nat.le_add_right _ _)

theorem bytes_eq (m : Message) : m.bytes = m.lines ++ Bytes.blankLine ++ m.body :=
  (List.append_assoc _ _ _).symm

theorem length_front (m : Message) : (m.lines ++ Bytes.blankLine).length = m.head.bodyOffset :=
  List.length_append

/-- What is read from the bytes of a request says the same as the request, whatever follows. -/
theorem ofRequest_eq (hsize : m.bytes.length < sizeLimit) (rest : Bytes) :
    ofRequest { raw := m.bytes ++ rest, head := m.head } = m := by
  have hlength : Request.bodyLength { raw := m.bytes ++ rest, head := m.head } = m.body.length := by
    rw [Request.bodyLength, size_eq hsize, bodyOffset_eq hsize, length_bytes]
    exact Nat.add_sub_cancel_left _ _
  have hbody : Request.body { raw := m.bytes ++ rest, head := m.head } = m.body := by
    rw [Request.body, bodyOffset_eq hsize, hlength, bytes_eq, List.append_assoc _ m.body,
      List.drop_left' (length_front m)]
    exact List.take_left' rfl
  rw [ofRequest, hbody]
  rfl

theorem request_eq (m : Message) : m.request = { raw := m.bytes ++ [], head := m.head } := by
  rw [List.append_nil]
  rfl

/-- The request that is read says what was written, and holds the bytes that were written. -/
theorem ofRequest_request (hsize : m.bytes.length < sizeLimit) : ofRequest m.request = m ∧ m.request.bytes = m.bytes := by
  refine ⟨request_eq m ▸ ofRequest_eq hsize [], ?_⟩
  rw [Request.bytes, request_eq, size_eq hsize]
  exact List.take_left' rfl

end Message

/-! ## Requests one behind the other -/

/-- Read a number of requests and remove each of them, with the length that it takes up. What is left comes last. -/
def takeMessages (limit : Nat) : Nat → Bytes → Option (List (Message × Nat) × Bytes)
  | 0, buffer => some ([], buffer)
  | count + 1, buffer =>
    match Head.read limit buffer with
    | .ready head =>
      (takeMessages limit count (buffer.drop head.totalLength)).map fun (messages, rest) =>
        ((Message.ofRequest { raw := buffer, head }, head.totalLength) :: messages, rest)
    | _ => none

/-- A request that can be written within a limit, and fits into memory. -/
structure Message.WritableWithin (limit : Nat) (m : Message) : Prop where
  writable : m.Writable
  limit : m.bytes.length ≤ limit
  size : m.bytes.length < sizeLimit

theorem takeMessages_bytes {limit : Nat} {m : Message} (hm : m.WritableWithin limit) (count : Nat) (rest : Bytes) :
    takeMessages limit (count + 1) (m.bytes ++ rest) =
      (takeMessages limit count rest).map fun (messages, rest) => ((m, m.bytes.length) :: messages, rest) := by
  rw [takeMessages, hm.writable.read_bytes hm.limit hm.size]
  dsimp only
  rw [Message.totalLength_head hm.size, List.drop_left' rfl, Message.ofRequest_eq hm.size]

/-- Requests that are written one behind the other are read back as they are, and what follows them is left. -/
theorem takeMessages_flatMap {limit : Nat} {ms : List Message} (h : ∀ m ∈ ms, m.WritableWithin limit) (rest : Bytes) :
    takeMessages limit ms.length (ms.flatMap Message.bytes ++ rest) =
      some (ms.map fun m => (m, m.bytes.length), rest) := by
  induction ms with
  | nil => rfl
  | cons m ms ih =>
      rw [List.forall_mem_cons] at h
      rw [List.flatMap_cons, List.append_assoc, List.length_cons, takeMessages_bytes h.1, ih h.2]
      rfl

/-- What is left of a stream of requests is empty, or a part of a request. -/
theorem read_of_flatMap {limit : Nat} {ms : List Message} (h : ∀ m ∈ ms, m.WritableWithin limit) {part more : Bytes}
    (hpart : part ++ more = ms.flatMap Message.bytes) (hlt : ∀ m ∈ ms.head?, part.length < m.bytes.length) :
    part = [] ∨ Head.read limit part = .notYet ∧ part.length ≤ limit := by
  cases ms with
  | nil => exact .inl (List.append_eq_nil_iff.mp hpart).1
  | cons m ms =>
      have hm := h m List.mem_cons_self
      have hlt : part.length < m.bytes.length := hlt m rfl
      rw [List.flatMap_cons] at hpart
      have hbegins : part <+: m.bytes :=
        List.prefix_of_prefix_length_le (hpart ▸ List.prefix_append _ _) (List.prefix_append _ _) (Nat.le_of_lt hlt)
      refine .inr ⟨?_, Nat.le_trans (Nat.le_of_lt hlt) hm.limit⟩
      rw [List.prefix_iff_eq_take.mp hbegins]
      exact hm.writable.read_part hm.limit hm.size hlt

end Http
end WebServer
