import WebServer.Proofs.Http.Minimality
import WebServer.Proofs.Text.Lines

/-! # Requests as they are sent

A request may have empty lines in front, and any head without an empty line in it. Its size counts them, the head and
the body that the head declares. What a reader answers to a part of the request depends on the size, the limit and the
length of the part. -/

namespace WebServer

/-! ## Declared lengths -/

/-- The text is a decimal number, which a plus sign may precede. -/
def Text.IsDecimal (cs : List Char) (n : Nat) : Prop :=
  ∃ digits, (cs = digits ∨ cs = '+' :: digits) ∧ digits ≠ [] ∧ (∀ c ∈ digits, c.isDigit = true) ∧ digitsValue digits = n

theorem Text.readSize?_of_decimal {cs : List Char} {n : Nat} (hd : IsDecimal cs n) :
    readSize? cs = if n < sizeLimit then some n else none := by
  obtain ⟨digits, hcs, hne, hdigits, rfl⟩ := hd
  have hsign : (if cs.head? == some '+' then cs.tail else cs) = digits := by
    rcases hcs with rfl | rfl
    · refine if_neg ?_
      obtain ⟨c, cs, rfl⟩ := List.exists_cons_of_ne_nil hne
      rw [List.head?_cons, beq_iff_eq, Option.some.injEq]
      rintro rfl
      exact absurd (hdigits '+' List.mem_cons_self) (by decide)
    · rfl
  have hall : digits.all Char.isDigit = true := List.all_eq_true.mpr hdigits
  rw [readSize?, hsign]
  dsimp only
  rw [if_neg]
  simp [hne, hall]

namespace Http

/-! ## The bytes of a request -/

/-- A request as its sender makes it: how many empty lines it puts in front, the text of the head, and the body. -/
structure SentRequest where
  emptyLines : Nat
  text : List Char
  body : Bytes

namespace SentRequest

/-- The head, and the empty line behind it. -/
def lines (r : SentRequest) : Bytes :=
  Text.encode r.text ++ Bytes.blankLine

/-- All that comes in front of the body. -/
def front (r : SentRequest) : Bytes :=
  (List.replicate r.emptyLines Bytes.crlf).flatten ++ r.lines

def bytes (r : SentRequest) : Bytes :=
  r.front ++ r.body

def line? (r : SentRequest) : Option RequestLine :=
  RequestLine.read? ((Text.lines r.text).headD [])

def headers (r : SentRequest) : List Header :=
  (Text.lines r.text).tail.filterMap Header.read?

/-- The head has a request line, ends where it should and has a length that a buffer can have, and the body is as long
as the head declares. -/
structure WellFormed (r : SentRequest) : Prop where
  size : r.front.length < sizeLimit
  line : r.line?.isSome
  begins : ¬Bytes.crlf <+: r.lines
  ends : ∀ n < (Text.encode r.text).length, ¬Bytes.blankLine <+: r.lines.drop n
  body : (∃ value, Head.valueOf? r.headers "Content-Length" = some value ∧
      Text.IsDecimal value.toList r.body.length) ∨
    Head.valueOf? r.headers "Content-Length" = none ∧
      (Head.valueOf? r.headers "Content-Type").bind Form.boundary? = none ∧ r.body = []

/-- The lines of the head, as a reader finds them. -/
def block (r : SentRequest) (line : RequestLine) : HeadBlock :=
  ⟨line, r.headers, r.front.length⟩

/-- The head, as a reader finds it. -/
def head (r : SentRequest) (line : RequestLine) : Head :=
  (r.block line).toHead r.body.length

/-- The request that is handed over. -/
def request (r : SentRequest) (line : RequestLine) : Request :=
  { raw := r.bytes, head := r.head line }

variable {r : SentRequest} {line : RequestLine} {limit : Nat}

theorem length_bytes (r : SentRequest) : r.bytes.length = r.front.length + r.body.length :=
  List.length_append

theorem length_front_pos (r : SentRequest) : 0 < r.front.length := by
  rw [front, List.length_append, lines, List.length_append]
  exact Nat.lt_of_lt_of_le (by decide : 0 < Bytes.blankLine.length) (by omega)

/-! ## Reading the head -/

theorem leadingLines_crlf (count : Nat) {rest : Bytes} (hrest : ¬Bytes.crlf <+: rest) (n : Nat) :
    leadingLines ((List.replicate count Bytes.crlf).flatten ++ rest) n = n + 2 * count := by
  induction count generalizing n with
  | zero =>
      refine leadingLines_of_ne (fun more he => hrest ?_) n
      exact ⟨more, he.symm⟩
  | succ count ih =>
      rw [List.replicate_succ, List.flatten_cons, List.append_assoc, Bytes.crlf, List.cons_append, List.cons_append,
        List.nil_append, leadingLines]
      exact (ih (n + 2)).trans (by omega)

theorem WellFormed.find?_blankLine (hw : r.WellFormed) (rest : Bytes) :
    Bytes.find? Bytes.blankLine (r.lines ++ rest) = some (Text.encode r.text).length := by
  refine Bytes.find?_append ((Bytes.find?_eq_some (by decide)).mpr ⟨?_, hw.ends⟩) rest
  rw [lines, List.drop_left]

theorem WellFormed.read_front (hw : r.WellFormed) (hline : r.line? = some line) (rest : Bytes) :
    HeadBlock.read (r.front ++ rest) = .ready (r.block line) := by
  have hbegins : ¬Bytes.crlf <+: r.lines ++ rest := by
    intro hp
    refine hw.begins (List.prefix_of_prefix_length_le hp (List.prefix_append _ _) ?_)
    rw [lines, List.length_append]
    exact Nat.le_add_left_of_le (by decide)
  have hstart : leadingLines (r.front ++ rest) 0 = 2 * r.emptyLines := by
    rw [front, List.append_assoc, leadingLines_crlf _ hbegins, Nat.zero_add]
  have hcrlf : ((List.replicate r.emptyLines Bytes.crlf).flatten).length = 2 * r.emptyLines := by
    rw [List.length_flatten, List.map_replicate, List.sum_replicate_nat]
    exact Nat.mul_comm _ _
  have hdrop : (r.front ++ rest).drop (2 * r.emptyLines) = r.lines ++ rest := by
    rw [front, List.append_assoc]
    exact List.drop_left' hcrlf
  have htake : (r.lines ++ rest).take (Text.encode r.text).length = Text.encode r.text := by
    rw [lines, List.append_assoc]
    exact List.take_left' rfl
  have hoffset : 2 * r.emptyLines + (Text.encode r.text).length + Bytes.blankLine.length = r.front.length := by
    rw [front, List.length_append, hcrlf, lines, List.length_append, Nat.add_assoc]
  rw [line?] at hline
  rw [HeadBlock.read, hstart]
  dsimp only
  rw [hdrop, hw.find?_blankLine]
  dsimp only
  rw [htake, Text.decode?_encode]
  dsimp only
  rw [block, headers, ← hoffset]
  cases hlines : Text.lines r.text with
  | nil =>
      rw [hlines] at hline
      dsimp only
      rw [show RequestLine.read? [] = some line from hline]
      rfl
  | cons first others =>
      rw [hlines] at hline
      dsimp only
      rw [show RequestLine.read? first = some line from hline]
      rfl

theorem WellFormed.read_part_of_front (hw : r.WellFormed) {part more : Bytes} (hp : part ++ more = r.bytes)
    (hlt : part.length < r.front.length) : HeadBlock.read part = .notYet := by
  obtain ⟨line, hline⟩ := Option.isSome_iff_exists.mp hw.line
  by_contra hread
  -- What the part decides would be the head, which is longer.
  have hsame := HeadBlock.read_append hread more
  rw [hp, bytes, hw.read_front hline] at hsame
  have hle := (HeadBlock.offset_le hsame.symm).2
  exact absurd hlt (Nat.not_lt.mpr hle)

theorem WellFormed.boundary?_eq_none (hw : r.WellFormed) (line : RequestLine) : (r.block line).boundary? = none := by
  have hheaders : (r.block line).headers = r.headers := rfl
  rw [HeadBlock.boundary?, hheaders]
  rcases hw.body with ⟨value, hlength, -⟩ | ⟨hlength, hboundary, -⟩
  · rw [hlength]
  · rw [hlength]
    exact hboundary

/-- A request that does not fit a size has a body that declares its length. -/
theorem WellFormed.declared_of_long (hw : r.WellFormed) (hlong : sizeLimit ≤ r.bytes.length) :
    ∃ value, Head.valueOf? r.headers "Content-Length" = some value ∧ Text.IsDecimal value.toList r.body.length := by
  refine hw.body.resolve_right fun hnone => ?_
  have hsize := hw.size
  rw [length_bytes, hnone.2.2, List.length_nil] at hlong
  omega

theorem WellFormed.measureBody_eq_ready (hw : r.WellFormed) (hsize : r.bytes.length < sizeLimit) (line : RequestLine)
    (buffer : Bytes) : (r.block line).measureBody buffer = .ready r.body.length := by
  rw [length_bytes] at hsize
  refine (HeadBlock.measureBody_eq_ready (hw.boundary?_eq_none line)).mpr ?_
  rcases hw.body with ⟨value, hvalue, hdecimal⟩ | ⟨hvalue, -, hbody⟩
  · exact .inl ⟨value, hvalue, (Text.readSize?_of_decimal hdecimal).trans (if_pos (by omega)), hsize⟩
  · exact .inr ⟨hvalue, by rw [hbody, List.length_nil]⟩

theorem WellFormed.measureBody_eq_failed (hw : r.WellFormed) (hlong : sizeLimit ≤ r.bytes.length) (line : RequestLine)
    (buffer : Bytes) : ∃ value, (r.block line).measureBody buffer = .failed (.invalidContentLength value) := by
  obtain ⟨value, hvalue, hdecimal⟩ := hw.declared_of_long hlong
  have hheaders : Head.valueOf? (r.block line).headers "Content-Length" = some value := hvalue
  refine ⟨value, ?_⟩
  rw [HeadBlock.measureBody, hw.boundary?_eq_none line]
  dsimp only
  rw [hheaders]
  dsimp only
  rw [Text.readSize?_of_decimal hdecimal]
  by_cases hfits : r.body.length < sizeLimit
  · rw [if_pos hfits]
    refine if_neg (Nat.not_lt.mpr ?_)
    rwa [length_bytes] at hlong
  · rw [if_neg hfits]

/-! ## Reading the request -/

theorem totalLength_head (hsize : r.bytes.length < sizeLimit) (line : RequestLine) :
    (r.head line).totalLength = r.bytes.length := by
  rw [length_bytes] at hsize ⊢
  exact Nat.min_eq_left (Nat.le_sub_one_of_lt hsize)

/-- A part that ends within the head decides nothing. -/
theorem WellFormed.read_of_lt_front (hw : r.WellFormed) {part more : Bytes} (hp : part ++ more = r.bytes)
    (hlt : part.length < r.front.length) (limit : Nat) : Head.read limit part = .notYet := by
  rw [Head.read, hw.read_part_of_front hp hlt]

/-- A part that has the head in it is read by the head. -/
theorem WellFormed.read_of_front_le (hw : r.WellFormed) (hline : r.line? = some line) {part more : Bytes}
    (hp : part ++ more = r.bytes) (hle : r.front.length ≤ part.length) :
    HeadBlock.read part = .ready (r.block line) := by
  obtain ⟨rest, rfl⟩ : r.front <+: part :=
    List.prefix_of_prefix_length_le (List.prefix_append _ _) (hp ▸ List.prefix_append part more) hle
  exact hw.read_front hline rest

/-- A request whose length is no size is refused with its head. -/
theorem WellFormed.read_of_long (hw : r.WellFormed) (hlong : sizeLimit ≤ r.bytes.length) {part more : Bytes}
    (hp : part ++ more = r.bytes) (hle : r.front.length ≤ part.length) (limit : Nat) :
    ∃ value, Head.read limit part = .failed (.invalidContentLength value) := by
  obtain ⟨line, hline⟩ := Option.isSome_iff_exists.mp hw.line
  obtain ⟨value, hmeasure⟩ := hw.measureBody_eq_failed hlong line part
  refine ⟨value, ?_⟩
  rw [Head.read, hw.read_of_front_le hline hp hle]
  dsimp only
  rw [hmeasure]

/-- A request that is too large is refused with its head. -/
theorem WellFormed.read_of_large (hw : r.WellFormed) (hsize : r.bytes.length < sizeLimit)
    (hlimit : limit < r.bytes.length) {part more : Bytes} (hp : part ++ more = r.bytes)
    (hle : r.front.length ≤ part.length) : Head.read limit part = .failed (.tooLarge r.bytes.length limit) := by
  obtain ⟨line, hline⟩ := Option.isSome_iff_exists.mp hw.line
  have htotal : ((r.block line).toHead r.body.length).totalLength = r.bytes.length := totalLength_head hsize line
  rw [Head.read, hw.read_of_front_le hline hp hle]
  dsimp only
  rw [hw.measureBody_eq_ready hsize line part]
  dsimp only
  rw [htotal, if_pos hlimit]

/-- A request that is not too large is read when it is there. -/
theorem WellFormed.read_bytes (hw : r.WellFormed) (hline : r.line? = some line) (hsize : r.bytes.length < sizeLimit)
    (hlimit : r.bytes.length ≤ limit) : Head.read limit r.bytes = .ready (r.head line) := by
  have htotal := totalLength_head hsize line
  refine Head.read_eq_ready.mpr ⟨r.block line, r.body.length, hw.read_front hline r.body,
    hw.measureBody_eq_ready hsize line _, rfl, ?_, ?_⟩
  · rwa [htotal]
  · rw [htotal]

theorem WellFormed.plain (hw : r.WellFormed) : Plain r.bytes := by
  obtain ⟨line, hline⟩ := Option.isSome_iff_exists.mp hw.line
  intro block hb
  obtain rfl := Reading.ready.inj ((hw.read_front hline r.body).symm.trans hb)
  exact hw.boundary?_eq_none line

/-- It is not read before. -/
theorem WellFormed.read_part (hw : r.WellFormed) (hsize : r.bytes.length < sizeLimit) (hlimit : r.bytes.length ≤ limit)
    {part more : Bytes} (hp : part ++ more = r.bytes) (hmore : more ≠ []) : Head.read limit part = .notYet := by
  obtain ⟨line, hline⟩ := Option.isSome_iff_exists.mp hw.line
  have hlength := congrArg List.length hp
  rw [List.length_append] at hlength
  have hpos := List.length_pos_iff.mpr hmore
  have htake : (part ++ more).take part.length = part := List.take_left' rfl
  rw [← htake, hp]
  apply Head.read_take_of_lt (hw.read_bytes hline hsize hlimit) hw.plain
  rw [totalLength_head hsize]
  omega

end SentRequest
end Http
end WebServer
