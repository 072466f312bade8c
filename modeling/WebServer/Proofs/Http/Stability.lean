import Mathlib.Data.List.Basic
import WebServer.Http.Request
import WebServer.Proofs.Text.Search

/-! # Requests in a growing buffer

What a buffer starts with is decided by its first bytes: bytes behind a complete request, or behind a head that
was refused, change nothing. A body that ends at a boundary is the exception. -/

namespace WebServer

namespace Http

/-- The empty lines at the start are counted once something else has come. -/
theorem leadingLines_append {buffer : Bytes} {n : Nat} (h : leadingLines buffer n + 2 ≤ n + buffer.length)
    (more : Bytes) : leadingLines (buffer ++ more) n = leadingLines buffer n := by
  induction buffer, n using leadingLines.induct with
  | case1 rest n ih =>
      rw [leadingLines] at h ⊢
      rw [List.cons_append, List.cons_append, leadingLines]
      refine ih ?_
      simp only [List.length_cons] at h
      omega
  | case2 buffer n hne =>
      have hn : leadingLines buffer n = n := by
        rw [leadingLines]
        exact hne
      rw [hn] at h ⊢
      match buffer with
      | [] =>
          rw [List.length_nil] at h
          omega
      | [x] =>
          rw [List.length_singleton] at h
          omega
      | x :: y :: rest =>
          rw [List.cons_append, List.cons_append, leadingLines]
          intro rest' he
          simp only [List.cons.injEq] at he
          exact hne rest (by rw [he.1, he.2.1])

/-- Once the empty line behind a head is there, bytes behind it change nothing. -/
theorem HeadBlock.read_append {buffer : Bytes} (h : HeadBlock.read buffer ≠ .notYet) (more : Bytes) :
    HeadBlock.read (buffer ++ more) = HeadBlock.read buffer := by
  cases hf : Bytes.find? Bytes.blankLine (buffer.drop (leadingLines buffer 0)) with
  | none =>
      refine absurd ?_ h
      rw [HeadBlock.read, hf]
  | some length =>
      have hle := Bytes.find?_le hf
      rw [List.length_drop] at hle
      have hstart : leadingLines (buffer ++ more) 0 = leadingLines buffer 0 := by
        refine leadingLines_append ?_ more
        simp only [Bytes.blankLine, List.length_cons] at hle
        omega
      have hdrop : (buffer ++ more).drop (leadingLines buffer 0) =
          buffer.drop (leadingLines buffer 0) ++ more := by
        refine List.drop_append_of_le_length ?_
        simp only [Bytes.blankLine, List.length_cons] at hle
        omega
      have htake : (buffer.drop (leadingLines buffer 0) ++ more).take length =
          (buffer.drop (leadingLines buffer 0)).take length := by
        refine List.take_append_of_le_length ?_
        rw [List.length_drop]
        omega
      rw [HeadBlock.read, HeadBlock.read, hstart, hdrop, hf, Bytes.find?_append hf]
      dsimp only
      rw [htake]

theorem HeadBlock.offset_le {buffer : Bytes} {block : HeadBlock} (h : HeadBlock.read buffer = .ready block) :
    0 < block.offset ∧ block.offset ≤ buffer.length := by
  rw [HeadBlock.read] at h
  dsimp only at h
  split at h
  · simp at h
  · rename_i length hf
    have hle := Bytes.find?_le hf
    simp only [Bytes.blankLine, List.length_drop, List.length_cons, List.length_nil] at hle
    split at h
    · simp at h
    · split at h
      · simp at h
      · simp only [Reading.ready.injEq] at h
        subst h
        simp only [Bytes.blankLine, List.length_cons, List.length_nil]
        omega

/-- A body that does not end at a boundary is measured by the head alone. -/
theorem HeadBlock.measureBody_eq {block : HeadBlock} (hb : block.boundary? = none) (buffer buffer' : Bytes) :
    block.measureBody buffer = block.measureBody buffer' := by
  rw [measureBody, measureBody, hb]

/-- The request at the start of a buffer is not one whose body ends at a boundary. -/
def Plain (buffer : Bytes) : Prop :=
  ∀ block, HeadBlock.read buffer = .ready block → block.boundary? = none

theorem Plain.of_append {buffer more : Bytes} (hp : Plain (buffer ++ more)) : Plain buffer := by
  intro block hb
  refine hp block ?_
  rw [HeadBlock.read_append (by simp [hb]) more, hb]

namespace Head

/-- Bytes behind a complete request leave it as it is. -/
theorem read_append_of_ready {limit : Nat} {buffer : Bytes} {head : Head} (h : Head.read limit buffer = .ready head)
    (hp : Plain buffer) (more : Bytes) : Head.read limit (buffer ++ more) = .ready head := by
  rw [Head.read] at h ⊢
  split at h
  · simp at h
  · simp at h
  · rename_i block hb
    rw [HeadBlock.read_append (by simp [hb]) more, hb]
    dsimp only
    rw [HeadBlock.measureBody_eq (hp block hb) _ buffer]
    split at h
    · simp at h
    · simp at h
    · dsimp only at h ⊢
      split at h
      · simp at h
      · rw [if_neg ‹_›]
        split at h
        · simp at h
        · rename_i hlen
          rw [if_neg]
          · exact h
          · rw [List.length_append]
            omega

theorem read_append_of_failed {limit : Nat} {buffer : Bytes} {error : HeadError}
    (h : Head.read limit buffer = .failed error) (hp : Plain buffer) (more : Bytes) :
    Head.read limit (buffer ++ more) = .failed error := by
  rw [Head.read] at h ⊢
  split at h
  · simp at h
  · rename_i hb
    rw [HeadBlock.read_append (by simp [hb]) more, hb]
    exact h
  · rename_i block hb
    rw [HeadBlock.read_append (by simp [hb]) more, hb]
    dsimp only
    rw [HeadBlock.measureBody_eq (hp block hb) _ buffer]
    split at h
    · simp at h
    · exact h
    · dsimp only at h ⊢
      split at h
      · rw [if_pos ‹_›]
        exact h
      · split at h <;> simp at h

/-- A complete request takes up at least one byte of the buffer, and no more than there are. -/
theorem totalLength_of_ready {limit : Nat} {buffer : Bytes} {head : Head}
    (h : Head.read limit buffer = .ready head) :
    0 < head.totalLength ∧ head.totalLength ≤ buffer.length := by
  rw [Head.read] at h
  split at h
  · simp at h
  · simp at h
  · rename_i block hb
    have hoffset := (HeadBlock.offset_le hb).1
    split at h
    · simp at h
    · simp at h
    · dsimp only at h
      split at h
      · simp at h
      · split at h
        · simp at h
        · rename_i hlen
          simp only [Reading.ready.injEq] at h
          subst h
          refine ⟨?_, by omega⟩
          rw [Head.totalLength, Nat.lt_min]
          exact ⟨Nat.add_pos_left hoffset _, by decide⟩

end Head

/-! ## Streams of requests -/

/-- What is left of a stream behind complete requests, none of which asks for another protocol. -/
inductive Behind (limit : Nat) (stream : Bytes) : Bytes → Prop where
  | start : Behind limit stream stream
  | request {rest : Bytes} {head : Head} (hb : Behind limit stream rest)
      (hr : Head.read limit rest = .ready head)
      (hu : Request.isUpgrade { raw := rest.take head.totalLength, head } = false) :
      Behind limit stream (rest.drop head.totalLength)

/-- No request in a stream has a body that ends at a boundary. -/
def PlainStream (limit : Nat) (stream : Bytes) : Prop :=
  ∀ rest, Behind limit stream rest → Plain rest

theorem PlainStream.plain {limit : Nat} {stream : Bytes} (h : PlainStream limit stream) : Plain stream :=
  h stream .start

/-- What follows a request in a stream is a stream of its own. -/
theorem PlainStream.drop {limit : Nat} {stream : Bytes} (h : PlainStream limit stream) {head : Head}
    (hr : Head.read limit stream = .ready head)
    (hu : Request.isUpgrade { raw := stream.take head.totalLength, head } = false) :
    PlainStream limit (stream.drop head.totalLength) := by
  intro rest hb
  refine h rest ?_
  induction hb with
  | start => exact .request .start hr hu
  | request _ hr' hu' ih => exact .request ih hr' hu'

theorem PlainStream.of_notYet {limit : Nat} {stream : Bytes} (hp : Plain stream)
    (hr : Head.read limit stream = .notYet) : PlainStream limit stream := by
  intro rest hb
  have hrest : rest = stream := by
    induction hb with
    | start => rfl
    | request _ hr' _ ih => simp [ih, hr] at hr'
  rwa [hrest]

theorem PlainStream.of_ready {limit : Nat} {stream : Bytes} (hp : Plain stream) {head : Head}
    (hr : Head.read limit stream = .ready head) (hrest : PlainStream limit (stream.drop head.totalLength)) :
    PlainStream limit stream := by
  intro rest hb
  -- Whatever lies behind the first request lies behind the start of what follows it.
  have hsplit : rest = stream ∨ Behind limit (stream.drop head.totalLength) rest := by
    induction hb with
    | start => exact .inl rfl
    | request _ hr' hu' ih =>
        rcases ih with rfl | hb
        · rw [hr, Reading.ready.injEq] at hr'
          exact .inr (hr' ▸ .start)
        · exact .inr (.request hb hr' hu')
  rcases hsplit with rfl | hb
  · exact hp
  · exact hrest rest hb

end Http
end WebServer
