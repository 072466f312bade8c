import WebServer.Proofs.Http.Stability

/-! # The bytes that make a request

A request is complete with the last byte that it takes up, and with none before. So the answer to a growing buffer
changes once, at the same byte however the bytes come. -/

namespace WebServer

namespace Http

theorem leadingLines_of_ne {buffer : Bytes} (hne : ∀ rest, buffer ≠ 13 :: 10 :: rest) (n : Nat) :
    leadingLines buffer n = n := by
  rw [leadingLines]
  exact hne

theorem le_leadingLines (buffer : Bytes) (n : Nat) : n ≤ leadingLines buffer n := by
  induction buffer, n using leadingLines.induct with
  | case1 rest n ih =>
      rw [leadingLines]
      omega
  | case2 buffer n hne => exact Nat.le_of_eq (leadingLines_of_ne hne n).symm

/-- The empty lines at the start and two bytes behind them are enough to count them. -/
theorem leadingLines_take {buffer : Bytes} {m n : Nat} (h : leadingLines buffer m + 2 ≤ m + n) :
    leadingLines (buffer.take n) m = leadingLines buffer m := by
  induction buffer, m using leadingLines.induct generalizing n with
  | case1 rest m ih =>
      rw [leadingLines] at h ⊢
      have hle := le_leadingLines rest (m + 2)
      obtain ⟨n, rfl⟩ : ∃ k, n = k + 2 := ⟨n - 2, by omega⟩
      rw [List.take_succ_cons, List.take_succ_cons, leadingLines]
      exact ih (by omega)
  | case2 buffer m hne =>
      rw [leadingLines_of_ne hne] at h ⊢
      apply leadingLines_of_ne
      intro rest he
      obtain ⟨n, rfl⟩ : ∃ k, n = k + 2 := ⟨n - 2, by omega⟩
      apply hne (rest ++ buffer.drop (n + 2))
      rw [← List.cons_append, ← List.cons_append, ← he, List.take_append_drop]

/-- A head is read off any beginning of the buffer that holds it. -/
theorem HeadBlock.read_take {buffer : Bytes} {block : HeadBlock} (h : HeadBlock.read buffer = .ready block) {n : Nat}
    (hn : block.offset ≤ n) : HeadBlock.read (buffer.take n) = .ready block := by
  -- It is enough that the beginning decides, since what is decided stays so.
  suffices hread : HeadBlock.read (buffer.take n) ≠ .notYet by
    rw [← h, ← read_append hread (buffer.drop n), List.take_append_drop]
  rw [read] at h
  dsimp only at h
  split at h
  · simp at h
  · rename_i length hf
    have hoffset : block.offset = leadingLines buffer 0 + length + Bytes.blankLine.length := by
      split at h
      · simp at h
      · split at h
        · simp at h
        · rw [← Reading.ready.inj h]
    have hblank : Bytes.blankLine.length = 4 := rfl
    have hstart : leadingLines (buffer.take n) 0 = leadingLines buffer 0 := leadingLines_take (by omega)
    rw [read, hstart, List.drop_take, Bytes.find?_take hf (by omega)]
    dsimp only
    split
    · simp
    · split <;> simp

/-- A body that does not end at a boundary has the length that the head gives, or none. -/
theorem HeadBlock.measureBody_eq_ready {block : HeadBlock} (hb : block.boundary? = none) {buffer : Bytes} {n : Nat} :
    block.measureBody buffer = .ready n ↔
      (∃ value, Head.valueOf? block.headers "Content-Length" = some value ∧ Text.readSize? value.toList = some n ∧
        block.offset + n < sizeLimit) ∨
      Head.valueOf? block.headers "Content-Length" = none ∧ n = 0 := by
  rw [measureBody, hb]
  dsimp only
  cases Head.valueOf? block.headers "Content-Length" with
  | none => simp [eq_comm]
  | some value =>
      simp only [Option.some.injEq, exists_eq_left', reduceCtorEq, false_and, or_false]
      cases Text.readSize? value.toList with
      | none => simp
      | some m =>
          dsimp only
          split
          · rename_i hlt
            constructor
            · intro hm
              obtain rfl := Reading.ready.inj hm
              exact ⟨rfl, hlt⟩
            · rintro ⟨hm, -⟩
              rw [Option.some.inj hm]
          · rename_i hlt
            constructor
            · intro hm
              cases hm
            · rintro ⟨hm, hlt'⟩
              exact absurd (Option.some.inj hm ▸ hlt') hlt

namespace Head

/-- A request is there once its head and all its bytes are, unless they are too many. -/
theorem read_eq_ready {limit : Nat} {buffer : Bytes} {head : Head} :
    Head.read limit buffer = .ready head ↔
      ∃ block n, HeadBlock.read buffer = .ready block ∧ block.measureBody buffer = .ready n ∧ head = block.toHead n ∧
        head.totalLength ≤ limit ∧ head.totalLength ≤ buffer.length := by
  constructor
  · intro h
    rw [Head.read] at h
    split at h
    · simp at h
    · simp at h
    · rename_i block hb
      split at h
      · simp at h
      · simp at h
      · rename_i n hmeasure
        dsimp only at h
        split at h
        · simp at h
        · rename_i hlimit
          split at h
          · simp at h
          · rename_i hlength
            obtain rfl := Reading.ready.inj h
            exact ⟨block, n, hb, hmeasure, rfl, Nat.le_of_not_lt hlimit, Nat.le_of_not_lt hlength⟩
  · rintro ⟨block, n, hb, hmeasure, rfl, hlimit, hlength⟩
    rw [Head.read, hb]
    dsimp only
    rw [hmeasure]
    dsimp only
    rw [if_neg (Nat.not_lt.mpr hlimit), if_neg (Nat.not_lt.mpr hlength)]

/-- The answer to a buffer that decides is the answer to any buffer that goes on from there. -/
theorem read_append {limit : Nat} {buffer : Bytes} (h : Head.read limit buffer ≠ .notYet) (hp : Plain buffer)
    (more : Bytes) : Head.read limit (buffer ++ more) = Head.read limit buffer := by
  cases hread : Head.read limit buffer with
  | notYet => exact absurd hread h
  | failed error => exact read_append_of_failed hread hp more
  | ready head => exact read_append_of_ready hread hp more

/-- A request whose end the head tells takes up as many bytes as the head says. -/
theorem totalLength_eq {limit : Nat} {buffer : Bytes} {head : Head} (h : Head.read limit buffer = .ready head)
    (hp : Plain buffer) (hsize : buffer.length < sizeLimit) : head.totalLength = head.bodyOffset + head.bodyLength := by
  obtain ⟨block, n, hb, hmeasure, rfl, -, -⟩ := read_eq_ready.mp h
  have hoffset := (HeadBlock.offset_le hb).2
  have hn : block.offset + n < sizeLimit := by
    rcases (HeadBlock.measureBody_eq_ready (hp block hb)).mp hmeasure with ⟨_, _, _, hlt⟩ | ⟨_, rfl⟩
    · exact hlt
    · omega
  exact Nat.min_eq_left (Nat.le_sub_one_of_lt hn)

/-- The bytes of a request are enough to read it. -/
theorem read_take {limit : Nat} {buffer : Bytes} {head : Head} (h : Head.read limit buffer = .ready head)
    (hp : Plain buffer) (hsize : buffer.length < sizeLimit) :
    Head.read limit (buffer.take head.totalLength) = .ready head := by
  have htotal := totalLength_eq h hp hsize
  obtain ⟨block, n, hb, hmeasure, rfl, hlimit, hlength⟩ := read_eq_ready.mp h
  have hoffset : block.offset ≤ (block.toHead n).totalLength := by
    rw [htotal]
    exact Nat.le_add_right _ _
  refine read_eq_ready.mpr ⟨block, n, HeadBlock.read_take hb hoffset, ?_, rfl, hlimit, ?_⟩
  · rw [HeadBlock.measureBody_eq (hp block hb) _ buffer, hmeasure]
  · rw [List.length_take]
    omega

/-- A request is not there before its last byte. -/
theorem read_take_of_lt {limit : Nat} {buffer : Bytes} {head : Head} (h : Head.read limit buffer = .ready head)
    (hp : Plain buffer) {n : Nat} (hn : n < head.totalLength) : Head.read limit (buffer.take n) = .notYet := by
  have hplain : Plain (buffer.take n) := by
    rw [← List.take_append_drop n buffer] at hp
    exact hp.of_append
  by_contra hread
  -- What the beginning decides would be decided of the whole buffer, too.
  have hsame := read_append hread hplain (buffer.drop n)
  rw [List.take_append_drop, h] at hsame
  have hle := (totalLength_of_ready hsame.symm).2
  rw [List.length_take] at hle
  omega

end Head

/-- The request at the start of a buffer is complete with the last byte that it takes up, and with none before. -/
structure Minimal (limit : Nat) (buffer : Bytes) (head : Head) : Prop where
  within : head.bodyOffset + head.bodyLength ≤ min buffer.length limit
  complete : Head.read limit (buffer.take (head.bodyOffset + head.bodyLength)) = .ready head
  incomplete : ∀ n < head.bodyOffset + head.bodyLength, Head.read limit (buffer.take n) = .notYet

/-- The answer to a growing buffer changes once, with the last byte of the request. A request is measured in sizes, so
that its buffer has to be one that fits into memory. -/
theorem Head.read_append_minimal (limit : Nat) {buffer : Bytes} (hp : Plain buffer) (more : Bytes) :
    (Head.read limit buffer ≠ .notYet → Head.read limit (buffer ++ more) = Head.read limit buffer) ∧
      ∀ head, Head.read limit buffer = .ready head → buffer.length < sizeLimit → Minimal limit buffer head := by
  constructor
  · intro h
    exact read_append h hp more
  · intro head h hsize
    have htotal := totalLength_eq h hp hsize
    obtain ⟨-, -, -, -, -, hlimit, hlength⟩ := read_eq_ready.mp h
    refine ⟨htotal ▸ Nat.le_min.mpr ⟨hlength, hlimit⟩, htotal ▸ read_take h hp hsize, ?_⟩
    intro n hn
    exact read_take_of_lt h hp (htotal ▸ hn)

/-- A request behind an empty line, with a body and the beginning of another request behind it. -/
theorem Head.read_append_minimal_of_empty_line :
    let buffer := Text.utf8 "\r\nPOST / HTTP/1.1\r\nContent-Length: 2\r\n\r\nokGE"
    let head : Head := ⟨"POST", "/", "HTTP/1.1", [⟨"Content-Length", "2"⟩], 40, 2⟩
    Plain buffer ∧ Head.read 42 buffer = .ready head ∧ Head.read 42 (buffer ++ [84]) = .ready head ∧
      Minimal 42 buffer head := by
  intro buffer head
  have hblock : HeadBlock.read buffer = .ready ⟨⟨"POST", "/", "HTTP/1.1"⟩, [⟨"Content-Length", "2"⟩], 40⟩ := by decide
  have hplain : Plain buffer := by
    intro block hb
    obtain rfl := Reading.ready.inj (hblock.symm.trans hb)
    decide
  have hread : Head.read 42 buffer = .ready head := by decide
  obtain ⟨happend, hminimal⟩ := Head.read_append_minimal 42 hplain [84]
  exact ⟨hplain, hread, (happend (by simp [hread])).trans hread, hminimal head hread (by decide)⟩

end Http
end WebServer
