import WebServer.Proofs.Text.Search
import WebServer.Proofs.Text.Split
import WebServer.Proofs.Text.Utf8

/-! # Lines as bytes

No empty line stands in lines that are put together, so that one behind them is found where it is. Bytes that are read as
text keep their lines, because a malformed run never reaches over the end of a line. -/

namespace WebServer.Bytes

open Text (decodeLossy encode OneLine joinLines)

/-- Bytes other than a carriage return begin no empty line. -/
theorem findLoop_skip {front : Bytes} (h : ∀ b ∈ front, b ≠ 13) (rest : Bytes) (at_ : Nat) :
    findLoop blankLine (front ++ rest) at_ = findLoop blankLine rest (at_ + front.length) := by
  induction front generalizing at_ with
  | nil => rfl
  | cons b front ih =>
      rw [List.forall_mem_cons] at h
      have hne : ∀ more, blankLine ++ more ≠ b :: (front ++ rest) :=
        fun more heq => h.1 (List.cons.inj heq).1.symm
      rw [List.cons_append, findLoop_cons_of_ne hne, ih h.2, List.length_cons, Nat.add_assoc, Nat.add_comm 1]

theorem encode_ne_lineFeed {cs : List Char} (h : cs.head? ≠ some '\n') (more rest : Bytes) :
    encode cs ++ 13 :: more ≠ 10 :: rest := by
  cases cs with
  | nil => simp [encode]
  | cons c cs =>
      refine Text.encode_ne_cons (by decide) (fun hc => h ?_) cs _ rest
      exact congrArg some (Char.toNat_inj.mp hc)

/-- A line that is not empty does not begin like the end of a line. -/
theorem encode_ne_crlf {cs : List Char} (h : OneLine cs) (hne : cs ≠ []) (more rest : Bytes) :
    encode cs ++ 13 :: more ≠ 13 :: 10 :: rest := by
  obtain ⟨c, cs, rfl⟩ := List.exists_cons_of_ne_nil hne
  by_cases hc : c = '\r'
  · subst hc
    exact fun heq => encode_ne_lineFeed h.head?_ne more rest (List.cons.inj heq).2
  · exact Text.encode_ne_cons (by decide) (fun hn => hc (Char.toNat_inj.mp hn)) cs _ _

/-- No empty line begins within a line. -/
theorem findLoop_line {cs : List Char} (h : OneLine cs) (more : Bytes) (at_ : Nat) :
    findLoop blankLine (encode cs ++ 13 :: more) at_ = findLoop blankLine (13 :: more) (at_ + (encode cs).length) := by
  induction cs generalizing at_ with
  | nil => rfl
  | cons c cs ih =>
      rw [Text.encode_cons, List.append_assoc, List.length_append, ← Nat.add_assoc]
      by_cases hc : c = '\r'
      · subst hc
        have hne : ∀ rest, blankLine ++ rest ≠ 13 :: (encode cs ++ 13 :: more) := fun rest heq =>
          encode_ne_lineFeed h.head?_ne more _ (List.cons.inj heq).2.symm
        exact (findLoop_cons_of_ne hne at_).trans (ih h.tail (at_ + 1))
      · rw [findLoop_skip, ih h.tail]
        rintro b hb rfl
        exact hc (Char.toNat_inj.mp (Text.eq_of_mem_utf8EncodeChar hb (by decide)).2)

/-- Lines that are not empty end where the first empty line begins. -/
theorem findLoop_joinLines {l : List Char} {ls : List (List Char)} (hl : ∀ line ∈ l :: ls, OneLine line)
    (hne : ∀ line ∈ ls, line ≠ []) (rest : Bytes) (at_ : Nat) :
    findLoop blankLine (encode (joinLines (l :: ls)) ++ (blankLine ++ rest)) at_ =
      some (at_ + (encode (joinLines (l :: ls))).length) := by
  induction ls generalizing l at_ with
  | nil =>
      rw [joinLines, List.intercalate_singleton]
      exact (findLoop_line (hl l List.mem_cons_self) _ at_).trans rfl
  | cons l' ls ih =>
      rw [List.forall_mem_cons] at hl hne
      have hbreak : encode ('\r' :: '\n' :: joinLines (l' :: ls)) = 13 :: 10 :: encode (joinLines (l' :: ls)) := rfl
      rw [Text.joinLines_cons, Text.encode_append, hbreak, List.append_assoc, List.cons_append, List.cons_append,
        findLoop_line hl.1, findLoop_cons_of_ne, findLoop_cons_of_ne (by simp [blankLine]), ih hl.2 hne.2]
      · simp only [List.length_append, List.length_cons]
        congr 1
        omega
      · -- The line behind this one is not empty.
        intro more heq
        obtain ⟨tail, htail⟩ : ∃ tail, encode (joinLines (l' :: ls)) ++ (blankLine ++ rest) = encode l' ++ 13 :: tail := by
          cases ls with
          | nil => exact ⟨10 :: 13 :: 10 :: rest, by rw [joinLines, List.intercalate_singleton]; rfl⟩
          | cons l'' ls =>
              refine ⟨10 :: (encode (joinLines (l'' :: ls)) ++ (blankLine ++ rest)), ?_⟩
              rw [Text.joinLines_cons, Text.encode_append, List.append_assoc]
              rfl
        rw [htail] at heq
        exact encode_ne_crlf (hl.2 l' List.mem_cons_self) hne.1 tail _ (List.cons.inj (List.cons.inj heq).2).2.symm

/-! ## Lines that are cut -/

/-- The pieces between the ends of lines, empty ones included. -/
def lines : Bytes → List Bytes
  | [] => [[]]
  | 13 :: 10 :: rest => [] :: lines rest
  | b :: rest => (lines rest).modifyHead (b :: ·)

theorem lines_crlf (rest : Bytes) : lines (crlf ++ rest) = [] :: lines rest := rfl

theorem lines_cons {b : UInt8} {rest : Bytes} (h : ¬crlf <+: b :: rest) :
    lines (b :: rest) = (lines rest).modifyHead (b :: ·) := by
  rw [lines]
  rintro more rfl rfl
  exact h ⟨more, rfl⟩

theorem lines_of_not_infix {line : Bytes} (h : ¬crlf <:+: line) : lines line = [line] := by
  induction line with
  | nil => rfl
  | cons b line ih =>
      rw [List.infix_cons_iff, not_or] at h
      rw [lines_cons h.1, ih h.2, List.modifyHead_cons]

theorem lines_append {line : Bytes} (h : ¬crlf <:+: line) (rest : Bytes) :
    lines (line ++ (crlf ++ rest)) = line :: lines rest := by
  induction line with
  | nil => exact lines_crlf rest
  | cons b line ih =>
      rw [List.infix_cons_iff, not_or] at h
      have hne : ¬crlf <+: b :: (line ++ (crlf ++ rest)) := by
        intro hlong
        rcases prefix_or_exists_tail (b :: line) hlong with hshort | ⟨tail, htail⟩
        · exact h.1 hshort
        · cases line with
          | nil => simp [crlf] at htail
          | cons c line => simp [crlf] at htail
      rw [List.cons_append, lines_cons hne, ih h.2, List.modifyHead_cons]

/-- Bytes are one line, or a line in front of others. -/
theorem line_or_append (bs : Bytes) :
    ¬crlf <:+: bs ∨ ∃ line rest, ¬crlf <:+: line ∧ bs = line ++ (crlf ++ rest) := by
  induction bs with
  | nil => exact .inl (by decide)
  | cons b bs ih =>
      by_cases hb : crlf <+: b :: bs
      · obtain ⟨rest, hrest⟩ := hb
        exact .inr ⟨[], rest, by decide, hrest.symm⟩
      · rcases ih with hline | ⟨line, rest, hline, rfl⟩
        · exact .inl fun hinfix => (List.infix_cons_iff.mp hinfix).elim hb hline
        · refine .inr ⟨b :: line, rest, fun hinfix => ?_, rfl⟩
          rcases List.infix_cons_iff.mp hinfix with hfront | hinfix
          · exact hb (hfront.trans (List.prefix_append (b :: line) (crlf ++ rest)))
          · exact hline hinfix

/-- A property of a single line that a line more keeps is a property of all bytes. -/
@[elab_as_elim]
theorem lines_induction {P : Bytes → Prop} (single : ∀ line, ¬crlf <:+: line → P line)
    (more : ∀ line rest, ¬crlf <:+: line → P rest → P (line ++ (crlf ++ rest))) (bs : Bytes) : P bs := by
  induction hn : bs.length using Nat.strongRecOn generalizing bs with
  | ind n ih =>
      rcases line_or_append bs with hline | ⟨line, rest, hline, rfl⟩
      · exact single bs hline
      · refine more line rest hline (ih rest.length ?_ rest rfl)
        rw [← hn, List.length_append, List.length_append]
        have hcrlf : crlf.length = 2 := rfl
        omega

theorem oneLine_decodeLossy {line : Bytes} (h : ¬crlf <:+: line) : OneLine (decodeLossy line) :=
  fun hinfix => h (Text.infix_of_decodeLossy (by decide) hinfix)

theorem decodeLossy_crlf (line rest : Bytes) :
    decodeLossy (line ++ (crlf ++ rest)) = decodeLossy line ++ '\r' :: '\n' :: decodeLossy rest := by
  have hbreak : decodeLossy (crlf ++ rest) = ['\r', '\n'] ++ decodeLossy rest :=
    Text.decodeLossy_encode_append ['\r', '\n'] rest
  have hline : decodeLossy (line ++ (crlf ++ rest)) = decodeLossy line ++ decodeLossy (crlf ++ rest) :=
    Text.decodeLossy_append_ascii (by decide) line (10 :: rest)
  rw [hline, hbreak]
  rfl

/-- Bytes that are read as text have the same lines. -/
theorem lines_decodeLossy (bs : Bytes) : Text.lines (decodeLossy bs) = (lines bs).map decodeLossy := by
  induction bs using lines_induction with
  | single line h => rw [Text.lines_of_oneLine (oneLine_decodeLossy h), lines_of_not_infix h, List.map_singleton]
  | more line rest h ih =>
      rw [decodeLossy_crlf, Text.lines_append (oneLine_decodeLossy h), ih, lines_append h, List.map_cons]

theorem not_infix_encode {cs : List Char} (h : OneLine cs) : ¬crlf <:+: encode cs := by
  rintro ⟨front, rest, heq⟩
  refine h ⟨decodeLossy front, decodeLossy rest, ?_⟩
  rw [← Text.decodeLossy_encode cs, ← heq, List.append_assoc, List.append_assoc, decodeLossy_crlf]
  rfl

theorem lines_encode_joinLines {l : List Char} {ls : List (List Char)} (h : ∀ line ∈ l :: ls, OneLine line) :
    lines (encode (joinLines (l :: ls))) = (l :: ls).map encode := by
  induction ls generalizing l with
  | nil =>
      rw [joinLines, List.intercalate_singleton, List.map_singleton]
      exact lines_of_not_infix (not_infix_encode (h l List.mem_cons_self))
  | cons l' ls ih =>
      rw [List.forall_mem_cons] at h
      have hbreak : encode ('\r' :: '\n' :: joinLines (l' :: ls)) = crlf ++ encode (joinLines (l' :: ls)) := rfl
      rw [Text.joinLines_cons, Text.encode_append, hbreak, lines_append (not_infix_encode h.1), ih h.2,
        List.map_cons (l := l' :: ls)]

end WebServer.Bytes
