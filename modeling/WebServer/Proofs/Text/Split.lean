import Mathlib.Data.List.Infix
import Mathlib.Data.List.TakeWhile
import Mathlib.Tactic.MkIffOfInductiveProp
import WebServer.Text.Size
import WebServer.Text.Split

/-! # Text put together and cut again

Pieces in which no separator stands are found again where they were put together. -/

namespace WebServer.Text

variable {α : Type}

/-! ## Pieces -/

section Pieces

variable {separates : α → Bool} {xs : List α}

theorem splitWhere_cons (separates : α → Bool) (x : α) (xs : List α) :
    splitWhere separates (x :: xs) =
      if separates x then [] :: splitWhere separates xs
      else match splitWhere separates xs with
        | [] => [[x]]
        | piece :: more => (x :: piece) :: more :=
  rfl

theorem splitWhere_ne_nil (separates : α → Bool) (xs : List α) : splitWhere separates xs ≠ [] := by
  cases xs with
  | nil => exact List.cons_ne_nil _ _
  | cons x xs =>
      rw [splitWhere_cons]
      split
      · exact List.cons_ne_nil _ _
      · split <;> exact List.cons_ne_nil _ _

theorem splitWhere_of_forall (h : ∀ x ∈ xs, separates x = false) : splitWhere separates xs = [xs] := by
  induction xs with
  | nil => rfl
  | cons x xs ih =>
      rw [List.forall_mem_cons] at h
      rw [splitWhere_cons, if_neg (by simp [h.1]), ih h.2]

theorem splitWhere_append (h : ∀ x ∈ xs, separates x = false) {y : α} (hy : separates y = true) (ys : List α) :
    splitWhere separates (xs ++ y :: ys) = xs :: splitWhere separates ys := by
  induction xs with
  | nil => rw [List.nil_append, splitWhere_cons, if_pos hy]
  | cons x xs ih =>
      rw [List.forall_mem_cons] at h
      rw [List.cons_append, splitWhere_cons, if_neg (by simp [h.1]), ih h.2]

/-- A text is cut at its first separator. -/
theorem cut?_append (h : ∀ x ∈ xs, separates x = false) {y : α} (hy : separates y = true) (ys : List α) :
    cut? separates (xs ++ y :: ys) = some (xs, ys) := by
  have hxs : ∀ x ∈ xs, (!separates x) = true := fun x hx => by simp [h x hx]
  have hspan : (xs ++ y :: ys).span (fun x => !separates x) = (xs, y :: ys) := by
    rw [List.span_eq_takeWhile_dropWhile, List.takeWhile_append_of_pos hxs, List.dropWhile_append_of_pos hxs,
      List.takeWhile_cons_of_neg (by simp [hy]), List.dropWhile_cons_of_neg (by simp [hy]), List.append_nil]
  rw [cut?, hspan]

/-- Without a separator a text is not cut. -/
theorem cut?_of_forall (h : ∀ x ∈ xs, separates x = false) : cut? separates xs = none := by
  have hxs : ∀ x ∈ xs, (!separates x) = true := fun x hx => by simp [h x hx]
  rw [cut?, List.span_eq_takeWhile_dropWhile, List.dropWhile_eq_nil_iff.mpr hxs]

/-- A separator stood between the parts of a text that is cut. -/
theorem eq_of_cut? {before after : List α} (h : cut? separates xs = some (before, after)) :
    ∃ y, separates y = true ∧ xs = before ++ y :: after := by
  rw [cut?, List.span_eq_takeWhile_dropWhile] at h
  split at h
  · cases h
  · rename_i front y rest heq
    obtain ⟨hfront, hrest⟩ := Prod.mk.inj heq
    obtain ⟨rfl, rfl⟩ := Prod.mk.inj (Option.some.inj h)
    have hy : (!separates y) = false := by
      have hne : xs.dropWhile (fun x => !separates x) ≠ [] := by simp [hrest]
      have hhead := List.head_dropWhile_not (fun x => !separates x) hne
      simpa [hrest] using hhead
    refine ⟨y, by simpa using hy, ?_⟩
    rw [← hfront, ← hrest, List.takeWhile_append_dropWhile]

end Pieces

/-! ## Words -/

/-- A word: not empty, and without blanks. -/
@[mk_iff]
structure IsWord (cs : List Char) : Prop where
  ne_nil : cs ≠ []
  visible : ∀ c ∈ cs, isBlank c = false

instance (cs : List Char) : Decidable (IsWord cs) :=
  decidable_of_iff (cs ≠ [] ∧ cs.all (fun c => !isBlank c) = true) (by simp [isWord_iff])

theorem words_three {a b c : List Char} (ha : IsWord a) (hb : IsWord b) (hc : IsWord c) :
    words (a ++ ' ' :: (b ++ ' ' :: c)) = [a, b, c] := by
  have hspace : isBlank ' ' = true := rfl
  rw [words, splitWhere_append ha.visible hspace, splitWhere_append hb.visible hspace, splitWhere_of_forall hc.visible]
  simp [ha.ne_nil, hb.ne_nil, hc.ne_nil]

theorem IsWord.reverse {cs : List Char} (h : IsWord cs) : IsWord cs.reverse :=
  ⟨by simpa using h.ne_nil, fun c hc => h.visible c (List.mem_reverse.mp hc)⟩

theorem IsWord.dropWhile_append {cs : List Char} (h : IsWord cs) (rest : List Char) :
    (cs ++ rest).dropWhile isBlank = cs ++ rest := by
  obtain ⟨c, cs, rfl⟩ := List.exists_cons_of_ne_nil h.ne_nil
  exact List.dropWhile_cons_of_neg (by simp [h.visible c List.mem_cons_self])

theorem IsWord.trim_padded {cs before after : List Char} (h : IsWord cs) (hbefore : ∀ c ∈ before, isBlank c = true)
    (hafter : ∀ c ∈ after, isBlank c = true) : trim (before ++ (cs ++ after)) = cs := by
  have hends : ∀ c ∈ after.reverse, isBlank c = true := fun c hc => hafter c (List.mem_reverse.mp hc)
  have hlast := h.reverse.dropWhile_append []
  rw [List.append_nil] at hlast
  rw [trim, trimStart, List.dropWhile_append_of_pos hbefore, h.dropWhile_append, trimEnd, List.reverse_append,
    List.dropWhile_append_of_pos hends, hlast, List.reverse_reverse]

theorem IsWord.trim_eq {cs : List Char} (h : IsWord cs) : trim cs = cs := by
  have hpadded := h.trim_padded (List.forall_mem_nil _) (List.forall_mem_nil _)
  rwa [List.nil_append, List.append_nil] at hpadded

theorem trim_space (cs : List Char) : trim (' ' :: cs) = trim cs := by
  rw [trim, trim, trimStart, List.dropWhile_cons_of_pos (by rfl)]
  rfl

/-- What is trimmed off a text are blanks. -/
theorem exists_of_trim (cs : List Char) : ∃ before after, cs = before ++ (trim cs ++ after) ∧
    (∀ c ∈ before, isBlank c = true) ∧ ∀ c ∈ after, isBlank c = true := by
  refine ⟨cs.takeWhile isBlank, ((trimStart cs).reverse.takeWhile isBlank).reverse, ?_,
    List.all_eq_true.mp List.all_takeWhile, fun c hc => ?_⟩
  · rw [trim, trimEnd, ← List.reverse_append, List.takeWhile_append_dropWhile, List.reverse_reverse, trimStart,
      List.takeWhile_append_dropWhile]
  · exact List.all_eq_true.mp List.all_takeWhile c (List.mem_reverse.mp hc)

theorem mem_dropWhile_isBlank {c : Char} {cs : List Char} (hc : isBlank c = false) (h : c ∈ cs) : c ∈ cs.dropWhile isBlank := by
  rw [← List.takeWhile_append_dropWhile (p := isBlank) (l := cs), List.mem_append] at h
  refine h.resolve_left fun hblank => ?_
  rw [List.all_eq_true.mp List.all_takeWhile c hblank] at hc
  cases hc

theorem mem_trim {c : Char} {cs : List Char} (hc : isBlank c = false) (h : c ∈ cs) : c ∈ trim cs := by
  refine List.mem_reverse.mpr (mem_dropWhile_isBlank hc (List.mem_reverse.mpr ?_))
  exact mem_dropWhile_isBlank hc h

theorem sameName_mem {a b : String} {c : Char} (h : sameName a b = true) (hc : c ∈ a.toList) :
    c.toLower ∈ b.toList.map Char.toLower := by
  rw [sameName, beq_iff_eq] at h
  exact h ▸ List.mem_map_of_mem hc

/-- A blank is no letter of ASCII. -/
theorem toLower_of_isBlank {c : Char} (h : isBlank c = true) : c.toLower = c := by
  refine dif_neg ?_
  rintro ⟨hlow, hhigh⟩
  rw [ge_iff_le, UInt32.le_iff_toNat_le] at hlow
  rw [UInt32.le_iff_toNat_le] at hhigh
  have hA : ('A'.val).toNat = 65 := rfl
  have hZ : ('Z'.val).toNat = 90 := rfl
  have hval : c.val.toNat = c.toNat := rfl
  simp only [isBlank, Bool.or_eq_true, Bool.and_eq_true, decide_eq_true_eq, beq_iff_eq] at h
  omega

/-- What is as good as a name without blanks has none either. -/
theorem IsWord.of_sameName {a b : String} (h : sameName a b = true) (hb : IsWord (b.toList.map Char.toLower)) :
    IsWord a.toList := by
  refine ⟨?_, fun c hc => ?_⟩
  · rintro hnil
    rw [sameName, beq_iff_eq, hnil] at h
    exact hb.ne_nil h.symm
  · cases hblank : isBlank c with
    | false => rfl
    | true =>
        have hmem := sameName_mem h hc
        rw [toLower_of_isBlank hblank] at hmem
        exact absurd (hb.visible c hmem) (by simp [hblank])

/-! ## Lines -/

/-- A text in which no line ends. -/
def OneLine (cs : List Char) : Prop :=
  ¬ ['\r', '\n'] <:+: cs

instance (cs : List Char) : Decidable (OneLine cs) :=
  inferInstanceAs (Decidable (¬ ['\r', '\n'] <:+: cs))

theorem OneLine.tail {c : Char} {cs : List Char} (h : OneLine (c :: cs)) : OneLine cs :=
  fun hinfix => h (List.infix_cons hinfix)

theorem OneLine.head?_ne {cs : List Char} (h : OneLine ('\r' :: cs)) : cs.head? ≠ some '\n' := by
  cases cs with
  | nil => simp
  | cons d cs =>
      rintro hd
      obtain rfl := Option.some.inj hd
      exact h ⟨[], cs, rfl⟩

theorem OneLine.cons {c : Char} {cs : List Char} (hc : c = '\r' → cs.head? ≠ some '\n') (h : OneLine cs) :
    OneLine (c :: cs) := by
  rintro hinfix
  rcases List.infix_cons_iff.mp hinfix with ⟨more, hmore⟩ | hinfix
  · obtain ⟨rfl, rfl⟩ := List.cons.inj hmore
    exact hc rfl rfl
  · exact h hinfix

theorem OneLine.of_visible {cs : List Char} (h : ∀ c ∈ cs, isBlank c = false) : OneLine cs := by
  rintro hinfix
  have hmem : '\r' ∈ cs := hinfix.subset (by simp)
  exact absurd (h '\r' hmem) (by decide)

/-- What stands between two texts keeps the end of one and the beginning of the other from ending a line. -/
theorem OneLine.append {xs ys : List Char} (hx : OneLine xs) (hy : OneLine ys) {c : Char} (hr : c ≠ '\r')
    (hn : c ≠ '\n') : OneLine (xs ++ c :: ys) := by
  induction xs with
  | nil => exact hy.cons fun h => absurd h hr
  | cons x xs ih =>
      refine (ih hx.tail).cons ?_
      rintro rfl
      cases xs with
      | nil => simpa using hn
      | cons d xs => exact hx.head?_ne

/-- Without a carriage return in front of it, a line stays one. -/
theorem OneLine.prepend {xs ys : List Char} (hx : ∀ c ∈ xs, c ≠ '\r') (hy : OneLine ys) : OneLine (xs ++ ys) := by
  induction xs with
  | nil => exact hy
  | cons x xs ih =>
      rw [List.forall_mem_cons] at hx
      exact (ih hx.2).cons fun h => absurd h hx.1

theorem lines_cons (c : Char) (cs : List Char) :
    lines (c :: cs) =
      match c, lines cs with
      | '\r', ('\n' :: line) :: more => [] :: line :: more
      | _, [] => [[c]]
      | _, line :: more => (c :: line) :: more :=
  rfl

theorem lines_cons_of_ne {c : Char} {cs line : List Char} {more : List (List Char)} (hl : lines cs = line :: more)
    (h : c = '\r' → line.head? ≠ some '\n') : lines (c :: cs) = (c :: line) :: more := by
  rw [lines_cons, hl]
  split
  · rename_i heq
    obtain ⟨rfl, -⟩ := List.cons.inj heq
    exact absurd rfl (h rfl)
  · rename_i heq
    cases heq
  · rename_i heq
    obtain ⟨rfl, rfl⟩ := List.cons.inj heq
    rfl

theorem lines_of_oneLine {cs : List Char} (h : OneLine cs) : lines cs = [cs] := by
  induction cs with
  | nil => rfl
  | cons c cs ih =>
      refine lines_cons_of_ne (ih h.tail) ?_
      rintro rfl
      exact h.head?_ne

theorem lines_ne_nil (cs : List Char) : lines cs ≠ [] := by
  cases cs with
  | nil => simp [lines]
  | cons c cs =>
      rw [lines_cons]
      split <;> simp

/-- A character in front of a text begins its first line or completes the end of a line. -/
theorem lines_cons_cases (c : Char) (cs : List Char) :
    (∃ line more, c = '\r' ∧ lines cs = ('\n' :: line) :: more ∧ lines (c :: cs) = [] :: line :: more) ∨
      ∃ line more, (c = '\r' → line.head? ≠ some '\n') ∧ lines cs = line :: more ∧
        lines (c :: cs) = (c :: line) :: more := by
  obtain ⟨line, more, hl⟩ := List.exists_cons_of_ne_nil (lines_ne_nil cs)
  by_cases hends : c = '\r' ∧ line.head? = some '\n'
  · obtain ⟨rfl, hhead⟩ := hends
    obtain ⟨rest, rfl⟩ := List.head?_eq_some_iff.mp hhead
    exact .inl ⟨rest, more, rfl, hl, by rw [lines_cons, hl]; rfl⟩
  · have hne : c = '\r' → line.head? ≠ some '\n' := fun hc hhead => hends ⟨hc, hhead⟩
    exact .inr ⟨line, more, hne, hl, lines_cons_of_ne hl hne⟩

theorem oneLine_of_mem_lines {cs line : List Char} (h : line ∈ lines cs) : OneLine line := by
  induction cs generalizing line with
  | nil =>
      obtain rfl := List.mem_singleton.mp h
      decide
  | cons c cs ih =>
      rcases lines_cons_cases c cs with ⟨rest, more, rfl, hl, hcons⟩ | ⟨rest, more, hne, hl, hcons⟩
      · rw [hcons, List.mem_cons, List.mem_cons] at h
        rw [hl] at ih
        rcases h with rfl | rfl | h
        · decide
        · exact (ih List.mem_cons_self).tail
        · exact ih (List.mem_cons_of_mem _ h)
      · rw [hcons, List.mem_cons] at h
        rw [hl] at ih
        rcases h with rfl | h
        · exact (ih List.mem_cons_self).cons hne
        · exact ih (List.mem_cons_of_mem _ h)

theorem lines_append {cs : List Char} (h : OneLine cs) (more : List Char) :
    lines (cs ++ '\r' :: '\n' :: more) = cs :: lines more := by
  induction cs with
  | nil =>
      obtain ⟨line, others, hl⟩ := List.exists_cons_of_ne_nil (lines_ne_nil more)
      rw [List.nil_append, lines_cons, lines_cons_of_ne hl fun h => absurd h (by decide), hl]
      rfl
  | cons c cs ih =>
      refine lines_cons_of_ne (ih h.tail) ?_
      rintro rfl
      exact h.head?_ne

theorem joinLines_cons (l l' : List Char) (ls : List (List Char)) :
    joinLines (l :: l' :: ls) = l ++ '\r' :: '\n' :: joinLines (l' :: ls) := by
  simp [joinLines, List.intercalate]

theorem joinLines_begins (l : List Char) (ls : List (List Char)) : l <+: joinLines (l :: ls) := by
  cases ls with
  | nil => rw [joinLines, List.intercalate_singleton]
  | cons l' ls =>
      rw [joinLines_cons]
      exact List.prefix_append _ _

theorem joinLines_cons_head (c : Char) (l : List Char) (ls : List (List Char)) :
    joinLines ((c :: l) :: ls) = c :: joinLines (l :: ls) := by
  cases ls with
  | nil => rw [joinLines, joinLines, List.intercalate_singleton, List.intercalate_singleton]
  | cons l' ls => rw [joinLines_cons, joinLines_cons, List.cons_append]

/-- The lines of a text make it up. -/
theorem joinLines_lines (cs : List Char) : joinLines (lines cs) = cs := by
  induction cs with
  | nil => rfl
  | cons c cs ih =>
      rcases lines_cons_cases c cs with ⟨line, more, rfl, hl, hcons⟩ | ⟨line, more, -, hl, hcons⟩
      · rw [hl, joinLines_cons_head] at ih
        rw [hcons, joinLines_cons, List.nil_append, ih]
      · rw [hl] at ih
        rw [hcons, joinLines_cons_head, ih]

/-- An empty line behind another one shows as two ends of lines in a row, unless it is the last one. -/
theorem ends_of_empty_line {l : List Char} {ls : List (List Char)} (h : [] ∈ ls) :
    ['\r', '\n', '\r', '\n'] <:+: joinLines (l :: ls) ∨ ['\r', '\n'] <:+ joinLines (l :: ls) := by
  induction ls generalizing l with
  | nil => cases h
  | cons l' ls ih =>
      have hsuffix : joinLines (l' :: ls) <:+ joinLines (l :: l' :: ls) := by
        rw [joinLines_cons]
        exact ⟨l ++ ['\r', '\n'], by simp⟩
      rcases List.mem_cons.mp h with rfl | h
      · cases ls with
        | nil => exact .inr ⟨l, by simp [joinLines, List.intercalate]⟩
        | cons l'' ls => exact .inl ⟨l, joinLines (l'' :: ls), by simp [joinLines_cons]⟩
      · exact (ih h).imp (fun hi => hi.trans hsuffix.isInfix) fun hs => hs.trans hsuffix

/-- Lines that are put together are found again. -/
theorem lines_joinLines {l : List Char} {ls : List (List Char)} (h : ∀ line ∈ l :: ls, OneLine line) :
    lines (joinLines (l :: ls)) = l :: ls := by
  induction ls generalizing l with
  | nil =>
      rw [joinLines, List.intercalate_singleton]
      exact lines_of_oneLine (h l List.mem_cons_self)
  | cons l' ls ih =>
      rw [List.forall_mem_cons] at h
      rw [joinLines_cons, lines_append h.1, ih h.2]

/-! ## Sizes -/

theorem isBlank_of_isDigit {c : Char} (h : c.isDigit = true) : isBlank c = false := by
  have hrange : 48 ≤ c.toNat ∧ c.toNat ≤ 57 := by
    simpa [Char.isDigit, UInt32.le_iff_toNat_le] using h
  simp [isBlank]
  omega

theorem isDigit_of_mem_toString {n : Nat} {c : Char} (hc : c ∈ (toString n).toList) : c.isDigit = true := by
  rw [Nat.toString_eq_ofList_toDigits, String.toList_ofList] at hc
  exact Nat.isDigit_of_mem_toDigits (by decide) (by decide) hc

/-- The digits of a number are a word. -/
theorem isWord_toString (n : Nat) : IsWord (toString n).toList := by
  refine ⟨?_, fun c hc => isBlank_of_isDigit (isDigit_of_mem_toString hc)⟩
  rw [Nat.toString_eq_ofList_toDigits, String.toList_ofList]
  exact Nat.toDigits_ne_nil

/-- A size is read back from its digits. -/
theorem readSize?_toString {n : Nat} (h : n < sizeLimit) : readSize? (toString n).toList = some n := by
  have hlist : (toString n).toList = Nat.toDigits 10 n := by
    rw [Nat.toString_eq_ofList_toDigits, String.toList_ofList]
  have hdigit : ∀ c ∈ Nat.toDigits 10 n, c.isDigit = true := hlist ▸ fun c hc => isDigit_of_mem_toString hc
  have hsign : ((Nat.toDigits 10 n).head? == some '+') = false := by
    refine beq_eq_false_iff_ne.mpr fun hhead => ?_
    exact absurd (hdigit '+' (List.mem_of_head? hhead)) (by decide)
  have hvalue : digitsValue (Nat.toDigits 10 n) = n := by
    have hof := Nat.ofDigitChars_toDigits (b := 10) (n := n) (by decide) (by decide)
    rw [Nat.ofDigitChars_eq_foldl] at hof
    simpa only [digitsValue, Nat.mul_comm] using hof
  have hall : (Nat.toDigits 10 n).all Char.isDigit = true := List.all_eq_true.mpr hdigit
  rw [readSize?, hlist, hsign]
  simp [Nat.toDigits_ne_nil, hall, hvalue, h]

/-! ## Streams -/

section Streams

variable {β : Type} {text : β → List α}

/-- The beginning of a stream is some of its parts and a beginning of the next one. -/
theorem split_flatMap {bs : List β} {buffer more : List α} (h : buffer ++ more = bs.flatMap text) :
    ∃ done rest part, bs = done ++ rest ∧ buffer = done.flatMap text ++ part ∧ part ++ more = rest.flatMap text ∧
      ∀ b ∈ rest.head?, part.length < (text b).length := by
  induction bs generalizing buffer with
  | nil => exact ⟨[], [], buffer, rfl, rfl, h, by simp⟩
  | cons b bs ih =>
      by_cases hlt : buffer.length < (text b).length
      · exact ⟨[], b :: bs, buffer, rfl, rfl, h, by simpa using hlt⟩
      · -- The first part is complete.
        rw [List.flatMap_cons] at h
        have hbegins : text b <+: buffer :=
          List.prefix_of_prefix_length_le (List.prefix_append _ _) (h ▸ List.prefix_append _ _) (Nat.le_of_not_lt hlt)
        obtain ⟨tail, rfl⟩ := hbegins
        rw [List.append_assoc] at h
        obtain ⟨done, rest, part, rfl, rfl, hpart, hnext⟩ := ih (List.append_cancel_left h)
        exact ⟨b :: done, rest, part, rfl, by rw [List.flatMap_cons, List.append_assoc], hpart, hnext⟩

theorem length_le_flatMap (hpos : ∀ b, 0 < (text b).length) (bs : List β) : bs.length ≤ (bs.flatMap text).length := by
  induction bs with
  | nil => exact Nat.le_refl _
  | cons b bs ih =>
      have hfirst := hpos b
      rw [List.flatMap_cons, List.length_append, List.length_cons]
      omega

end Streams

end WebServer.Text
