import Mathlib.Data.List.Infix
import WebServer.Bytes

/-! # Patterns in a text

Where a pattern stands first in a text that is put together from others. -/

namespace WebServer.Bytes

variable {pattern text : Bytes}

theorem findLoop_le {at_ k : Nat} (h : findLoop pattern text at_ = some k) :
    at_ ≤ k ∧ k + pattern.length ≤ at_ + text.length := by
  induction text generalizing at_ with
  | nil => simp [findLoop] at h
  | cons b rest ih =>
      rw [findLoop] at h
      split at h
      · rename_i hp
        rw [List.isPrefixOf_iff_prefix] at hp
        have hle := hp.length_le
        obtain rfl := Option.some.inj h
        exact ⟨Nat.le_refl _, Nat.add_le_add_left hle _⟩
      · obtain ⟨hk, hle⟩ := ih h
        rw [List.length_cons]
        omega

/-- Where a pattern stands is decided once enough bytes are there. -/
theorem isPrefixOf_append_iff (h : pattern.length ≤ text.length) (more : Bytes) :
    pattern.isPrefixOf (text ++ more) = pattern.isPrefixOf text := by
  rw [Bool.eq_iff_iff, List.isPrefixOf_iff_prefix, List.isPrefixOf_iff_prefix]
  constructor
  · exact fun hp => List.prefix_of_prefix_length_le hp (List.prefix_append text more) h
  · exact fun hp => hp.trans (List.prefix_append text more)

/-- The first place of a pattern stays the first one. -/
theorem findLoop_append {at_ k : Nat} (h : findLoop pattern text at_ = some k) (more : Bytes) :
    findLoop pattern (text ++ more) at_ = some k := by
  induction text generalizing at_ with
  | nil => simp [findLoop] at h
  | cons b rest ih =>
      have hle : pattern.length ≤ (b :: rest).length := by
        have := findLoop_le h
        omega
      have hp := isPrefixOf_append_iff hle more
      rw [List.cons_append] at hp
      rw [findLoop] at h
      rw [List.cons_append, findLoop, hp]
      split at h
      · rw [if_pos ‹_›]
        exact h
      · rw [if_neg ‹_›]
        exact ih h

theorem find?_le {k : Nat} (h : find? pattern text = some k) : k + pattern.length ≤ text.length := by
  rw [find?] at h
  split at h
  · simp at h
  · have := (findLoop_le h).2
    omega

/-- A pattern stands where it is found. -/
theorem findLoop_prefix {at_ k : Nat} (h : findLoop pattern text at_ = some k) : pattern <+: text.drop (k - at_) := by
  induction text generalizing at_ with
  | nil => simp [findLoop] at h
  | cons b rest ih =>
      rw [findLoop] at h
      split at h
      · rename_i hp
        obtain rfl := Option.some.inj h
        rwa [Nat.sub_self, List.drop_zero, ← List.isPrefixOf_iff_prefix]
      · have hle := (findLoop_le h).1
        obtain ⟨n, rfl⟩ := Nat.exists_eq_add_of_le hle
        have hn : at_ + 1 + n - at_ = n + 1 := by omega
        have htail := ih h
        rw [Nat.add_sub_cancel_left] at htail
        rwa [hn, List.drop_succ_cons]

theorem find?_prefix {k : Nat} (h : find? pattern text = some k) : pattern <+: text.drop k := by
  rw [find?] at h
  split at h
  · simp at h
  · exact findLoop_prefix h

theorem find?_append {k : Nat} (h : find? pattern text = some k) (more : Bytes) :
    find? pattern (text ++ more) = some k := by
  rw [find?] at h ⊢
  split at h
  · simp at h
  · rw [if_neg ‹_›]
    exact findLoop_append h more

/-- The first place of a pattern is its first place in any beginning of the text that holds it. -/
theorem findLoop_take (hpattern : 0 < pattern.length) {at_ k n : Nat} (h : findLoop pattern text at_ = some k)
    (hn : k + pattern.length ≤ at_ + n) : findLoop pattern (text.take n) at_ = some k := by
  induction text generalizing at_ n with
  | nil => simp [findLoop] at h
  | cons b rest ih =>
      obtain ⟨hk, hlength⟩ := findLoop_le h
      obtain ⟨n, rfl⟩ := Nat.exists_eq_add_one_of_ne_zero (show n ≠ 0 by omega)
      have hfits : pattern.length ≤ ((b :: rest).take (n + 1)).length := by
        rw [List.length_take]
        omega
      have hp := isPrefixOf_append_iff hfits ((b :: rest).drop (n + 1))
      rw [List.take_append_drop, List.take_succ_cons] at hp
      rw [findLoop] at h
      rw [List.take_succ_cons, findLoop, ← hp]
      split at h
      · rw [if_pos ‹_›]
        exact h
      · rw [if_neg ‹_›]
        exact ih h (by omega)

theorem find?_take {k n : Nat} (h : find? pattern text = some k) (hn : k + pattern.length ≤ n) :
    find? pattern (text.take n) = some k := by
  rw [find?] at h ⊢
  split at h
  · simp at h
  · rename_i hne
    rw [if_neg hne]
    rw [List.isEmpty_iff, ← List.length_eq_zero_iff] at hne
    exact findLoop_take (by omega) h (by omega)

theorem findLoop_cons_of_ne {pattern rest : Bytes} {b : UInt8} (h : ∀ more, pattern ++ more ≠ b :: rest) (at_ : Nat) :
    findLoop pattern (b :: rest) at_ = findLoop pattern rest (at_ + 1) := by
  rw [findLoop, if_neg]
  rw [List.isPrefixOf_iff_prefix]
  rintro ⟨more, hmore⟩
  exact h more hmore

theorem findLoop_self (h : pattern ≠ []) (rest : Bytes) (at_ : Nat) :
    findLoop pattern (pattern ++ rest) at_ = some at_ := by
  obtain ⟨b, bs, rfl⟩ := List.exists_cons_of_ne_nil h
  rw [List.cons_append, findLoop, if_pos]
  rw [List.isPrefixOf_iff_prefix]
  exact List.prefix_append (b :: bs) rest

theorem find?_of_ne_nil (h : pattern ≠ []) (text : Bytes) : find? pattern text = findLoop pattern text 0 := by
  rw [find?, if_neg (by simpa using h)]

theorem findLoop_eq_none (h : pattern ≠ []) {at_ : Nat} : findLoop pattern text at_ = none ↔ ¬ pattern <:+: text := by
  induction text generalizing at_ with
  | nil => simp [findLoop, h]
  | cons b rest ih =>
      rw [findLoop, List.infix_cons_iff]
      by_cases hp : pattern <+: b :: rest
      · simp [hp]
      · rw [if_neg (by simpa using hp), ih]
        simp [hp]

/-- A pattern is found where it stands first. -/
theorem findLoop_eq_some (h : pattern ≠ []) {at_ k : Nat} :
    findLoop pattern text at_ = some (at_ + k) ↔ pattern <+: text.drop k ∧ ∀ n < k, ¬ pattern <+: text.drop n := by
  induction text generalizing at_ k with
  | nil => simp [findLoop, h]
  | cons b rest ih =>
      rw [findLoop]
      by_cases hp : pattern <+: b :: rest
      · rw [if_pos (by simpa using hp)]
        cases k with
        | zero => simpa using hp
        | succ k =>
            refine iff_of_false (by simp) fun hfirst => ?_
            exact hfirst.2 0 (Nat.succ_pos k) hp
      · rw [if_neg (by simpa using hp)]
        cases k with
        | zero =>
            refine iff_of_false (fun hfound => ?_) fun hfirst => hp hfirst.1
            have hle := (findLoop_le hfound).1
            omega
        | succ k =>
            have hat : at_ + (k + 1) = at_ + 1 + k := by omega
            rw [hat, ih, List.drop_succ_cons, Nat.forall_lt_succ_left]
            simp [hp]

theorem find?_eq_some (h : pattern ≠ []) {k : Nat} :
    find? pattern text = some k ↔ pattern <+: text.drop k ∧ ∀ n < k, ¬ pattern <+: text.drop n := by
  rw [find?_of_ne_nil h, ← findLoop_eq_some h, Nat.zero_add]

/-- What reaches beyond the front of a text has the byte behind it. -/
theorem prefix_or_exists_tail {c : UInt8} (front : Bytes) {rest : Bytes} (h : pattern <+: front ++ c :: rest) :
    pattern <+: front ∨ ∃ tail, pattern = front ++ c :: tail := by
  rcases List.prefix_or_prefix_of_prefix h (List.prefix_append front (c :: rest)) with hshort | ⟨tail, rfl⟩
  · exact .inl hshort
  · cases tail with
    | nil => exact .inl (by simp)
    | cons d tail =>
        have hd := (List.prefix_append_right_inj front).mp h
        obtain ⟨rfl, -⟩ := List.cons_prefix_cons.mp hd
        exact .inr ⟨tail, rfl⟩

/-- A pattern without a byte stands before the byte or behind it. -/
theorem findLoop_append_cons (h : pattern ≠ []) {c : UInt8} (hc : c ∉ pattern) (front rest : Bytes) (at_ : Nat) :
    findLoop pattern (front ++ c :: rest) at_ =
      (findLoop pattern front at_).or (findLoop pattern rest (at_ + front.length + 1)) := by
  induction front generalizing at_ with
  | nil =>
      refine findLoop_cons_of_ne (fun more heq => ?_) at_
      obtain ⟨b, bs, rfl⟩ := List.exists_cons_of_ne_nil h
      obtain ⟨rfl, -⟩ := List.cons.inj heq
      exact hc List.mem_cons_self
  | cons b front ih =>
      have hp : pattern <+: b :: (front ++ c :: rest) ↔ pattern <+: b :: front := by
        refine ⟨fun hlong => ?_, fun hshort => hshort.trans (List.prefix_append (b :: front) (c :: rest))⟩
        rcases prefix_or_exists_tail (b :: front) hlong with hshort | ⟨tail, rfl⟩
        · exact hshort
        · exact absurd (by simp) hc
      rw [List.cons_append, findLoop, findLoop]
      by_cases hfront : pattern <+: b :: front
      · rw [if_pos (by simpa [hp] using hfront), if_pos (by simpa using hfront)]
        rfl
      · rw [if_neg (by simpa [hp] using hfront), if_neg (by simpa using hfront), ih, List.length_cons]
        congr 2
        omega

/-- A pattern without a carriage return stands before the end of a line or behind it. -/
theorem findLoop_append_crlf {b : UInt8} {bs : Bytes} (hb : b ≠ 10) (hbs : 13 ∉ b :: bs) (front rest : Bytes)
    (at_ : Nat) :
    findLoop (b :: bs) (front ++ (crlf ++ rest)) at_ =
      (findLoop (b :: bs) front at_).or (findLoop (b :: bs) rest (at_ + front.length + 2)) := by
  have hcrlf : crlf ++ rest = 13 :: 10 :: rest := rfl
  rw [hcrlf, findLoop_append_cons (List.cons_ne_nil b bs) hbs, findLoop_cons_of_ne]
  exact fun more heq => hb (List.cons.inj heq).1

/-- A pattern whose first byte stands nowhere else in it is found where it was put, unless it stood before. -/
theorem findLoop_append_self {c : UInt8} {cs front : Bytes} (hc : c ∉ cs) (h : ¬ c :: cs <:+: front) (rest : Bytes)
    (at_ : Nat) : findLoop (c :: cs) (front ++ (c :: cs ++ rest)) at_ = some (at_ + front.length) := by
  induction front generalizing at_ with
  | nil => simp [findLoop]
  | cons b front ih =>
      rw [List.infix_cons_iff, not_or] at h
      have hne : ¬ c :: cs <+: b :: (front ++ (c :: cs ++ rest)) := by
        intro hlong
        rcases prefix_or_exists_tail (b :: front) hlong with hshort | ⟨tail, htail⟩
        · exact h.1 hshort
        · -- The pattern would begin again within itself.
          obtain ⟨-, rfl⟩ := List.cons.inj htail
          exact hc (by simp)
      rw [List.cons_append, findLoop, if_neg (by simpa using hne), ih h.2, List.length_cons]
      congr 1
      omega

theorem find?_append_self {c : UInt8} {cs front : Bytes} (hc : c ∉ cs) (h : ¬ c :: cs <:+: front) (rest : Bytes) :
    find? (c :: cs) (front ++ (c :: cs ++ rest)) = some front.length := by
  rw [find?_of_ne_nil (List.cons_ne_nil c cs), findLoop_append_self hc h, Nat.zero_add]

end WebServer.Bytes
