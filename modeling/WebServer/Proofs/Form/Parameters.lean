import WebServer.Form.Parameter
import WebServer.Proofs.Text.Split

/-! # Parameters written and read

Between quotes a value may hold any character: what would end it is escaped, and is read back as it was. -/

namespace WebServer.Form

open Text (OneLine)

/-! ## Quoted values -/

/-- A character between quotes. -/
def escapeChar (c : Char) : List Char :=
  if c = '"' ∨ c = '\\' then ['\\', c] else [c]

/-- A value between quotes. -/
def quoted (value : String) : List Char :=
  '"' :: (value.toList.flatMap escapeChar ++ ['"'])

theorem quotedLoop_escaped (cs rest found : List Char) :
    quotedLoop (cs.flatMap escapeChar ++ '"' :: rest) found = (found.reverse ++ cs, rest) := by
  induction cs generalizing found with
  | nil => rw [List.flatMap_nil, List.nil_append, quotedLoop, List.append_nil]
  | cons c cs ih =>
      have hnext : quotedLoop (escapeChar c ++ (cs.flatMap escapeChar ++ '"' :: rest)) found =
          quotedLoop (cs.flatMap escapeChar ++ '"' :: rest) (c :: found) := by
        rw [escapeChar]
        split
        · rw [List.cons_append, List.singleton_append, quotedLoop]
        · rename_i hc
          rw [not_or] at hc
          rw [List.singleton_append, quotedLoop]
          · exact fun _ _ h _ => hc.2 h
          · exact fun h _ => hc.2 h
          · exact hc.1
      rw [List.flatMap_cons, List.append_assoc, hnext, ih, List.reverse_cons, List.append_assoc]
      rfl

theorem parameterValue_quoted (value : String) (rest : List Char) :
    parameterValue (quoted value ++ rest) = (value.toList, rest) := by
  have htrim : Text.trimStart (quoted value ++ rest) = '"' :: (value.toList.flatMap escapeChar ++ '"' :: rest) := by
    rw [quoted, List.cons_append, List.append_assoc, List.singleton_append, Text.trimStart,
      List.dropWhile_cons_of_neg (by decide)]
  rw [parameterValue, htrim]
  exact quotedLoop_escaped value.toList rest []

theorem oneLine_escaped {cs : List Char} (h : OneLine cs) : OneLine (cs.flatMap escapeChar) := by
  induction cs with
  | nil => exact h
  | cons c cs ih =>
      rw [List.flatMap_cons, escapeChar]
      split
      · rename_i hc
        refine OneLine.cons (fun h => absurd h (by decide)) (OneLine.cons ?_ (ih h.tail))
        rintro rfl
        exact absurd hc (by decide)
      · refine OneLine.cons ?_ (ih h.tail)
        rintro rfl
        cases cs with
        | nil => simp
        | cons d cs =>
            have hd : d ≠ '\n' := fun heq => h.head?_ne (congrArg some heq)
            rw [List.flatMap_cons, escapeChar]
            split
            · simp
            · simpa using hd

/-! ## Lists of parameters -/

/-- A name that needs no quotes. -/
structure IsKey (key : String) : Prop where
  word : Text.IsWord key.toList
  plain : ∀ c ∈ key.toList, (c != '=' && c != ';') = true

/-- A parameter behind the one before it. -/
def parameterText (parameter : String × String) : List Char :=
  ';' :: ' ' :: (parameter.1.toList ++ '=' :: quoted parameter.2)

theorem flatMap_parameterText (p : String × String) (ps : List (String × String)) :
    (p :: ps).flatMap parameterText = ';' :: ' ' :: (p.1.toList ++ '=' :: (quoted p.2 ++ ps.flatMap parameterText)) := by
  rw [List.flatMap_cons, parameterText, List.cons_append, List.cons_append, List.append_assoc, List.cons_append]

theorem nextParameter_text {key : String} (hkey : IsKey key) (value : String) (rest : List Char) :
    nextParameter (key.toList ++ '=' :: (quoted value ++ rest)) = ((key.toList, value.toList), rest) := by
  have hspan : (key.toList ++ '=' :: (quoted value ++ rest)).span (fun c => c != '=' && c != ';') =
      (key.toList, '=' :: (quoted value ++ rest)) := by
    rw [List.span_eq_takeWhile_dropWhile, List.takeWhile_append_of_pos hkey.plain,
      List.dropWhile_append_of_pos hkey.plain, List.takeWhile_cons_of_neg (by decide),
      List.dropWhile_cons_of_neg (by decide), List.append_nil]
  have hvalue := parameterValue_quoted value rest
  rw [nextParameter, hspan]
  change ((Text.trim key.toList, (parameterValue (quoted value ++ rest)).1),
    (parameterValue (quoted value ++ rest)).2) = _
  rw [hvalue, hkey.word.trim_eq]

/-- Separators in front of a parameter are skipped. -/
theorem parameterLoop_cons {c : Char} (hc : (c == ';' || Text.isBlank c) = true) (fuel : Nat) (cs : List Char) :
    parameterLoop fuel (c :: cs) = parameterLoop fuel cs := by
  cases fuel with
  | zero => rfl
  | succ fuel => rw [parameterLoop, parameterLoop, List.dropWhile_cons, if_pos hc]

theorem parameterLoop_key {key : String} (hkey : IsKey key) (value : String) (fuel : Nat) (rest : List Char) :
    parameterLoop (fuel + 1) (key.toList ++ '=' :: (quoted value ++ rest)) =
      (key, value) :: parameterLoop fuel rest := by
  obtain ⟨c, cs, hcs⟩ := List.exists_cons_of_ne_nil hkey.word.ne_nil
  have hmem : c ∈ key.toList := hcs ▸ List.mem_cons_self
  have hplain := hkey.plain c hmem
  have hvisible := hkey.word.visible c hmem
  have hdrop : ((key.toList ++ '=' :: (quoted value ++ rest)).dropWhile fun c => c == ';' || Text.isBlank c) =
      c :: (cs ++ '=' :: (quoted value ++ rest)) := by
    rw [hcs, List.cons_append]
    refine List.dropWhile_cons_of_neg ?_
    rw [hvisible]
    simp at hplain
    simp [hplain.2]
  have hnext := nextParameter_text hkey value rest
  rw [hcs, List.cons_append] at hnext
  rw [parameterLoop, hdrop]
  dsimp only
  rw [hnext, ← hcs, String.ofList_toList, String.ofList_toList]

theorem parameterLoop_text {ps : List (String × String)} (h : ∀ p ∈ ps, IsKey p.1) {fuel : Nat}
    (hfuel : ps.length ≤ fuel) : parameterLoop fuel (ps.flatMap parameterText) = ps := by
  induction ps generalizing fuel with
  | nil => cases fuel <;> rfl
  | cons p ps ih =>
      obtain ⟨fuel, rfl⟩ : ∃ n, fuel = n + 1 := ⟨fuel - 1, by rw [List.length_cons] at hfuel; omega⟩
      rw [List.forall_mem_cons] at h
      rw [flatMap_parameterText, parameterLoop_cons (by decide), parameterLoop_cons (by decide),
        parameterLoop_key h.1, ih h.2 (Nat.le_of_succ_le_succ hfuel)]

theorem length_lt_flatMap (p : String × String) (ps : List (String × String)) :
    (p :: ps).length < ((p :: ps).flatMap parameterText).length := by
  have hle : ps.length ≤ (ps.flatMap parameterText).length :=
    Text.length_le_flatMap (fun p => by simp [parameterText]) ps
  rw [List.flatMap_cons, List.length_append, parameterText, List.length_cons, List.length_cons, List.length_cons]
  omega

/-- Parameters are read back behind the first separator. -/
theorem parameters_text {ps : List (String × String)} (h : ∀ p ∈ ps, IsKey p.1) {cs : List Char}
    (hcs : ps.flatMap parameterText = ';' :: cs) : parameters cs = ps := by
  cases ps with
  | nil => simp at hcs
  | cons p ps =>
      have hlength := length_lt_flatMap p ps
      rw [hcs] at hlength
      have hskip : parameterLoop cs.length (';' :: cs) = parameterLoop cs.length cs :=
        parameterLoop_cons (by decide) cs.length cs
      rw [parameters, ← hskip, ← hcs]
      exact parameterLoop_text h (Nat.le_of_lt_succ hlength)

theorem oneLine_parameters {ps : List (String × String)} (h : ∀ p ∈ ps, IsKey p.1 ∧ OneLine p.2.toList) :
    OneLine (ps.flatMap parameterText) := by
  induction ps with
  | nil => decide
  | cons p ps ih =>
      rw [List.forall_mem_cons] at h
      obtain ⟨⟨hkey, hvalue⟩, hps⟩ := h
      have hquoted : OneLine (quoted p.2 ++ ps.flatMap parameterText) := by
        rw [quoted, List.cons_append, List.append_assoc]
        refine OneLine.cons (fun h => absurd h (by decide)) ?_
        exact (oneLine_escaped hvalue).append (ih hps) (by decide) (by decide)
      rw [flatMap_parameterText]
      refine OneLine.cons (fun h => absurd h (by decide)) (OneLine.cons (fun h => absurd h (by decide)) ?_)
      exact (OneLine.of_visible hkey.word.visible).append hquoted (by decide) (by decide)

end WebServer.Form
