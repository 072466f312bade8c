import WebServer.Proofs.Output.Journal

/-! # Milestones in a journal

What a journal shows of the life of a session: the connection it began with, what the application was told about it,
and whether its connection was closed. -/

namespace WebServer

variable {κ : Type}

/-- A point in the life of a session. -/
inductive Milestone (κ : Type) where
  | notice (n : Notice)
  /-- The transport was asked to close the connection. -/
  | hungUp (conn : κ)
deriving DecidableEq, Repr

namespace Milestone

/-- The life of a session up to its end. -/
def begun (upgraded idle : Bool) : List (Milestone κ) :=
  .notice .opened :: (if upgraded then [.notice .upgraded] else []) ++ if idle then [.notice .idle] else []

/-- The end of a session over the connection `conn`. -/
def ended (conn : κ) (hungUp : Bool) : List (Milestone κ) :=
  (if hungUp then [.hungUp conn] else []) ++ [.notice .closed]

theorem closed_not_mem_begun (upgraded idle : Bool) : .notice .closed ∉ (begun upgraded idle : List (Milestone κ)) := by
  cases upgraded <;> cases idle <;> simp [begun]

theorem closed_mem_ended (conn : κ) (hungUp : Bool) : .notice .closed ∈ ended conn hungUp := by
  simp [ended]

/-- Nothing follows the end of a session. -/
theorem eq_nil_of_ended {upgraded idle hungUp upgraded' idle' hungUp' : Bool} {conn conn' : κ}
    {more : List (Milestone κ)}
    (he : begun upgraded idle ++ ended conn hungUp ++ more = begun upgraded' idle' ++ ended conn' hungUp') :
    more = [] := by
  rcases List.eq_nil_or_concat more with hnil | ⟨more, last, rfl⟩
  · exact hnil
  · rw [ended, ended, List.concat_eq_append, ← List.append_assoc, ← List.append_assoc, ← List.append_assoc] at he
    -- Otherwise the closed notice would come before the last milestone, too.
    have hmem : .notice .closed ∈ begun upgraded' idle' ++ if hungUp' then [.hungUp conn'] else [] := by
      rw [← (List.append_inj' he rfl).1]
      simp
    rw [List.mem_append] at hmem
    rcases hmem with hmem | hmem
    · exact absurd hmem (closed_not_mem_begun _ _)
    · split at hmem <;> simp at hmem

end Milestone

namespace Entry

def milestones (h : Handle) : Entry κ → List (Milestone κ)
  | .notice h' n => if h' = h then [.notice n] else []
  | .closed h' conn => if h' = h then [.hungUp conn] else []
  | _ => []

/-- The connection that a session begins with. -/
def connFor? (h : Handle) : Entry κ → Option κ
  | .accepted h' conn => if h' = h then some conn else none
  | _ => none

/-- An entry that is no milestone of a session. -/
def Plain (h : Handle) (entry : Entry κ) : Prop :=
  entry.begins h = false ∧ entry.milestones h = []

variable {h : Handle} {entry : Entry κ}

theorem plain_of_handle (hne : entry.handle ≠ h) : entry.Plain h := by
  refine ⟨(apart_of_handle hne).begins, ?_⟩
  cases entry with
  | notice | closed => simp_all [milestones, handle]
  | _ => rfl

theorem connFor?_eq_none (hb : entry.begins h = false) : entry.connFor? h = none := by
  cases entry with
  | accepted => simp_all [connFor?, begins]
  | _ => rfl

end Entry

/-- The milestones of a session since it began, oldest first. -/
def milestones (h : Handle) (journal : List (Entry κ)) : List (Milestone κ) :=
  (since h journal).reverse.flatMap (Entry.milestones h)

/-- The connection that the session with a handle began with. -/
def connOf? (h : Handle) (journal : List (Entry κ)) : Option κ :=
  journal.findSome? (Entry.connFor? h)

variable {h : Handle} {gained : List (Entry κ)}

theorem milestones_append (hb : ∀ entry ∈ gained, entry.begins h = false) (journal : List (Entry κ)) :
    milestones h (gained ++ journal) = milestones h journal ++ gained.reverse.flatMap (Entry.milestones h) :=
  flatMap_since_append _ hb journal

theorem milestones_append_plain (hg : ∀ entry ∈ gained, Entry.Plain h entry) (journal : List (Entry κ)) :
    milestones h (gained ++ journal) = milestones h journal :=
  flatMap_since_append_of_nil _ hg journal

theorem connOf?_append (hb : ∀ entry ∈ gained, entry.begins h = false) (journal : List (Entry κ)) :
    connOf? h (gained ++ journal) = connOf? h journal := by
  have hnone : gained.findSome? (Entry.connFor? h) = none :=
    List.findSome?_eq_none_iff.mpr fun entry hm => Entry.connFor?_eq_none (hb entry hm)
  rw [connOf?, List.findSome?_append, hnone, Option.none_or, connOf?]

theorem milestones_accepted (h : Handle) (conn : κ) (journal : List (Entry κ)) :
    milestones h (.accepted h conn :: journal) = [] := by
  rw [milestones, since_accepted]
  rfl

theorem connOf?_accepted (h : Handle) (conn : κ) (journal : List (Entry κ)) :
    connOf? h (.accepted h conn :: journal) = some conn := by
  simp [connOf?, Entry.connFor?]

/-- As long as no other session gets its handle, a session keeps its connection and its milestones. -/
theorem milestones_of_suffix {journal journal' : List (Entry κ)} (hsuffix : journal <:+ journal')
    (hi : issues h journal' = issues h journal) :
    connOf? h journal' = connOf? h journal ∧ milestones h journal <+: milestones h journal' := by
  obtain ⟨gained, rfl⟩ := hsuffix
  have hb := not_begins_of_issues hi
  exact ⟨connOf?_append hb journal, _, (milestones_append hb journal).symm⟩

end WebServer
