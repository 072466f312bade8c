import Mathlib.Data.List.Basic
import WebServer.Engine.Basic

/-! # Bytes in a journal

What a journal, newest entry first, shows of the bytes that were queued on a session and of those that a transport
took from it. A handle may be issued again, so a session begins where its connection was last accepted. -/

namespace WebServer

/-- The bytes that a transport took of a chunk. -/
def takenOf (chunk : Bytes) : Except TransportError Nat → Bytes
  | .ok n => chunk.take n
  | .error _ => []

variable {κ : Type}

namespace Entry

/-- The session that an entry is about. -/
def handle : Entry κ → Handle
  | .accepted h _ | .queued h _ | .wrote h _ _ _ | .lost h _ _ | .closed h _ | .notice h _ | .request h _ | .text h _ |
    .binary h _ => h

/-- Whether the session with the given handle begins here. -/
def begins (h : Handle) : Entry κ → Bool
  | .accepted h' _ => h' = h
  | _ => false

/-- Whether a message is given to a handler here. -/
def handsOver : Entry κ → Bool
  | .request .. | .text .. | .binary .. => true
  | _ => false

def queuedOn (h : Handle) : Entry κ → List Bytes
  | .queued h' data => if h' = h then [data] else []
  | _ => []

def takenFrom (h : Handle) : Entry κ → Bytes
  | .wrote h' _ chunk outcome => if h' = h then takenOf chunk outcome else []
  | _ => []

def takenOver [DecidableEq κ] (conn : κ) : Entry κ → Bytes
  | .wrote _ c chunk outcome => if c = conn then takenOf chunk outcome else []
  | _ => []

/-- An entry that leaves the bytes of a session alone. -/
structure Apart (h : Handle) (entry : Entry κ) : Prop where
  begins : entry.begins h = false
  queuedOn : entry.queuedOn h = []
  takenFrom : entry.takenFrom h = []

theorem apart_accepted {h h' : Handle} (hne : h' ≠ h) (conn : κ) : Apart h (accepted h' conn) :=
  ⟨by simp [Entry.begins, hne], rfl, rfl⟩

theorem apart_of_handle {h : Handle} {entry : Entry κ} (hne : entry.handle ≠ h) : entry.Apart h := by
  cases entry with
  | accepted h' conn => exact apart_accepted hne conn
  | queued h' data => exact ⟨rfl, by simp_all [Entry.queuedOn, handle], rfl⟩
  | wrote h' conn chunk outcome => exact ⟨rfl, rfl, by simp_all [Entry.takenFrom, handle]⟩
  | lost | closed | notice | request | text | binary => exact ⟨rfl, rfl, rfl⟩

theorem apart_queued {h h' : Handle} (hne : h' ≠ h) (data : Bytes) :
    Apart h (queued h' data : Entry κ) :=
  ⟨rfl, by simp [Entry.queuedOn, hne], rfl⟩

theorem apart_wrote {h h' : Handle} (hne : h' ≠ h) (conn : κ) (chunk : Bytes)
    (outcome : Except TransportError Nat) : Apart h (wrote h' conn chunk outcome) :=
  ⟨rfl, rfl, by simp [Entry.takenFrom, hne]⟩

/-- An entry that neither begins a session nor queues anything on it. -/
def Silent (h : Handle) (entry : Entry κ) : Prop :=
  entry.begins h = false ∧ entry.queuedOn h = []

theorem silent_of_handle {h : Handle} {entry : Entry κ} (hne : entry.handle ≠ h) : entry.Silent h :=
  ⟨(apart_of_handle hne).begins, (apart_of_handle hne).queuedOn⟩

/-- An entry about the output of one session over its connection. -/
structure Concerns [DecidableEq κ] (h : Handle) (conn : κ) (entry : Entry κ) : Prop where
  begins : entry.begins h = false
  apart : ∀ h', h ≠ h' → entry.Apart h'
  own : entry.takenOver conn = entry.takenFrom h
  takenOver : ∀ c, conn ≠ c → entry.takenOver c = []

theorem concerns_queued [DecidableEq κ] (h : Handle) (conn : κ) (data : Bytes) :
    Concerns h conn (queued h data) :=
  ⟨rfl, fun _ hne => apart_queued hne data, rfl, fun _ _ => rfl⟩

theorem concerns_wrote [DecidableEq κ] (h : Handle) (conn : κ) (chunk : Bytes)
    (outcome : Except TransportError Nat) : Concerns h conn (wrote h conn chunk outcome) :=
  ⟨rfl, fun _ hne => apart_wrote hne conn chunk outcome, by simp [Entry.takenOver, Entry.takenFrom],
    fun _ hne => by simp [Entry.takenOver, hne]⟩

end Entry

/-! ## Journals -/

/-- What was done since a session began. -/
def since (h : Handle) (journal : List (Entry κ)) : List (Entry κ) :=
  journal.takeWhile fun entry => !entry.begins h

/-- How many sessions have had a handle. -/
def issues (h : Handle) (journal : List (Entry κ)) : Nat :=
  journal.countP (Entry.begins h)

/-- The buffers queued on a session since it began, oldest first. -/
def queuedOn (h : Handle) (journal : List (Entry κ)) : List Bytes :=
  (since h journal).reverse.flatMap (Entry.queuedOn h)

/-- The bytes taken from a session since it began. -/
def takenFrom (h : Handle) (journal : List (Entry κ)) : Bytes :=
  (since h journal).reverse.flatMap (Entry.takenFrom h)

/-- The bytes taken over a connection. -/
def takenOver [DecidableEq κ] (conn : κ) (journal : List (Entry κ)) : Bytes :=
  journal.reverse.flatMap (Entry.takenOver conn)

/-- The messages that were given to handlers, oldest first. -/
def handedOver (journal : List (Entry κ)) : List (Entry κ) :=
  (journal.filter Entry.handsOver).reverse

variable {h : Handle} {entry : Entry κ} {journal : List (Entry κ)}

theorem handedOver_append (gained journal : List (Entry κ)) :
    handedOver (gained ++ journal) = handedOver journal ++ handedOver gained := by
  rw [handedOver, List.filter_append, List.reverse_append]
  rfl

theorem handedOver_append_of_not {gained : List (Entry κ)} (hg : ∀ entry ∈ gained, Entry.handsOver entry = false)
    (journal : List (Entry κ)) : handedOver (gained ++ journal) = handedOver journal := by
  have hnil : handedOver gained = [] :=
    List.reverse_eq_nil_iff.mpr (List.filter_eq_nil_iff.mpr fun entry hm => by simp [hg entry hm])
  rw [handedOver_append, hnil, List.append_nil]

theorem handedOver_cons_of_not (hn : entry.handsOver = false) (journal : List (Entry κ)) :
    handedOver (entry :: journal) = handedOver journal := by
  simp [handedOver, hn]

theorem handedOver_cons (hn : entry.handsOver = true) (journal : List (Entry κ)) :
    handedOver (entry :: journal) = handedOver journal ++ [entry] := by
  simp [handedOver, hn]

theorem since_cons (hb : entry.begins h = false) : since h (entry :: journal) = entry :: since h journal := by
  simp [since, hb]

theorem since_append {gained : List (Entry κ)} (hb : ∀ entry ∈ gained, entry.begins h = false)
    (journal : List (Entry κ)) : since h (gained ++ journal) = gained ++ since h journal := by
  rw [since, List.takeWhile_append_of_pos fun entry hm => by simp [hb entry hm], since]

/-- Whatever is read off the entries of a session, more entries add to it. -/
theorem flatMap_since_append {β : Type} (f : Entry κ → List β) {gained : List (Entry κ)}
    (hb : ∀ entry ∈ gained, entry.begins h = false) (journal : List (Entry κ)) :
    (since h (gained ++ journal)).reverse.flatMap f =
      (since h journal).reverse.flatMap f ++ gained.reverse.flatMap f := by
  rw [since_append hb, List.reverse_append, List.flatMap_append]

theorem flatMap_since_append_of_nil {β : Type} (f : Entry κ → List β) {gained : List (Entry κ)}
    (hg : ∀ entry ∈ gained, entry.begins h = false ∧ f entry = []) (journal : List (Entry κ)) :
    (since h (gained ++ journal)).reverse.flatMap f = (since h journal).reverse.flatMap f := by
  have hnil : gained.reverse.flatMap f = [] :=
    List.flatMap_eq_nil_iff.mpr fun entry hm => (hg entry (List.mem_reverse.mp hm)).2
  rw [flatMap_since_append f fun entry hm => (hg entry hm).1, hnil, List.append_nil]

theorem since_accepted (h : Handle) (conn : κ) (journal : List (Entry κ)) :
    since h (.accepted h conn :: journal) = [] := by
  simp [since, Entry.begins]

theorem queuedOn_cons (hb : entry.begins h = false) :
    queuedOn h (entry :: journal) = queuedOn h journal ++ entry.queuedOn h := by
  simp [queuedOn, since_cons hb]

theorem takenFrom_cons (hb : entry.begins h = false) :
    takenFrom h (entry :: journal) = takenFrom h journal ++ entry.takenFrom h := by
  simp [takenFrom, since_cons hb]

theorem takenOver_cons [DecidableEq κ] (conn : κ) (entry : Entry κ) (journal : List (Entry κ)) :
    takenOver conn (entry :: journal) = takenOver conn journal ++ entry.takenOver conn := by
  simp [takenOver]

theorem queuedOn_accepted (h : Handle) (conn : κ) (journal : List (Entry κ)) :
    queuedOn h (.accepted h conn :: journal) = [] := by
  rw [queuedOn, since_accepted]
  rfl

theorem takenFrom_accepted (h : Handle) (conn : κ) (journal : List (Entry κ)) :
    takenFrom h (.accepted h conn :: journal) = [] := by
  rw [takenFrom, since_accepted]
  rfl

theorem issues_le_append (h : Handle) (gained journal : List (Entry κ)) :
    issues h journal ≤ issues h (gained ++ journal) := by
  rw [issues, issues, List.countP_append]
  exact Nat.le_add_left _ _

theorem issues_append_of_not {gained : List (Entry κ)} (hb : ∀ entry ∈ gained, entry.begins h = false)
    (journal : List (Entry κ)) : issues h (gained ++ journal) = issues h journal := by
  rw [issues, List.countP_append, List.countP_eq_zero.mpr (by simpa using hb), Nat.zero_add, issues]

theorem not_begins_of_issues {gained : List (Entry κ)} (hi : issues h (gained ++ journal) = issues h journal) :
    ∀ entry ∈ gained, entry.begins h = false := by
  rw [issues, issues, List.countP_append] at hi
  simpa using List.countP_eq_zero.mp (Nat.add_eq_right.mp hi)

theorem issues_accepted (h : Handle) (conn : κ) (journal : List (Entry κ)) :
    issues h (.accepted h conn :: journal) = issues h journal + 1 := by
  simp [issues, Entry.begins]

theorem queuedOn_queued (h : Handle) (data : Bytes) (journal : List (Entry κ)) :
    queuedOn h (.queued h data :: journal) = queuedOn h journal ++ [data] := by
  rw [queuedOn_cons rfl]
  simp [Entry.queuedOn]

theorem queuedOn_append_silent {gained : List (Entry κ)} (hg : ∀ entry ∈ gained, Entry.Silent h entry)
    (journal : List (Entry κ)) : queuedOn h (gained ++ journal) = queuedOn h journal :=
  flatMap_since_append_of_nil _ hg journal

theorem queuedOn_cons_apart (ha : entry.Apart h) : queuedOn h (entry :: journal) = queuedOn h journal := by
  rw [queuedOn_cons ha.begins, ha.queuedOn, List.append_nil]

theorem takenFrom_cons_apart (ha : entry.Apart h) :
    takenFrom h (entry :: journal) = takenFrom h journal := by
  rw [takenFrom_cons ha.begins, ha.takenFrom, List.append_nil]

/-- A journal that has grown by entries about the output of one session. -/
inductive GrownBy [DecidableEq κ] (h : Handle) (conn : κ) (journal : List (Entry κ)) : List (Entry κ) → Prop where
  | same : GrownBy h conn journal journal
  | more {grown : List (Entry κ)} {entry : Entry κ} (he : entry.Concerns h conn)
      (hg : GrownBy h conn journal grown) : GrownBy h conn journal (entry :: grown)

/-- Since a session began, nobody else has written to its connection. -/
def OwnsConn [DecidableEq κ] (h : Handle) (conn : κ) (journal : List (Entry κ)) : Prop :=
  ∀ entry ∈ since h journal, entry.takenOver conn = entry.takenFrom h

namespace OwnsConn

variable [DecidableEq κ] {conn : κ} {grown : List (Entry κ)}

theorem accepted (h : Handle) (conn c : κ) (journal : List (Entry κ)) :
    OwnsConn h conn (.accepted h c :: journal) := by
  rw [OwnsConn, since_accepted]
  exact fun _ hm => absurd hm List.not_mem_nil

theorem cons (o : OwnsConn h conn journal) (hb : entry.begins h = false)
    (he : entry.takenOver conn = entry.takenFrom h) : OwnsConn h conn (entry :: journal) := by
  rw [OwnsConn, since_cons hb]
  intro other hm
  rcases List.mem_cons.mp hm with rfl | hm
  · exact he
  · exact o other hm

theorem grown_self (o : OwnsConn h conn journal) (hg : GrownBy h conn journal grown) :
    OwnsConn h conn grown := by
  induction hg with
  | same => exact o
  | more he _ ih => exact ih.cons he.begins he.own

theorem grown_other (o : OwnsConn h conn journal) {h' : Handle} {conn' : κ} (hh : h' ≠ h) (hc : conn' ≠ conn)
    (hg : GrownBy h' conn' journal grown) : OwnsConn h conn grown := by
  induction hg with
  | same => exact o
  | more he _ ih =>
      have ha := he.apart h hh
      exact ih.cons ha.begins ((he.takenOver conn hc).trans ha.takenFrom.symm)

theorem takenOver_since (o : OwnsConn h conn journal) :
    takenOver conn (since h journal) = takenFrom h journal := by
  rw [takenOver, takenFrom]
  exact List.flatMap_congr fun entry hm => o entry (List.mem_reverse.mp hm)

end OwnsConn

end WebServer
