import Mathlib.Data.List.Basic
import WebServer.Host.Connections

/-! # The tables of a host

What each operation on the connections of a host does to the bytes in flight and to the sockets, connection by
connection. -/

namespace WebServer.Host

/-! ## Tables -/

section

variable {α : Type}

/-- What a table has under a connection. -/
def lookUp? (table : List (Nat × α)) (conn : Nat) : Option α :=
  (table.find? fun (id, _) => id == conn).map Prod.snd

theorem lookUp?_map (table : List (Nat × α)) (conn k : Nat) (f : α → α) :
    lookUp? (table.map fun (id, a) => (id, if id == conn then f a else a)) k =
      if k = conn then (lookUp? table k).map f else lookUp? table k := by
  rw [lookUp?, lookUp?, List.find?_map]
  change ((table.find? fun (id, _) => id == k).map _).map Prod.snd = _
  cases ht : table.find? fun (id, _) => id == k with
  | none => simp
  | some p =>
      have hkey : p.1 = k := by simpa using List.find?_some ht
      subst hkey
      by_cases hk : p.1 = conn <;> simp [hk]

theorem lookUp?_filter (table : List (Nat × α)) (conn k : Nat) :
    lookUp? (table.filter fun (id, _) => id != conn) k = if k = conn then none else lookUp? table k := by
  rw [lookUp?, lookUp?, List.find?_filter]
  by_cases hk : k = conn
  · subst hk
    rw [if_pos rfl, Option.map_eq_none_iff, List.find?_eq_none]
    simp
  · rw [if_neg hk]
    congr 2
    funext p
    by_cases hp : p.1 = k <;> simp [hp, hk]

theorem lookUp?_concat (table : List (Nat × α)) (conn k : Nat) (a : α) :
    lookUp? (table ++ [(conn, a)]) k = (lookUp? table k).or (if k = conn then some a else none) := by
  rw [lookUp?, lookUp?, List.find?_append]
  cases table.find? fun (id, _) => id == k with
  | some p => rfl
  | none => by_cases hk : k = conn <;> simp [hk, Ne.symm]

theorem lookUp?_isSome (table : List (Nat × α)) (conn : Nat) :
    (lookUp? table conn).isSome ↔ conn ∈ table.map Prod.fst := by
  simp [lookUp?, List.find?_isSome]

/-- Nothing is changed under a connection that a table does not have. -/
theorem map_of_lookUp?_eq_none {table : List (Nat × α)} {conn : Nat} (hn : lookUp? table conn = none) (f : α → α) :
    (table.map fun (id, a) => (id, if id == conn then f a else a)) = table := by
  have hne : ∀ p ∈ table, ¬(p.1 == conn) = true := by
    simpa [lookUp?, List.find?_eq_none] using hn
  refine (List.map_congr_left fun p hp => ?_).trans (List.map_id table)
  exact Prod.ext rfl (if_neg (hne p hp))

end

namespace Connections

theorem inFlight?_eq (c : Connections) (conn : Nat) : c.inFlight? conn = lookUp? c.links conn := rfl

section

variable (c : Connections) (conn k : Nat)

@[simp] theorem inFlight?_updateLink (f : Nat → Nat) :
    (c.updateLink conn f).inFlight? k = if k = conn then (c.inFlight? k).map f else c.inFlight? k :=
  lookUp?_map c.links conn k f

@[simp] theorem inFlight?_updateSocket (f : Socket → Socket) :
    (c.updateSocket conn f).inFlight? k = c.inFlight? k := rfl

@[simp] theorem socket?_updateLink (f : Nat → Nat) : (c.updateLink conn f).socket? k = c.socket? k := rfl

@[simp] theorem socket?_updateSocket (f : Socket → Socket) :
    (c.updateSocket conn f).socket? k = if k = conn then (c.socket? k).map f else c.socket? k :=
  lookUp?_map c.sockets conn k f

@[simp] theorem keys_updateLink (f : Nat → Nat) : (c.updateLink conn f).links.map Prod.fst = c.links.map Prod.fst := by
  simp [updateLink]

theorem mem_keys : conn ∈ c.links.map Prod.fst ↔ (c.inFlight? conn).isSome :=
  (lookUp?_isSome c.links conn).symm

theorem updateLink_of_unknown {conn : Nat} (hn : c.inFlight? conn = none) (f : Nat → Nat) :
    c.updateLink conn f = c := by
  rw [updateLink, map_of_lookUp?_eq_none hn]

theorem forget_of_unknown {conn : Nat} (hn : c.inFlight? conn = none) : c.forget conn = c := by
  rw [forget, hn]
  rfl

end

/-! ## Leaving -/

/-- A connection is known no more, and nothing else is changed about the others. -/
structure Left (c : Connections) (conn : Nat) (c' : Connections) : Prop where
  sendBuffer : c'.sendBuffer = c.sendBuffer
  nextId : c'.nextId = c.nextId
  links : c'.links = c.links.filter fun (id, _) => id != conn
  socket : ∀ k, k ≠ conn → c'.socket? k = c.socket? k
  sockets : ∀ k, (c'.socket? k).isSome = (c.socket? k).isSome

theorem Left.inFlight? {c c' : Connections} {conn : Nat} (l : Left c conn c') (k : Nat) :
    c'.inFlight? k = if k = conn then none else c.inFlight? k := by
  rw [inFlight?_eq, l.links]
  exact lookUp?_filter c.links conn k

theorem left_of_unknown {c : Connections} {conn : Nat} (hn : c.inFlight? conn = none) : Left c conn c := by
  refine ⟨rfl, rfl, (List.filter_eq_self.mpr fun p hp => ?_).symm, fun _ _ => rfl, fun _ => rfl⟩
  have hne : conn ∉ c.links.map Prod.fst := by
    rw [mem_keys, hn]
    exact Bool.false_ne_true
  exact bne_iff_ne.mpr fun he => hne (he ▸ List.mem_map_of_mem hp)

theorem left_updateSocket (c : Connections) (conn : Nat) (f : Socket → Socket) :
    Left c conn ({ c with links := c.links.filter fun (id, _) => id != conn }.updateSocket conn f) := by
  have hsocket (k : Nat) : ({ c with
      links := c.links.filter fun (id, _) => id != conn }.updateSocket conn f).socket? k =
        if k = conn then (c.socket? k).map f else c.socket? k :=
    lookUp?_map c.sockets conn k f
  refine ⟨rfl, rfl, rfl, fun k hk => (hsocket k).trans (if_neg hk), fun k => ?_⟩
  rw [hsocket]
  split <;> simp

theorem close_left (c : Connections) (conn : Nat) : Left c conn (c.close conn).2 := by
  rw [close]
  split
  · exact left_of_unknown (by simpa using ‹(c.inFlight? conn).isNone = true›)
  · dsimp only
    exact left_updateSocket c conn _

theorem forget_left (c : Connections) (conn : Nat) : Left c conn (c.forget conn) := by
  rw [forget]
  split
  · exact left_of_unknown (by simpa using ‹(c.inFlight? conn).isNone = true›)
  · exact left_updateSocket c conn _

/-! ## Sockets -/

/-- What a socket does concerns no bytes in flight. -/
structure SameLinks (c c' : Connections) : Prop where
  sendBuffer : c'.sendBuffer = c.sendBuffer
  links : c'.links = c.links

theorem flushNext_sameLinks (c : Connections) (conn : Nat) : SameLinks c (c.flushNext conn).2 := by
  rw [flushNext]
  split <;> exact ⟨rfl, rfl⟩

theorem breakWriter_sameLinks (c : Connections) (conn : Nat) : SameLinks c (c.breakWriter conn).2 := by
  rw [breakWriter]
  split <;> exact ⟨rfl, rfl⟩

theorem endReader_sameLinks (c : Connections) (conn : Nat) (broken : Bool) :
    SameLinks c (c.endReader conn broken).2 := by
  rw [endReader]
  split <;> exact ⟨rfl, rfl⟩

/-! ## Writing and accepting -/

/-- A write is refused and changes nothing, or its bytes are given to the writer as far as there is room. -/
theorem write_cases (c : Connections) (conn : Nat) (data : Bytes) :
    (∃ error, c.write conn data = (.error error, c)) ∨
      ∃ n tasks, c.inFlight? conn = some n ∧ n < c.sendBuffer ∧ (c.socket? conn).bind Socket.writer = some tasks ∧
        c.write conn data =
          (.ok (min data.length (c.sendBuffer - n)),
            (c.updateLink conn (· + min data.length (c.sendBuffer - n))).updateSocket conn fun s =>
              { s with writer := some (tasks ++ [.data (data.take (min data.length (c.sendBuffer - n)))]) }) := by
  rw [write]
  cases hn : c.inFlight? conn with
  | none => exact .inl ⟨_, rfl⟩
  | some n =>
      have hcapacity : c.capacity conn = c.sendBuffer - n := by
        rw [capacity, hn]
      rw [hcapacity]
      by_cases hfull : c.sendBuffer - n = 0
      · exact .inl ⟨_, by rw [if_neg (by simp), if_pos hfull]⟩
      · rw [if_neg (by simp), if_neg hfull]
        cases htasks : (c.socket? conn).bind Socket.writer with
        | none => exact .inl ⟨_, rfl⟩
        | some tasks => exact .inr ⟨n, tasks, rfl, Nat.lt_of_sub_ne_zero hfull, rfl, rfl⟩

/-- A new connection has nothing in flight. -/
theorem inFlight?_register (c : Connections) (k : Nat) :
    c.register.2.inFlight? k = (c.inFlight? k).or (if k = c.nextId then some 0 else none) :=
  lookUp?_concat c.links c.nextId k 0

theorem socket?_register (c : Connections) (k : Nat) :
    c.register.2.socket? k = (c.socket? k).or (if k = c.nextId then some {} else none) :=
  lookUp?_concat c.sockets c.nextId k {}

end Connections
end WebServer.Host
