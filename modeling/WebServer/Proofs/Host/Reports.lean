import Mathlib.Data.List.Nodup
import WebServer.Proofs.Host.Connections

/-! # What sockets report

The bytes in flight on a connection are those that its writer has still to flush and those whose flush it has
reported. A writer or a reader that has stopped while its connection is known has reported why, and the report waits. -/

namespace WebServer.Host

/-- The connection that an event is about. -/
def Event.conn? : Event → Option Nat
  | .accepted => none
  | .received conn _ | .remoteClosed conn | .sent conn _ | .failed conn => some conn

/-- The bytes of a connection that an event reports as flushed. -/
def Event.flushed (conn : Nat) : Event → Nat
  | .sent id count => if id = conn then count else 0
  | _ => 0

/-- The bytes of a connection that events report as flushed. -/
def flushed (conn : Nat) : List Event → Nat
  | [] => 0
  | event :: events => event.flushed conn + flushed conn events

/-- The bytes that a task of a writer flushes. -/
def WriterTask.size : WriterTask → Nat
  | .data bytes => bytes.length
  | .shutdown => 0

/-- The bytes that a writer has still to flush. -/
def unflushed : List WriterTask → Nat
  | [] => 0
  | task :: tasks => task.size + unflushed tasks

/-- An event that neither acknowledges bytes of a connection nor reports that it ends. -/
structure Event.Spares (conn : Nat) (event : Event) : Prop where
  flushed : event.flushed conn = 0
  not_failed : event ≠ .failed conn
  not_remoteClosed : event ≠ .remoteClosed conn

theorem Event.spares_of_conn? {conn : Nat} {event : Event} (hne : event.conn? ≠ some conn) : event.Spares conn := by
  refine ⟨?_, fun he => hne (he ▸ rfl), fun he => hne (he ▸ rfl)⟩
  cases event with
  | sent id count => exact if_neg fun hid => hne (congrArg some hid)
  | _ => rfl

theorem Event.received_spares (conn id : Nat) (data : Bytes) : (Event.received id data).Spares conn :=
  ⟨rfl, nofun, nofun⟩

@[simp] theorem flushed_nil (conn : Nat) : flushed conn [] = 0 := rfl

@[simp] theorem flushed_cons (conn : Nat) (event : Event) (events : List Event) :
    flushed conn (event :: events) = event.flushed conn + flushed conn events := rfl

@[simp] theorem flushed_append (conn : Nat) (events more : List Event) :
    flushed conn (events ++ more) = flushed conn events + flushed conn more := by
  induction events with
  | nil => exact (Nat.zero_add _).symm
  | cons event events ih => rw [List.cons_append, flushed_cons, ih, flushed_cons, Nat.add_assoc]

theorem flushed_eq_zero {conn : Nat} {events : List Event} (hs : ∀ event ∈ events, event.Spares conn) :
    flushed conn events = 0 := by
  induction events with
  | nil => rfl
  | cons event events ih =>
      rw [List.forall_mem_cons] at hs
      rw [flushed_cons, hs.1.flushed, ih hs.2]

@[simp] theorem unflushed_nil : unflushed [] = 0 := rfl

@[simp] theorem unflushed_cons (task : WriterTask) (tasks : List WriterTask) :
    unflushed (task :: tasks) = task.size + unflushed tasks := rfl

@[simp] theorem unflushed_append (tasks more : List WriterTask) :
    unflushed (tasks ++ more) = unflushed tasks + unflushed more := by
  induction tasks with
  | nil => exact (Nat.zero_add _).symm
  | cons task tasks ih => rw [List.cons_append, unflushed_cons, ih, unflushed_cons, Nat.add_assoc]

/-! ## Sockets -/

/-- The socket of a known connection with `n` bytes in flight, and the events that wait, account for each other. -/
structure Socket.Serves (s : Socket) (conn n : Nat) (events : List Event) : Prop where
  /-- As long as the writer goes on, every byte in flight will be acknowledged. -/
  writer : ∀ tasks, s.writer = some tasks → .shutdown ∉ tasks ∧ flushed conn events + unflushed tasks = n
  stopped : s.writer = none → .failed conn ∈ events
  flushed_le : flushed conn events ≤ n
  reader : s.reading = true ∨ .remoteClosed conn ∈ events ∨ .failed conn ∈ events

namespace Socket.Serves

variable {s : Socket} {conn n : Nat} {events more : List Event} {event : Event}

theorem append (h : s.Serves conn n events) (hmore : flushed conn more = 0) : s.Serves conn n (events ++ more) where
  writer tasks ht := by
    rw [flushed_append, hmore]
    exact h.writer tasks ht
  stopped ht := List.mem_append_left _ (h.stopped ht)
  flushed_le := by
    rw [flushed_append, hmore]
    exact h.flushed_le
  reader := h.reader.imp_right (Or.imp (List.mem_append_left _) (List.mem_append_left _))

theorem tail (h : s.Serves conn n (event :: events)) (hs : event.Spares conn) : s.Serves conn n events where
  writer tasks ht := by
    have hw := h.writer tasks ht
    rwa [flushed_cons, hs.flushed, Nat.zero_add] at hw
  stopped ht := List.mem_of_ne_of_mem hs.not_failed.symm (h.stopped ht)
  flushed_le := by
    have hle := h.flushed_le
    rwa [flushed_cons, hs.flushed, Nat.zero_add] at hle
  reader := h.reader.imp_right
    (Or.imp (List.mem_of_ne_of_mem hs.not_remoteClosed.symm) (List.mem_of_ne_of_mem hs.not_failed.symm))

theorem acknowledged {count : Nat} (h : s.Serves conn n (.sent conn count :: events)) :
    s.Serves conn (n - count) events := by
  have hcount : (Event.sent conn count).flushed conn = count := if_pos rfl
  have hle := h.flushed_le
  rw [flushed_cons, hcount] at hle
  refine ⟨fun tasks ht => ?_, fun ht => ?_, by omega, ?_⟩
  · obtain ⟨hshutdown, hsum⟩ := h.writer tasks ht
    rw [flushed_cons, hcount] at hsum
    exact ⟨hshutdown, by omega⟩
  · exact List.mem_of_ne_of_mem (by simp) (h.stopped ht)
  · exact h.reader.imp_right (Or.imp (List.mem_of_ne_of_mem (by simp)) (List.mem_of_ne_of_mem (by simp)))

end Socket.Serves

/-! ## Connections and events -/

namespace Connections

/-- The sockets of the known connections account for what is in flight, together with the events that wait. Numbers of
connections are not used again. -/
structure Attended (c : Connections) (events : List Event) : Prop where
  nodup : (c.links.map Prod.fst).Nodup
  socket_lt : ∀ conn, (c.socket? conn).isSome → conn < c.nextId
  report_lt : ∀ event ∈ events, ∀ conn, event.conn? = some conn → conn < c.nextId
  links : ∀ conn n, c.inFlight? conn = some n → ∃ s, c.socket? conn = some s ∧ s.Serves conn n events

namespace Attended

variable {c c' : Connections} {conn : Nat} {events more : List Event} {event : Event}

theorem unknown_of_le (a : c.Attended events) (hle : c.nextId ≤ conn) : c.inFlight? conn = none := by
  cases hn : c.inFlight? conn with
  | none => rfl
  | some n =>
      obtain ⟨s, hs, -⟩ := a.links conn n hn
      have hlt := a.socket_lt conn (by rw [hs]; rfl)
      omega

theorem unreported (a : c.Attended events) (hle : c.nextId ≤ conn) : flushed conn events = 0 :=
  flushed_eq_zero fun event hm => Event.spares_of_conn? fun he => by
    have hlt := a.report_lt event hm conn he
    omega

/-! ### What the engine does -/

theorem left (a : c.Attended events) (l : Left c conn c') : c'.Attended events where
  nodup := by
    rw [l.links]
    exact (List.filter_sublist.map Prod.fst).nodup a.nodup
  socket_lt k hk := by
    rw [l.nextId]
    exact a.socket_lt k (l.sockets k ▸ hk)
  report_lt := l.nextId.symm ▸ a.report_lt
  links k n hn := by
    rw [l.inFlight?] at hn
    split at hn
    · cases hn
    · rename_i hk
      rw [l.socket k hk]
      exact a.links k n hn

theorem write (a : c.Attended events) (conn : Nat) (data : Bytes) : (c.write conn data).2.Attended events := by
  obtain ⟨error, he⟩ | ⟨n, tasks, hn, -, htasks, hw⟩ := write_cases c conn data
  · rw [he]
    exact a
  · have htake : (data.take (min data.length (c.sendBuffer - n))).length = min data.length (c.sendBuffer - n) := by
      rw [List.length_take]
      omega
    rw [hw]
    generalize min data.length (c.sendBuffer - n) = count at htake
    refine ⟨?_, fun k hk => a.socket_lt k ?_, a.report_lt, fun k m hm => ?_⟩
    · exact (keys_updateLink c conn (· + count)).symm ▸ a.nodup
    · rw [socket?_updateSocket, socket?_updateLink] at hk
      split at hk <;> simpa using hk
    · rw [inFlight?_updateSocket, inFlight?_updateLink] at hm
      rw [socket?_updateSocket, socket?_updateLink]
      split
      · rename_i hk
        subst hk
        rw [if_pos rfl, hn] at hm
        obtain rfl := Option.some.inj hm
        obtain ⟨s, hs, hserves⟩ := a.links k n hn
        rw [hs] at htasks
        obtain ⟨hshutdown, hsum⟩ := hserves.writer tasks htasks
        rw [hs]
        refine ⟨_, rfl, fun tasks' ht => ?_, nofun, Nat.le_add_right_of_le hserves.flushed_le, hserves.reader⟩
        obtain rfl := Option.some.inj ht
        refine ⟨by simp [hshutdown], ?_⟩
        rw [unflushed_append, unflushed_cons, WriterTask.size, htake, unflushed_nil]
        dsimp only
        omega
      · rename_i hk
        rw [if_neg hk] at hm
        exact a.links k m hm

/-! ### What the sockets do -/

theorem append (a : c.Attended events) (hissued : ∀ event ∈ more, ∀ conn, event.conn? = some conn → conn < c.nextId)
    (hspares : ∀ conn, flushed conn more = 0) : c.Attended (events ++ more) where
  nodup := a.nodup
  socket_lt := a.socket_lt
  report_lt := List.forall_mem_append.mpr ⟨a.report_lt, hissued⟩
  links conn n hn := by
    obtain ⟨s, hs, hserves⟩ := a.links conn n hn
    exact ⟨s, hs, hserves.append (hspares conn)⟩

/-- A socket changes and reports something about its connection. -/
theorem serve (a : c.Attended events) {s : Socket} (hs : c.socket? conn = some s) {f : Socket → Socket}
    (hmore : ∀ event ∈ more, event.conn? = some conn)
    (hserves : ∀ n, s.Serves conn n events → (f s).Serves conn n (events ++ more)) :
    (c.updateSocket conn f).Attended (events ++ more) where
  nodup := a.nodup
  socket_lt k hk := by
    refine a.socket_lt k ?_
    rw [socket?_updateSocket] at hk
    split at hk <;> simpa using hk
  report_lt := by
    refine List.forall_mem_append.mpr ⟨a.report_lt, fun event hm k hk => ?_⟩
    obtain rfl := Option.some.inj ((hmore event hm).symm.trans hk)
    exact a.socket_lt conn (by rw [hs]; rfl)
  links k n hn := by
    obtain ⟨t, ht, hold⟩ := a.links k n hn
    rw [socket?_updateSocket]
    split
    · rename_i hk
      subst hk
      obtain rfl := Option.some.inj (hs.symm.trans ht)
      exact ⟨f s, by rw [hs]; rfl, hserves n hold⟩
    · rename_i hk
      refine ⟨t, ht, hold.append (flushed_eq_zero fun event hm => Event.spares_of_conn? fun he => ?_)⟩
      exact hk (Option.some.inj (he.symm.trans (hmore event hm)))

theorem flushNext (a : c.Attended events) (conn : Nat) :
    (c.flushNext conn).2.Attended (events ++ (c.flushNext conn).1) := by
  rw [Connections.flushNext]
  split
  · rename_i bytes tasks htasks
    obtain ⟨s, hs, hwriter⟩ := Option.bind_eq_some_iff.mp htasks
    dsimp only
    refine a.serve hs (List.forall_mem_singleton.mpr rfl) fun n h => ?_
    obtain ⟨hshutdown, hsum⟩ := h.writer _ hwriter
    have hflushed : flushed conn [.sent conn bytes.length] = bytes.length := by simp [Event.flushed]
    rw [unflushed_cons, WriterTask.size] at hsum
    refine ⟨fun tasks' ht => ?_, fun ht => absurd ht (Option.some_ne_none tasks), ?_, ?_⟩
    · obtain rfl := Option.some.inj ht
      rw [flushed_append, hflushed]
      exact ⟨fun hm => hshutdown (List.mem_cons_of_mem _ hm), by omega⟩
    · rw [flushed_append, hflushed]
      omega
    · exact h.reader.imp_right (Or.imp (List.mem_append_left _) (List.mem_append_left _))
  · rename_i tasks htasks
    obtain ⟨s, hs, hwriter⟩ := Option.bind_eq_some_iff.mp htasks
    -- The writer of a known connection is not told to shut down.
    dsimp only
    exact a.serve hs (by simp) fun n h => absurd List.mem_cons_self (h.writer _ hwriter).1
  · rwa [List.append_nil]

theorem breakWriter (a : c.Attended events) (conn : Nat) :
    (c.breakWriter conn).2.Attended (events ++ (c.breakWriter conn).1) := by
  rw [Connections.breakWriter]
  split
  · rename_i bytes tasks htasks
    obtain ⟨s, hs, -⟩ := Option.bind_eq_some_iff.mp htasks
    dsimp only
    refine a.serve hs (List.forall_mem_singleton.mpr rfl) fun n h => ?_
    have hfailed : .failed conn ∈ events ++ [Event.failed conn] := List.mem_append_right _ List.mem_cons_self
    exact ⟨fun tasks ht => absurd ht.symm (Option.some_ne_none tasks), fun _ => hfailed, (h.append rfl).flushed_le,
      .inr (.inr hfailed)⟩
  · rwa [List.append_nil]

theorem endReader (a : c.Attended events) (conn : Nat) (broken : Bool) :
    (c.endReader conn broken).2.Attended (events ++ (c.endReader conn broken).1) := by
  rw [Connections.endReader]
  split
  · rename_i hreading
    obtain ⟨s, hs, -⟩ := (Option.any_eq_true _ _).mp hreading
    dsimp only
    refine a.serve hs (List.forall_mem_singleton.mpr (by cases broken <;> rfl)) fun n h => ?_
    have hend : flushed conn [if broken then .failed conn else .remoteClosed conn] = 0 := by
      cases broken <;> rfl
    have happend := h.append hend
    refine ⟨happend.writer, happend.stopped, happend.flushed_le, .inr ?_⟩
    cases broken with
    | true => exact .inr (List.mem_append_right _ List.mem_cons_self)
    | false => exact .inl (List.mem_append_right _ List.mem_cons_self)
  · rwa [List.append_nil]

theorem arrive (a : c.Attended events) (conn : Nat) (data : Bytes) : c.Attended (events ++ c.arrive conn data) := by
  rw [Connections.arrive]
  split
  · rename_i hreading
    obtain ⟨s, hs, -⟩ := (Option.any_eq_true _ _).mp hreading
    have hpiece {event : Event} (hm : event ∈ (pieces data.length data).map (Event.received conn)) :
        ∃ piece, event = .received conn piece := by
      obtain ⟨piece, -, rfl⟩ := List.mem_map.mp hm
      exact ⟨piece, rfl⟩
    refine a.append (fun event hm k hk => ?_) fun k => flushed_eq_zero fun event hm => ?_
    · obtain ⟨piece, rfl⟩ := hpiece hm
      obtain rfl := Option.some.inj hk
      exact a.socket_lt conn (by rw [hs]; rfl)
    · obtain ⟨piece, rfl⟩ := hpiece hm
      exact Event.received_spares k conn piece
  · rwa [List.append_nil]

/-! ### What the driver does -/

/-- An event is dealt with that no known connection is concerned with any more. -/
theorem tail (a : c.Attended (event :: events)) (hs : ∀ conn n, c.inFlight? conn = some n → event.Spares conn) :
    c.Attended events where
  nodup := a.nodup
  socket_lt := a.socket_lt
  report_lt event hm := a.report_lt event (List.mem_cons_of_mem _ hm)
  links conn n hn := by
    obtain ⟨s, hsocket, h⟩ := a.links conn n hn
    exact ⟨s, hsocket, h.tail (hs conn n hn)⟩

theorem tail_of_unknown (a : c.Attended (event :: events)) (he : event.conn? = some conn)
    (hn : c.inFlight? conn = none) : c.Attended events :=
  a.tail fun k n hk => Event.spares_of_conn? fun hc => by
    obtain rfl := Option.some.inj (he.symm.trans hc)
    exact nomatch hn.symm.trans hk

theorem acknowledge {count : Nat} (a : c.Attended (.sent conn count :: events)) :
    (c.acknowledge conn count).Attended events where
  nodup := (keys_updateLink c conn (· - count)).symm ▸ a.nodup
  socket_lt := a.socket_lt
  report_lt event hm := a.report_lt event (List.mem_cons_of_mem _ hm)
  links k n hn := by
    rw [Connections.acknowledge, inFlight?_updateLink] at hn
    rw [Connections.acknowledge, socket?_updateLink]
    split at hn
    · rename_i hk
      subst hk
      obtain ⟨m, hm, rfl⟩ := Option.map_eq_some_iff.mp hn
      obtain ⟨s, hs, h⟩ := a.links k m hm
      exact ⟨s, hs, h.acknowledged⟩
    · rename_i hk
      obtain ⟨s, hs, h⟩ := a.links k n hn
      exact ⟨s, hs, h.tail (Event.spares_of_conn? fun he => hk (Option.some.inj he).symm)⟩

theorem register (a : c.Attended events) : c.register.2.Attended events where
  nodup := by
    have hnew : c.nextId ∉ c.links.map Prod.fst := by
      rw [mem_keys, a.unknown_of_le (Nat.le_refl _)]
      exact Bool.false_ne_true
    simp only [Connections.register, List.map_append, List.map_cons, List.map_nil]
    exact List.nodup_append_comm.mp (List.nodup_cons.mpr ⟨hnew, a.nodup⟩)
  socket_lt k hk := by
    rw [socket?_register] at hk
    change k < c.nextId + 1
    by_cases hk' : k = c.nextId
    · omega
    · rw [if_neg hk', Option.or_none] at hk
      exact Nat.lt_succ_of_lt (a.socket_lt k hk)
  report_lt event hm k hk := Nat.lt_succ_of_lt (a.report_lt event hm k hk)
  links k n hn := by
    rw [inFlight?_register] at hn
    rw [socket?_register]
    by_cases hk : k = c.nextId
    · -- Nothing is known yet about a new connection.
      subst hk
      have hsocket : c.socket? c.nextId = none := by
        cases hs : c.socket? c.nextId with
        | none => rfl
        | some s => exact absurd (a.socket_lt c.nextId (by rw [hs]; rfl)) (Nat.lt_irrefl _)
      rw [a.unknown_of_le (Nat.le_refl _), if_pos rfl] at hn
      obtain rfl := Option.some.inj hn
      have hnone : flushed c.nextId events = 0 := a.unreported (Nat.le_refl _)
      refine ⟨{}, by rw [hsocket, if_pos rfl]; rfl, fun tasks ht => ?_, nofun, Nat.le_of_eq hnone, .inl rfl⟩
      obtain rfl := Option.some.inj ht
      exact ⟨List.not_mem_nil, hnone⟩
    · rw [if_neg hk, Option.or_none] at hn
      rw [if_neg hk, Option.or_none]
      exact a.links k n hn

end Attended

end Connections
end WebServer.Host
