import WebServer.Proofs.Engine.Acts
import WebServer.Proofs.Text.Split
import WebServer.Proofs.Text.Utf8
import WebServer.Proofs.WebSocket.Sent

/-! # Messages in pieces

A peer may cut a message into frames and put pings and pongs between them. A session holds what has come of the
message until its last frame, and answers the pings meanwhile. -/

namespace WebServer

open WebSocket (SentFrame)

variable {τ κ σ : Type}

def MessageKind.opcode : MessageKind → WebSocket.Opcode
  | .text => .text
  | .binary => .binary

/-! ## The frames of a message -/

/-- A frame that leaves a message unfinished: what is held of the message before the frame and after it, and the payload
to be sent back. -/
inductive Adds (limit : Nat) : Option Fragment → SentFrame → Option Fragment → List Bytes → Prop where
  | first {kind : MessageKind} {f : SentFrame} (ho : f.opcode = kind.opcode) (hfin : f.fin = false) :
      Adds limit none f (some ⟨kind, f.payload⟩) []
  | more {kind : MessageKind} {data : Bytes} {f : SentFrame} (ho : f.opcode = .continuation) (hfin : f.fin = false)
      (hle : (data ++ f.payload).length ≤ limit) :
      Adds limit (some ⟨kind, data⟩) f (some ⟨kind, data ++ f.payload⟩) []
  | ping {held : Option Fragment} {f : SentFrame} (ho : f.opcode = .ping) : Adds limit held f held [f.payload]
  | pong {held : Option Fragment} {f : SentFrame} (ho : f.opcode = .pong) : Adds limit held f held []

/-- Such frames one behind the other. -/
inductive Unfinished (limit : Nat) : Option Fragment → List SentFrame → Option Fragment → List Bytes → Prop where
  | nil (held : Option Fragment) : Unfinished limit held [] held []
  | cons {before between after : Option Fragment} {f : SentFrame} {fs : List SentFrame} {ping pings : List Bytes}
      (hw : f.Within limit) (ha : Adds limit before f between ping) (hu : Unfinished limit between fs after pings) :
      Unfinished limit before (f :: fs) after (ping ++ pings)

/-- A frame that completes a message, of which something may be held already. -/
inductive Completes (limit : Nat) : Option Fragment → SentFrame → MessageKind → Bytes → Prop where
  | whole {kind : MessageKind} {f : SentFrame} (ho : f.opcode = kind.opcode) (hfin : f.fin = true) :
      Completes limit none f kind f.payload
  | last {kind : MessageKind} {data : Bytes} {f : SentFrame} (ho : f.opcode = .continuation) (hfin : f.fin = true)
      (hle : (data ++ f.payload).length ≤ limit) : Completes limit (some ⟨kind, data⟩) f kind (data ++ f.payload)

/-- Frames that carry a message, and pings among them. -/
inductive Carries (limit : Nat) (kind : MessageKind) (message : Bytes) (pings : List Bytes) :
    List SentFrame → Prop where
  | intro {front : List SentFrame} {held : Option Fragment} {last : SentFrame} (hu : Unfinished limit none front held pings)
      (hw : last.Within limit) (hc : Completes limit held last kind message) :
      Carries limit kind message pings (front ++ [last])

theorem Unfinished.split {limit : Nat} {before after : Option Fragment} {fs gs : List SentFrame} {pings : List Bytes}
    (h : Unfinished limit before (fs ++ gs) after pings) :
    ∃ between first second, Unfinished limit before fs between first ∧ Unfinished limit between gs after second ∧
      pings = first ++ second := by
  induction fs generalizing before pings with
  | nil => exact ⟨before, [], pings, .nil before, h, rfl⟩
  | cons f fs ih =>
      cases h with
      | cons hw ha hu =>
          obtain ⟨between, first, second, hfirst, hsecond, rfl⟩ := ih hu
          exact ⟨between, _, second, .cons hw ha hfirst, hsecond, (List.append_assoc ..).symm⟩

theorem Unfinished.within {limit : Nat} {before after : Option Fragment} {fs : List SentFrame} {pings : List Bytes}
    (h : Unfinished limit before fs after pings) : ∀ f ∈ fs, f.Within limit := by
  induction h with
  | nil => simp
  | cons hw _ _ ih => exact List.forall_mem_cons.mpr ⟨hw, ih⟩

/-- The beginning of the frames of a message is some of them and a part of the next one. -/
theorem Unfinished.cut {limit : Nat} {before after : Option Fragment} {fs : List SentFrame} {pings : List Bytes}
    (h : Unfinished limit before fs after pings) {last : SentFrame} (hw : last.Within limit) {buffer tail : Bytes}
    (hstream : (fs ++ [last]).flatMap SentFrame.bytes = buffer ++ tail) (hne : tail ≠ []) :
    ∃ done rest between part first second, Unfinished limit before done between first ∧
      Unfinished limit between rest after second ∧ pings = first ++ second ∧
      buffer = done.flatMap SentFrame.bytes ++ part ∧ part ++ tail = (rest ++ [last]).flatMap SentFrame.bytes ∧
      ∃ f : SentFrame, f.Within limit ∧ part <+: f.bytes ∧ part.length < f.bytes.length := by
  obtain ⟨done, later, part, hframes, hbuffer, hpart, hnext⟩ := Text.split_flatMap hstream.symm
  rcases List.eq_nil_or_concat later with rfl | ⟨rest, final, rfl⟩
  · exact absurd (List.append_eq_nil_iff.mp hpart).2 hne
  · rw [List.concat_eq_append] at hframes hpart hnext
    rw [← List.append_assoc] at hframes
    obtain ⟨rfl, hfinal⟩ := List.append_inj' hframes rfl
    obtain rfl := List.singleton_inj.mp hfinal
    obtain ⟨between, first, second, hfirst, hsecond, hpings⟩ := h.split
    refine ⟨done, rest, between, part, first, second, hfirst, hsecond, hpings, hbuffer, hpart, ?_⟩
    have hwithin : ∀ f ∈ rest ++ [last], f.Within limit :=
      List.forall_mem_append.mpr ⟨hsecond.within, by simpa using hw⟩
    cases hlater : rest ++ [last] with
    | nil => simp at hlater
    | cons f more =>
        rw [hlater] at hpart hnext hwithin
        have hlt : part.length < f.bytes.length := hnext f rfl
        rw [List.flatMap_cons] at hpart
        exact ⟨f, hwithin f List.mem_cons_self, List.prefix_of_prefix_length_le (hpart ▸ List.prefix_append _ _)
          (List.prefix_append _ _) (Nat.le_of_lt hlt), hlt⟩

/-- A message cut into pieces: its first frame, its last one, and what comes between them. -/
structure Pieces where
  kind : MessageKind
  first : SentFrame
  between : List SentFrame
  last : SentFrame

namespace Pieces

def frames (p : Pieces) : List SentFrame :=
  p.first :: p.between ++ [p.last]

/-- The payloads of the pieces among some frames. -/
def dataOf (fs : List SentFrame) : Bytes :=
  (fs.filter fun f => f.opcode = .continuation).flatMap SentFrame.payload

def pingsOf (fs : List SentFrame) : List Bytes :=
  (fs.filter fun f => f.opcode = .ping).map SentFrame.payload

def message (p : Pieces) : Bytes :=
  p.first.payload ++ dataOf p.between ++ p.last.payload

def pings (p : Pieces) : List Bytes :=
  pingsOf p.between

/-- Every frame and the message are within a limit. The first frame tells what the message carries, the others continue
it, and only the last one says that it is complete; pings and pongs may come between them. -/
structure Valid (limit : Nat) (p : Pieces) : Prop where
  within : ∀ f ∈ p.frames, f.Within limit
  limit : p.message.length ≤ limit
  first : p.first.opcode = p.kind.opcode ∧ p.first.fin = false
  between : ∀ f ∈ p.between, f.opcode = .continuation ∧ f.fin = false ∨ f.opcode = .ping ∨ f.opcode = .pong
  last : p.last.opcode = .continuation ∧ p.last.fin = true

theorem unfinished_between {limit : Nat} {kind : MessageKind} {fs : List SentFrame} {data : Bytes}
    (hw : ∀ f ∈ fs, f.Within limit)
    (hb : ∀ f ∈ fs, f.opcode = .continuation ∧ f.fin = false ∨ f.opcode = .ping ∨ f.opcode = .pong)
    (hle : (data ++ dataOf fs).length ≤ limit) :
    Unfinished limit (some ⟨kind, data⟩) fs (some ⟨kind, data ++ dataOf fs⟩) (pingsOf fs) := by
  induction fs generalizing data with
  | nil =>
      rw [show data ++ dataOf [] = data from List.append_nil data]
      exact .nil _
  | cons f fs ih =>
      rw [List.forall_mem_cons] at hw hb
      rcases hb.1 with ⟨ho, hfin⟩ | ho | ho
      · have hdata : dataOf (f :: fs) = f.payload ++ dataOf fs := by simp [dataOf, ho]
        have hpings : pingsOf (f :: fs) = [] ++ pingsOf fs := by simp [pingsOf, ho]
        rw [hdata, ← List.append_assoc] at hle ⊢
        rw [hpings]
        refine .cons hw.1 (.more ho hfin ?_) (ih hw.2 hb.2 hle)
        rw [List.length_append] at hle
        omega
      · have hdata : dataOf (f :: fs) = dataOf fs := by simp [dataOf, ho]
        have hpings : pingsOf (f :: fs) = [f.payload] ++ pingsOf fs := by simp [pingsOf, ho]
        rw [hdata] at hle ⊢
        rw [hpings]
        exact .cons hw.1 (.ping ho) (ih hw.2 hb.2 hle)
      · have hdata : dataOf (f :: fs) = dataOf fs := by simp [dataOf, ho]
        have hpings : pingsOf (f :: fs) = [] ++ pingsOf fs := by simp [pingsOf, ho]
        rw [hdata] at hle ⊢
        rw [hpings]
        exact .cons hw.1 (.pong ho) (ih hw.2 hb.2 hle)

/-- Pieces carry the message that they make up. -/
theorem Valid.carries {limit : Nat} {p : Pieces} (h : p.Valid limit) :
    Carries limit p.kind p.message p.pings p.frames := by
  obtain ⟨hfront, hlast⟩ := List.forall_mem_append.mp h.within
  obtain ⟨hfirst, hbetween⟩ := List.forall_mem_cons.mp hfront
  have hle : (p.first.payload ++ dataOf p.between).length ≤ limit := by
    have hlimit := h.limit
    rw [message, List.length_append] at hlimit
    omega
  refine .intro (.cons hfirst (.first h.first.1 h.first.2) (unfinished_between hbetween h.between hle)) ?_ ?_
  · exact hlast p.last (List.mem_singleton.mpr rfl)
  · exact .last h.last.1 h.last.2 h.limit

end Pieces

theorem Completes.carries {limit : Nat} {kind : MessageKind} {f : SentFrame} {message : Bytes} (hw : f.Within limit)
    (hc : Completes limit none f kind message) : Carries limit kind message [] [f] :=
  .intro (.nil none) hw hc

/-! ## What a session holds -/

/-- A session that takes messages and output. -/
structure Session.Listens (t : Session κ) : Prop where
  mode : t.mode = .webSocket
  output : t.acceptsOutput = true

theorem Session.Listens.closing {t : Session κ} (l : t.Listens) : t.closing = false := by
  have h := l.output
  simp only [Session.acceptsOutput, Bool.and_eq_true, Bool.not_eq_true'] at h
  exact h.1.1

theorem Session.Listens.closeSent {t : Session κ} (l : t.Listens) : t.closeSent = false := by
  have h := l.output
  simp only [Session.acceptsOutput, Bool.and_eq_true, Bool.not_eq_true'] at h
  exact h.2

theorem Session.Listens.isEnding {t : Session κ} (l : t.Listens) : t.isEnding = false := by
  rw [Session.isEnding, l.closing, l.closeSent, Bool.or_self]

namespace Engine

variable {e : Engine τ κ σ} {h : Handle} {t : Session κ} {held held' : Option Fragment} {inbound : Bytes}

/-- The engine when a session holds this of what it has received. -/
def hold (e : Engine τ κ σ) (h : Handle) (fragment : Option Fragment) (inbound : Bytes) : Engine τ κ σ :=
  e.update h fun t => { t with fragment, inbound }

theorem session?_hold (e : Engine τ κ σ) (h : Handle) (held : Option Fragment) (inbound : Bytes) :
    (e.hold h held inbound).session? h = (e.session? h).map fun t => { t with fragment := held, inbound } :=
  Registry.get?_update_self fun _ => rfl

theorem session?_hold_of_ne (e : Engine τ κ σ) {g : Handle} (hg : g ≠ h) (held : Option Fragment) (inbound : Bytes) :
    (e.hold h held inbound).session? g = e.session? g :=
  update_session?_of_ne (f := fun t => { t with fragment := held, inbound }) (fun _ => rfl) hg

@[simp] theorem hold_config : (e.hold h held inbound).config = e.config := rfl

@[simp] theorem dropInbound_hold (count : Nat) :
    (e.hold h held inbound).dropInbound h count = e.hold h held (inbound.drop count) :=
  update_update e fun _ => rfl

@[simp] theorem setFragment_hold : ((e.hold h held inbound).update h fun t => { t with fragment := held' }) =
    e.hold h held' inbound :=
  update_update e fun _ => rfl

/-- A change of the session with a handle is what it does to that session. -/
theorem update_congr (w : e.registry.WellFormed) (hs : e.session? h = some t) {f g : Session κ → Session κ}
    (hfg : f t = g t) : e.update h f = e.update h g := by
  simp only [update, Registry.update]
  congr 2
  refine List.map_congr_left fun u hu => ?_
  split
  · rename_i hh
    have hut : u = t := Option.some.inj ((w.get?_eq_some.mpr ⟨hu, hh⟩).symm.trans hs)
    rw [hut, hfg]
  · rfl

/-- The engine when the peer of a session was active just now. -/
def touched (e : Engine τ κ σ) (h : Handle) : Engine τ κ σ :=
  e.update h (Session.touch e.now)

theorem session?_touched (e : Engine τ κ σ) (h : Handle) :
    (e.touched h).session? h = (e.session? h).map (Session.touch e.now) :=
  Registry.get?_update_self fun _ => Session.touch_handle _ _

theorem gather_eq_hold (w : e.registry.WellFormed) (hs : e.session? h = some t) (data : Bytes) :
    e.gather h data = (e.touched h).hold h t.fragment (t.inbound ++ data) := by
  rw [gather, touched, hold, update_update e fun _ => Session.touch_handle _ _]
  refine update_congr w hs ?_
  simp only [Session.touch_eq]
  rfl

/-- A session that was active just now holds what comes behind what it has received. -/
theorem gather_hold (w : e.registry.WellFormed) (hs : e.session? h = some t) (fresh : t.Fresh e.now)
    (held : Option Fragment) (part data : Bytes) :
    (e.hold h held part).gather h data = e.hold h held (part ++ data) := by
  rw [gather, hold, hold, update_update e (f := fun t => { t with fragment := held, inbound := part }) fun _ => rfl]
  refine update_congr w hs ?_
  exact Session.touch_of_fresh (t := { t with fragment := held, inbound := part ++ data }) fresh

/-! What is held of the messages of a peer makes no difference to the output. -/

theorem update_hold {k : Handle} {f : Session κ → Session κ} (hf : ∀ t, (f t).handle = t.handle)
    (hsame : ∀ t, f { t with fragment := held, inbound } = { f t with fragment := held, inbound }) :
    (e.hold h held inbound).update k f = (e.update k f).hold h held inbound := by
  simp only [hold, update, Registry.update, List.map_map]
  congr 3
  funext t
  simp only [Function.comp_apply]
  by_cases hh : t.handle = h
  · by_cases hk : t.handle = k
    · rw [if_pos hh, if_pos hk, if_pos (show Session.handle _ = k from hk), if_pos ((hf t).trans hh), hsame]
    · rw [if_pos hh, if_neg hk, if_neg (show ¬Session.handle _ = k from hk), if_pos hh]
  · by_cases hk : t.handle = k
    · rw [if_neg hh, if_pos hk, if_neg (show ¬(f t).handle = h from fun he => hh ((hf t).symm.trans he))]
    · rw [if_neg hh, if_neg hk, if_neg hh]

theorem enqueue_hold (data : Bytes) :
    (e.hold h held inbound).enqueue h data = Prod.map id (hold · h held inbound) (e.enqueue h data) := by
  rw [enqueue, enqueue, session?_hold]
  cases e.session? h with
  | none => rfl
  | some t =>
      dsimp only [Option.map_some]
      cases t.outbound.enqueue data with
      | error err => rfl
      | ok queue =>
          exact Prod.ext rfl (update_hold (e := e.record (.queued h data)) (f := fun u => { u with outbound := queue })
            (fun _ => rfl) fun _ => rfl)

variable [Transport τ κ]

theorem flush_hold (e : Engine τ κ σ) (h : Handle) (held : Option Fragment) (inbound : Bytes) :
    (e.hold h held inbound).flush h = (e.flush h).hold h held inbound := by
  have drained (o : Outflow τ κ) :
      (({ e with transport := o.transport, journal := o.journal } : Engine τ κ σ).hold h held inbound).update h
          (fun u => { u with outbound := o.queue }) =
        (({ e with transport := o.transport, journal := o.journal } : Engine τ κ σ).update h
          fun u => { u with outbound := o.queue }).hold h held inbound :=
    update_hold (fun _ => rfl) fun _ => rfl
  rw [flush, flush, session?_hold]
  cases e.session? h with
  | none => rfl
  | some t =>
      exact drained (Outflow.drain h t.conn e.config.maxSegmentSize
        { transport := e.transport, queue := t.outbound, journal := e.journal })

/-! ## Answers to pings -/

/-- Every ping is answered by a pong with its payload. -/
def pongs (e : Engine τ κ σ) (h : Handle) (payloads : List Bytes) : Engine τ κ σ :=
  payloads.foldl (fun e payload => (e.enqueue h (WebSocket.encode .pong payload none)).2.flush h) e

@[simp] theorem pongs_nil (e : Engine τ κ σ) (h : Handle) : e.pongs h [] = e := rfl

theorem pongs_append (e : Engine τ κ σ) (h : Handle) (payloads others : List Bytes) :
    e.pongs h (payloads ++ others) = (e.pongs h payloads).pongs h others :=
  List.foldl_append

theorem pongs_hold (payloads : List Bytes) :
    (e.hold h held inbound).pongs h payloads = (e.pongs h payloads).hold h held inbound := by
  induction payloads generalizing e with
  | nil => rfl
  | cons payload payloads ih =>
      have hfirst : ((e.hold h held inbound).enqueue h (WebSocket.encode .pong payload none)).2.flush h =
          ((e.enqueue h (WebSocket.encode .pong payload none)).2.flush h).hold h held inbound := by
        rw [enqueue_hold, ← flush_hold]
        rfl
      change pongs (((e.hold h held inbound).enqueue h _).2.flush h) h payloads = _
      rw [hfirst, ih]
      rfl

theorem pongs_moves [DecidableEq κ] {env : Surroundings τ} (e : Engine τ κ σ) (h : Handle) (payloads : List Bytes) :
    Moves env e (e.pongs h payloads) := by
  induction payloads generalizing e with
  | nil => exact .refl
  | cons payload payloads ih =>
      exact (enqueue_moves e h _).trans ((flush_moves _ h).trans (ih _))

/-- What the pongs of a session leave: buffers queued on it, chunks offered to its connection, and nothing else. -/
structure Ponged (e : Engine τ κ σ) (h : Handle) (payloads : List Bytes) (e' : Engine τ κ σ) : Prop where
  session : ∀ t, e.session? h = some t → ∃ queue, e'.session? h = some { t with outbound := queue }
  others : ∀ g, g ≠ h → e'.session? g = e.session? g
  queued : queuedOn h e'.journal = queuedOn h e.journal ++ payloads.map (WebSocket.encode .pong · none)
  handed : handedOver e'.journal = handedOver e.journal

theorem pong_spec (hs : e.session? h = some t) (payload : Bytes) : Ponged e h [payload] (e.pongs h [payload]) := by
  have hpong : e.pongs h [payload] = (e.enqueue h (WebSocket.encode .pong payload none)).2.flush h := rfl
  rw [hpong, enqueue_of_session hs (encode_ne_nil .pong payload none)]
  dsimp only
  generalize ({ t.outbound with buffers := t.outbound.buffers ++ _ } : OutboundQueue) = queue
  have hqueued : ((e.record (.queued h (WebSocket.encode .pong payload none))).update h fun u =>
      { u with outbound := queue }).session? h = some { t with outbound := queue } :=
    (update_session? (f := fun u => { u with outbound := queue }) fun _ => rfl).trans (congrArg (Option.map _) hs)
  obtain ⟨queue', offers, -, hoffers, hsession, hothers, hj⟩ := flush_spec hqueued
  refine ⟨fun u hu => ⟨queue', ?_⟩, fun g hg => (hothers g hg).trans ?_, ?_, ?_⟩
  · rw [hsession, ← Option.some.inj (hs.symm.trans hu)]
  · exact update_session?_of_ne (f := fun u => { u with outbound := queue }) (fun _ => rfl) hg
  · rw [hj, queuedOn_append_silent fun entry hm => (hoffers entry hm).silent]
    exact queuedOn_queued h _ e.journal
  · rw [hj, handedOver_append_of_not fun entry hm => (hoffers entry hm).not_handsOver]
    exact handedOver_cons_of_not rfl e.journal

theorem pongs_spec (hs : e.session? h = some t) (payloads : List Bytes) : Ponged e h payloads (e.pongs h payloads) := by
  induction payloads generalizing e t with
  | nil => exact ⟨fun u hu => ⟨u.outbound, hu⟩, fun _ _ => rfl, (List.append_nil _).symm, rfl⟩
  | cons payload payloads ih =>
      obtain ⟨hsession, hothers, hqueued, hhanded⟩ := pong_spec hs payload
      obtain ⟨queue, hs'⟩ := hsession t hs
      obtain ⟨hsession', hothers', hqueued', hhanded'⟩ := ih hs'
      rw [show e.pongs h (payload :: payloads) = (e.pongs h [payload]).pongs h payloads from rfl]
      refine ⟨fun u hu => ?_, fun g hg => (hothers' g hg).trans (hothers g hg), ?_, hhanded'.trans hhanded⟩
      · obtain ⟨queue', hs''⟩ := hsession' _ hs'
        exact ⟨queue', Option.some.inj (hs.symm.trans hu) ▸ hs''⟩
      · rw [hqueued', hqueued, List.append_assoc]
        rfl

/-- The engine once it has answered the pings of a peer that was active just now. -/
def attended (e : Engine τ κ σ) (h : Handle) (pings : List Bytes) : Engine τ κ σ :=
  (e.touched h).pongs h pings

theorem attended_append (e : Engine τ κ σ) (h : Handle) (pings others : List Bytes) :
    e.attended h (pings ++ others) = (e.attended h pings).pongs h others :=
  pongs_append _ h pings others

theorem attended_moves [DecidableEq κ] {env : Surroundings τ} (e : Engine τ κ σ) (h : Handle) (pings : List Bytes) :
    Moves env e (e.attended h pings) :=
  (adjusted_moves e h (Session.touch_adjusted e.now)).trans (pongs_moves _ h pings)

theorem attended_session? (hs : e.session? h = some t) (pings : List Bytes) :
    ∃ queue, (e.attended h pings).session? h =
      some { t with outbound := queue, lastActivity := if t.isEnding then t.lastActivity else e.now } := by
  have htouched : (e.touched h).session? h = some (t.touch e.now) :=
    (session?_touched e h).trans (congrArg (Option.map _) hs)
  obtain ⟨queue, hs'⟩ := (pongs_spec htouched pings).session _ htouched
  rw [Session.touch_eq] at hs'
  exact ⟨queue, hs'⟩

omit [Transport τ κ] in
theorem touched_coherent (c : e.registry.Coherent) (h : Handle) : (e.touched h).registry.Coherent := by
  refine c.update (fun _ => Session.touch_handle _ _) (fun _ => Session.touch_conn _ _) (fun u _ s => ?_) fun u _ s => ?_
  · rw [Session.touch_eq]
    exact ⟨s.closed, s.inbound, s.closeSent, s.closing, s.fragment⟩
  · rw [Session.touch_eq]
    exact s

theorem pongs_coherent (c : e.registry.Coherent) (h : Handle) (payloads : List Bytes) :
    (e.pongs h payloads).registry.Coherent := by
  induction payloads generalizing e with
  | nil => exact c
  | cons payload payloads ih => exact ih (flush_coherent (enqueue_coherent c h _) h)

theorem attended_coherent (c : e.registry.Coherent) (h : Handle) (pings : List Bytes) :
    (e.attended h pings).registry.Coherent :=
  pongs_coherent (touched_coherent c h) h pings

omit [Transport τ κ] in
theorem hold_coherent (c : e.registry.Coherent) (hs : e.session? h = some t) (l : t.Listens) (held : Option Fragment)
    (inbound : Bytes) : (e.hold h held inbound).registry.Coherent := by
  refine c.update (fun _ => rfl) (fun _ => rfl) (fun u hu s => ?_) fun _ _ s => s
  obtain rfl := Option.some.inj (hs.symm.trans hu)
  exact ⟨s.closed, fun hc => absurd (l.closing.symm.trans hc) Bool.false_ne_true, s.closeSent, s.closing, fun _ => l.mode⟩

/-! ## Frames that come -/

section

variable [DecidableEq κ] (hs : e.session? h = some t) (l : t.Listens)
include hs l

/-- A session reads the frame that it has received, and holds what came behind it. -/
theorem next_hold {f : SentFrame} (hw : f.Within e.config.maxRequestBytes) (held : Option Fragment) (more : Bytes) :
    (e.hold h held (f.bytes ++ more)).next h = (e.hold h held more).dispatchFrame h
      { t with fragment := held, inbound := f.bytes ++ more } f.header f.payload := by
  have hopen : t.closing = false := l.closing
  have hne : (f.bytes ++ more).isEmpty = false := by
    have hpos := f.length_bytes_pos
    rw [List.isEmpty_eq_false_iff]
    intro hnil
    rw [List.append_eq_nil_iff] at hnil
    simp [hnil.1] at hpos
  rw [next, session?_hold, hs]
  simp only [Option.map_some, hopen, hne, l.mode, Bool.or_self, Bool.false_eq_true, if_false]
  rw [nextFrame, hold_config, SentFrame.decode_bytes hw more]
  dsimp only
  have hdrop : (f.bytes ++ more).drop f.header.frameLength = more := List.drop_left' f.length_bytes
  rw [dropInbound_hold, hdrop, SentFrame.payload_front]

/-- A session waits for the rest of a frame. -/
theorem next_of_part {f : SentFrame} (hw : f.Within e.config.maxRequestBytes) (held : Option Fragment) {n : Nat}
    (hn : n < f.bytes.length) :
    (e.hold h held (f.bytes.take n)).next h = (.wait, e.hold h held (f.bytes.take n)) := by
  rw [next, session?_hold, hs]
  simp only [Option.map_some, l.closing, Bool.false_or]
  split
  · rfl
  · rw [l.mode]
    dsimp only
    rw [nextFrame, hold_config, SentFrame.decode_part hw hn]

/-- A frame that leaves a message unfinished is put to what is held of it, or answered. -/
theorem next_of_adds {f : SentFrame} (hw : f.Within e.config.maxRequestBytes) {pings : List Bytes}
    (ha : Adds e.config.maxRequestBytes held f held' pings) (more : Bytes) :
    (e.hold h held (f.bytes ++ more)).next h = (.again, (e.pongs h pings).hold h held' more) := by
  rw [next_hold hs l hw, dispatchFrame, SentFrame.header, if_neg (by simp)]
  cases ha with
  | @first kind _ ho hfin =>
      cases kind <;> rw [ho, hfin] <;> exact congrArg (Delivery.again, ·) setFragment_hold
  | more ho hfin hle =>
      rw [ho, hfin]
      change continueMessage _ _ _ _ _ = _
      rw [continueMessage]
      dsimp only
      rw [hold_config, if_neg (Nat.not_lt.mpr hle)]
      exact congrArg (Delivery.again, ·) setFragment_hold
  | ping ho =>
      have haccepts : ({ t with fragment := held, inbound := f.bytes ++ more } : Session κ).acceptsOutput = true := l.output
      rw [ho]
      change (if _ then _ else _) = _
      rw [if_pos haccepts]
      exact congrArg (Delivery.again, ·) (pongs_hold [f.payload])
  | pong ho =>
      rw [ho]
      rfl

/-- A frame that completes a message has the message delivered, and nothing of it is held any more. -/
theorem next_of_completes {f : SentFrame} (hw : f.Within e.config.maxRequestBytes) {kind : MessageKind} {message : Bytes}
    (hc : Completes e.config.maxRequestBytes held f kind message) (rest : Bytes) :
    (e.hold h held (f.bytes ++ rest)).next h = (e.hold h none rest).deliver h kind message := by
  rw [next_hold hs l hw, dispatchFrame, SentFrame.header, if_neg (by simp)]
  cases hc with
  | whole ho hfin => cases kind <;> rw [ho, hfin] <;> rfl
  | last ho hfin hle =>
      rw [ho, hfin]
      change continueMessage _ _ _ _ _ = _
      rw [continueMessage]
      dsimp only
      rw [hold_config, if_neg (Nat.not_lt.mpr hle), setFragment_hold]
      rfl

end

/-- Something is done about a message that was delivered. -/
theorem deliver_ne_wait [DecidableEq κ] (e : Engine τ κ σ) (h : Handle) (kind : MessageKind)
    (message : Bytes) : (e.deliver h kind message).1 ≠ .wait := by
  cases kind with
  | binary => simp [deliver]
  | text =>
      rw [deliver]
      split <;> simp

theorem deliver_text [DecidableEq κ] (e : Engine τ κ σ) (h : Handle) (text : String) :
    e.deliver h .text (Text.utf8 text) = (.text text, e) := by
  rw [deliver, Text.ofUtf8?_eq_some.mpr rfl]

/-- Bytes that are those of no text are refused. -/
theorem deliver_of_not_text [DecidableEq κ] (e : Engine τ κ σ) (h : Handle) {message : Bytes}
    (hm : ∀ text, Text.utf8 text ≠ message) :
    e.deliver h .text message = (.again, e.failWebSocket h .invalidPayload "invalid UTF-8") := by
  have hread : Text.ofUtf8? message = none := by
    rw [Option.eq_none_iff_forall_ne_some]
    exact fun text ht => hm text (Text.ofUtf8?_eq_some.mp ht)
  rw [deliver, hread]

/-! ## Messages that are refused -/

/-- What is left of an open session that is closed at once because of what its peer sent. -/
structure Refused (e : Engine τ κ σ) (h : Handle) (frame : Bytes) (e' : Engine τ κ σ) : Prop where
  session : ∃ u, e'.session? h = some u ∧ u.closing = true ∧ u.closeSent = true ∧ u.fragment = none
  others : ∀ g, g ≠ h → e'.session? g = e.session? g
  queued : queuedOn h e'.journal = queuedOn h e.journal ++ [frame]
  handed : handedOver e'.journal = handedOver e.journal

theorem failWebSocket_spec [DecidableEq κ] (hs : e.session? h = some t) (l : t.Listens) (hf : t.fragment = none)
    (code : WebSocket.CloseCode) (reason : String) :
    Refused e h (WebSocket.encode .close (WebSocket.closePayload code reason) none) (e.failWebSocket h code reason) := by
  obtain ⟨queue, hq, hsend⟩ := sendClose_of_open hs l.closeSent code reason
  generalize WebSocket.encode .close (WebSocket.closePayload code reason) none = frame at hq hsend ⊢
  obtain ⟨queue₁, offers₁, hlen₁, hoffers₁, hs₁, hothers₁, hj₁⟩ := flush_spec (queueClose_session? hs frame queue)
  generalize (e.queueClose h frame queue).flush h = m at hs₁ hothers₁ hj₁ hsend
  have hbegun : (m.update h fun u => { u with
      closing := true, inbound := [], lastActivity := if u.closeSent then u.lastActivity else m.now }).session? h =
        some { t with
          outbound := queue₁, closeSent := true, lastActivity := e.now, closing := true, inbound := [] } := by
    refine (update_session? ?_).trans (congrArg (Option.map _) hs₁)
    exact fun _ => rfl
  obtain ⟨queue₂, offers₂, hlen₂, hoffers₂, hs₂, hothers₂, hj₂⟩ := flush_spec hbegun
  have hne : queue₂.buffers ≠ [] := by
    rw [← List.length_pos_iff, hlen₂]
    dsimp only
    rw [hlen₁, OutboundQueue.enqueue_eq hq]
    simp
  have hend : e.failWebSocket h code reason = (m.update h fun u => { u with
      closing := true, inbound := [],
      lastActivity := if u.closeSent then u.lastActivity else m.now }).flush h := by
    rw [failWebSocket, hsend, beginClose, hs₁]
    dsimp only
    rw [l.closing, if_neg (by decide)]
    exact finishClose_of_settled hs₂ fun _ => hne
  rw [hend]
  refine ⟨⟨_, hs₂, rfl, rfl, hf⟩, fun g hg => (hothers₂ g hg).trans ?_, ?_, ?_⟩
  · refine (update_session?_of_ne ?_ hg).trans ((hothers₁ g hg).trans (update_session?_of_ne ?_ hg))
    · exact fun _ => rfl
    · exact fun _ => rfl
  · rw [hj₂, queuedOn_append_silent fun entry hm => (hoffers₂ entry hm).silent]
    change queuedOn h m.journal = _
    rw [hj₁, queuedOn_append_silent fun entry hm => (hoffers₁ entry hm).silent]
    exact queuedOn_queued h frame e.journal
  · rw [hj₂, handedOver_append_of_not fun entry hm => (hoffers₂ entry hm).not_handsOver]
    change handedOver m.journal = _
    rw [hj₁, handedOver_append_of_not fun entry hm => (hoffers₁ entry hm).not_handsOver]
    exact handedOver_cons_of_not rfl e.journal

end Engine
end WebServer
