import WebServer.Proofs.Inbound.Assembly
import WebServer.Proofs.Server.Bounds
import WebServer.Proofs.Text.Split
import WebServer.Proofs.Text.Utf8

/-! # Messages come in any pieces

A session takes a message that its peer has cut into frames as it takes the message in one frame: it is handed over
once, complete, after its last frame. The pings between the frames are answered in their order. It makes no difference
how the bytes of the frames come. -/

namespace WebServer

open WebSocket (SentFrame)

variable {τ κ σ : Type} [DecidableEq κ] [Transport τ κ]

namespace Server

/-- Deliver a complete message. -/
def deliver (run : Runner τ κ σ) (h : Handle) (kind : MessageKind) (message : Bytes) (s : Server τ κ σ) :
    Server τ κ σ :=
  handOver run h (s.engine.deliver h kind message).1 { s with engine := (s.engine.deliver h kind message).2 }

/-! ## Frames in a row -/

section

variable {run : Runner τ κ σ} {s : Server τ κ σ} {e : Engine τ κ σ} {h : Handle} {t : Session κ} {limit : Nat}
  {held after : Option Fragment} {fs : List SentFrame} {pings : List Bytes}

/-- Frames that leave a message unfinished are put to what is held of it, one after the other. -/
theorem dispatchLoop_of_unfinished (hu : Unfinished limit held fs after pings) (hs : e.session? h = some t)
    (l : t.Listens) (hl : e.config.maxRequestBytes = limit) (more : Bytes) (fuel : Nat) :
    dispatchLoop run h (fs.length + fuel) { s with engine := e.hold h held (fs.flatMap SentFrame.bytes ++ more) } =
      dispatchLoop run h fuel { s with engine := (e.pongs h pings).hold h after more } := by
  induction hu generalizing e t with
  | nil =>
      rw [List.length_nil, Nat.zero_add]
      rfl
  | @cons before between after f fs ping pings hw ha _ ih =>
      subst hl
      obtain ⟨queue, hs'⟩ := (Engine.pongs_spec hs ping).session t hs
      have hmoves : Engine.Moves {} e (e.pongs h ping) := Engine.pongs_moves e h ping
      have hnext := Engine.next_of_adds hs l hw ha (fs.flatMap SentFrame.bytes ++ more)
      rw [List.flatMap_cons, List.append_assoc, List.length_cons, Nat.add_right_comm, Engine.pongs_append]
      refine (dispatchLoop_of_next ?_ hnext (fs.length + fuel)).trans ?_
      · simp
      · exact ih hs' ⟨l.mode, l.output⟩ (congrArg Config.maxRequestBytes hmoves.config)

/-- The last frame of a message has it delivered. -/
theorem dispatchLoop_of_completes {last : SentFrame} {kind : MessageKind} {message : Bytes}
    (hu : Unfinished limit held fs after pings) (hw : last.Within limit) (hc : Completes limit after last kind message)
    (hs : e.session? h = some t) (l : t.Listens) (hl : e.config.maxRequestBytes = limit) (rest : Bytes) (fuel : Nat) :
    dispatchLoop run h (fs.length + (fuel + 1))
        { s with engine := e.hold h held (fs.flatMap SentFrame.bytes ++ (last.bytes ++ rest)) } =
      dispatchLoop run h fuel (deliver run h kind message { s with engine := (e.pongs h pings).hold h none rest }) := by
  obtain ⟨queue, hs'⟩ := (Engine.pongs_spec hs pings).session t hs
  have hmoves : Engine.Moves {} e (e.pongs h pings) := Engine.pongs_moves e h pings
  have hl' : (e.pongs h pings).config.maxRequestBytes = limit :=
    (congrArg Config.maxRequestBytes hmoves.config).trans hl
  rw [dispatchLoop_of_unfinished hu hs l hl]
  subst hl'
  have hnext := Engine.next_of_completes hs' ⟨l.mode, l.output⟩ hw hc rest
  exact dispatchLoop_of_next (Engine.deliver_ne_wait _ h kind message) hnext fuel

/-- A part of a frame is held until the rest of the frame comes. -/
theorem dispatchLoop_of_part {part : Bytes} {f : SentFrame} (hw : f.Within limit) (hpart : part <+: f.bytes)
    (hlt : part.length < f.bytes.length) (hs : e.session? h = some t) (l : t.Listens)
    (hl : e.config.maxRequestBytes = limit) (fuel : Nat) :
    dispatchLoop run h (fuel + 1) { s with engine := e.hold h held part } =
      { s with engine := e.hold h held part } := by
  subst hl
  rw [List.prefix_iff_eq_take.mp hpart]
  exact dispatchLoop_of_wait (Engine.next_of_part hs l hw held hlt) fuel

end

/-! ## Pieces of a stream -/

/-- Bytes of a connection that come one piece after the other. -/
def receiveAll (conn : κ) (chunks : List Bytes) (s : Server τ κ σ) : Server τ κ σ :=
  chunks.foldl (fun s chunk => (s.receive conn chunk).2) s

/-- The server `s'` came from `s` by taking the beginning of a message: the pings in it are answered, and the rest is
held. -/
structure Midway (s : Server τ κ σ) (h : Handle) (conn : κ) (pings : List Bytes) (held : Option Fragment) (part : Bytes)
    (s' : Server τ κ σ) : Prop where
  handlers : s'.handlers = s.handlers
  wellFormed : s'.engine.registry.WellFormed
  session : ∃ u, s'.engine.registry.ofConn? conn = some u ∧ u.handle = h ∧ u.closing = false
  gathers : ∀ data, s'.engine.gather h data = (s.engine.attended h pings).hold h held (part ++ data)

section

variable {s s' : Server τ κ σ} {conn : κ} {t : Session κ} {limit : Nat} {held after : Option Fragment}
  {fs : List SentFrame} {pings others : List Bytes} {part data : Bytes} (w : s.engine.registry.WellFormed)
  (hc : s.engine.registry.ofConn? conn = some t) (l : t.Listens)
include w hc l

theorem midway_start (hf : t.fragment = none) : Midway s t.handle conn [] none t.inbound s :=
  ⟨rfl, w, ⟨t, hc, rfl, l.closing⟩, fun data => hf ▸ Engine.gather_eq_hold w (w.get?_of_ofConn? hc) data⟩

variable (m : Midway s t.handle conn pings held part s')
include m

omit l in
theorem Midway.receive_eq (data : Bytes) :
    (s'.receive conn data).2 = dispatchLoop runInside t.handle ((part ++ data).length + 1)
      { s with engine := (s.engine.attended t.handle pings).hold t.handle held (part ++ data) } := by
  obtain ⟨u, hu, hh, ho⟩ := m.session
  obtain ⟨queue, hs'⟩ := Engine.attended_session? (w.get?_of_ofConn? hc) pings
  have hpending : (s'.engine.gather t.handle data).pending t.handle = (part ++ data).length := by
    rw [m.gathers]
    exact Engine.pending_of_session ((Engine.session?_hold _ _ _ _).trans (congrArg (Option.map _) hs'))
  rw [Server.receive_eq, receiveBy_of_open m.wellFormed hu ho, dispatch, hh, hpending, m.gathers, m.handlers]

/-- A piece that does not complete the message is taken in. -/
theorem Midway.receive_part (hl : s.engine.config.maxRequestBytes = limit) (hu : Unfinished limit held fs after others)
    {left : Bytes} {f : SentFrame} (hw : f.Within limit) (hleft : left <+: f.bytes)
    (hlt : left.length < f.bytes.length) (hdata : part ++ data = fs.flatMap SentFrame.bytes ++ left) :
    Midway s t.handle conn (pings ++ others) after left (s'.receive conn data).2 := by
  have hs := w.get?_of_ofConn? hc
  have hmoves : Engine.Moves (.sealed τ False) s.engine (s.engine.attended t.handle (pings ++ others)) :=
    Engine.attended_moves _ _ _
  have hmoves' : Engine.Moves {} s.engine (s.engine.attended t.handle pings) := Engine.attended_moves _ _ _
  obtain ⟨queue, hs'⟩ := Engine.attended_session? hs pings
  obtain ⟨queue', hs''⟩ := Engine.attended_session? hs (pings ++ others)
  have hfuel : ∃ fuel, (part ++ data).length + 1 = fs.length + (fuel + 1) := by
    have hle := Text.length_le_flatMap SentFrame.length_bytes_pos fs
    have hlength : (part ++ data).length = (fs.flatMap SentFrame.bytes).length + left.length := by
      rw [hdata, List.length_append]
    exact ⟨(part ++ data).length - fs.length, by omega⟩
  obtain ⟨fuel, hfuel⟩ := hfuel
  have hreceive : (s'.receive conn data).2 =
      { s with engine := (s.engine.attended t.handle (pings ++ others)).hold t.handle after left } := by
    rw [m.receive_eq w hc, hfuel, hdata, dispatchLoop_of_unfinished hu hs' ⟨l.mode, l.output⟩
      ((congrArg Config.maxRequestBytes hmoves'.config).trans hl), ← Engine.attended_append]
    exact dispatchLoop_of_part hw hleft hlt hs'' ⟨l.mode, l.output⟩
      ((congrArg Config.maxRequestBytes hmoves.config).trans hl) fuel
  have hnow : (s.engine.attended t.handle (pings ++ others)).now = s.engine.now := by
    rcases hmoves.now with hfalse | hnow
    · exact hfalse.elim
    · exact hnow
  have fresh := Session.touch_fresh s.engine.now t
  rw [Session.touch_eq, ← hnow] at fresh
  have w' := hmoves.wellFormed w
  have wheld : ((s.engine.attended t.handle (pings ++ others)).hold t.handle after left).registry.WellFormed :=
    w'.update (fun _ => rfl) fun _ => rfl
  have hheld := (Engine.session?_hold (s.engine.attended t.handle (pings ++ others)) t.handle after left).trans
    (congrArg (Option.map _) hs'')
  have hconn := (w.ofConn?_eq_some.mp hc).2
  rw [hreceive]
  refine ⟨rfl, wheld, ⟨_, wheld.ofConn?_eq_some.mpr ⟨Registry.mem_of_get? hheld, hconn⟩, rfl, l.closing⟩, fun data => ?_⟩
  exact Engine.gather_hold w' hs'' (hnow ▸ fresh) after left data

/-- A piece that completes the message has it delivered; what came behind it is left. -/
theorem Midway.receive_last (hl : s.engine.config.maxRequestBytes = limit) (hu : Unfinished limit held fs after others)
    {last : SentFrame} (hw : last.Within limit) {kind : MessageKind} {message : Bytes}
    (hm : Completes limit after last kind message) {rest : Bytes}
    (hdata : part ++ data = fs.flatMap SentFrame.bytes ++ (last.bytes ++ rest)) :
    ∃ fuel, rest.length < fuel ∧ (s'.receive conn data).2 = dispatchLoop runInside t.handle fuel
      (deliver runInside t.handle kind message
        { s with engine := (s.engine.attended t.handle (pings ++ others)).hold t.handle none rest }) := by
  have hmoves : Engine.Moves {} s.engine (s.engine.attended t.handle pings) := Engine.attended_moves _ _ _
  obtain ⟨queue, hs'⟩ := Engine.attended_session? (w.get?_of_ofConn? hc) pings
  have hle := Text.length_le_flatMap SentFrame.length_bytes_pos fs
  have hpos := last.length_bytes_pos
  have hlength : (part ++ data).length = (fs.flatMap SentFrame.bytes).length + (last.bytes.length + rest.length) := by
    rw [hdata, List.length_append, List.length_append]
  have hfuel : (part ++ data).length + 1 = fs.length + ((part ++ data).length - fs.length + 1) := by omega
  refine ⟨(part ++ data).length - fs.length, by omega, ?_⟩
  rw [m.receive_eq w hc, hfuel, hdata, Engine.attended_append]
  exact dispatchLoop_of_completes hu hw hm hs' ⟨l.mode, l.output⟩
    ((congrArg Config.maxRequestBytes hmoves.config).trans hl) rest _

/-- However the beginning of a message comes, what is held and what comes then make up the rest of it. -/
theorem Midway.receiveAll (hl : s.engine.config.maxRequestBytes = limit) (hu : Unfinished limit held fs after others)
    {last : SentFrame} (hw : last.Within limit) {chunks : List Bytes} {more rest : Bytes}
    (hdata : part ++ (chunks.flatten ++ more) = (fs ++ [last]).flatMap SentFrame.bytes ++ rest)
    (hmore : rest.length < more.length) :
    ∃ held' part' fs' first second, Unfinished limit held' fs' after second ∧ others = first ++ second ∧
      part' ++ more = (fs' ++ [last]).flatMap SentFrame.bytes ++ rest ∧
      Midway s t.handle conn (pings ++ first) held' part' (receiveAll conn chunks s') := by
  induction chunks generalizing s' pings held part fs others with
  | nil => exact ⟨held, part, fs, [], others, hu, rfl, hdata, by rwa [List.append_nil]⟩
  | cons chunk chunks ih =>
      rw [List.flatten_cons, List.append_assoc, ← List.append_assoc] at hdata
      -- The message is not complete yet, because what is still to come is more than what comes behind it.
      obtain ⟨tail, hne, hstream, htail⟩ : ∃ tail, tail ≠ [] ∧
          (fs ++ [last]).flatMap SentFrame.bytes = part ++ chunk ++ tail ∧ chunks.flatten ++ more = tail ++ rest := by
        rcases List.append_eq_append_iff.mp hdata with ⟨tail, hstream, htail⟩ | ⟨tail, -, htail⟩
        · refine ⟨tail, ?_, hstream, htail⟩
          rintro rfl
          have hlength := congrArg List.length htail
          rw [List.length_append, List.nil_append] at hlength
          omega
        · have hlength := congrArg List.length htail
          rw [List.length_append, List.length_append] at hlength
          omega
      obtain ⟨done, fs', between, left, first, second, hfirst, hsecond, rfl, hchunk, hleft, f, hf, hbegins, hlt⟩ :=
        hu.cut hw hstream hne
      obtain ⟨held', part', fs'', pings', second, hu', rfl, hdata', m'⟩ :=
        ih (m.receive_part w hc l hl hfirst hf hbegins hlt hchunk) hsecond (by rw [htail, ← List.append_assoc, hleft])
      exact ⟨held', part', fs'', first ++ pings', second, hu', (List.append_assoc ..).symm, hdata',
        by rwa [← List.append_assoc]⟩

end

/-! ## What a message leads to -/

/-- The server when a message has come over a session and is about to be delivered. -/
def arrived (s : Server τ κ σ) (h : Handle) (pings : List Bytes) (rest : Bytes) : Server τ κ σ :=
  { s with engine := (s.engine.attended h pings).hold h none rest }

/-- What happens before a message is delivered: no handler runs, and the pings are answered in their order. Nothing is
held of the message any more, and what came behind it is left. -/
structure Arrived (s : Server τ κ σ) (t : Session κ) (pings : List Bytes) (rest : Bytes) (s' : Server τ κ σ) : Prop where
  handlers : s'.handlers = s.handlers
  session : ∃ queue, s'.engine.session? t.handle =
    some { t with outbound := queue, lastActivity := s.engine.now, fragment := none, inbound := rest }
  others : ∀ g, g ≠ t.handle → s'.engine.session? g = s.engine.session? g
  queued : queuedOn t.handle s'.engine.journal =
    queuedOn t.handle s.engine.journal ++ pings.map (WebSocket.encode .pong · none)
  handed : handedOver s'.engine.journal = handedOver s.engine.journal

omit [DecidableEq κ] in
theorem arrived_coherent {s : Server τ κ σ} (c : s.engine.registry.Coherent) {t : Session κ}
    (hs : s.engine.session? t.handle = some t) (l : t.Listens) (pings : List Bytes) (rest : Bytes) :
    (s.arrived t.handle pings rest).engine.registry.Coherent := by
  obtain ⟨queue, hs'⟩ := Engine.attended_session? hs pings
  exact Engine.hold_coherent (Engine.attended_coherent c t.handle pings) hs' ⟨l.mode, l.output⟩ none rest

/-- The entry of a message that is given to its handler, if there is one. -/
inductive Gives (handlers : Handlers τ κ σ) (h : Handle) : MessageKind → Bytes → Entry κ → Prop where
  | text {text : String} (hh : handlers.message.isSome) : Gives handlers h .text (Text.utf8 text) (.text h text)
  | binary {message : Bytes} (hh : handlers.binary.isSome) : Gives handlers h .binary message (.binary h message)

/-- The server `s'` came from `s` by a message on the session `t`, behind pings with the given payloads, and `rest` came
behind it. -/
structure Takes (s : Server τ κ σ) (t : Session κ) (kind : MessageKind) (message : Bytes) (pings : List Bytes)
    (rest : Bytes) (s' : Server τ κ σ) : Prop where
  arrived : Arrived s t pings rest (s.arrived t.handle pings rest)
  /-- The message is delivered once, and then the session goes on with what came behind it. -/
  delivered : ∃ fuel, rest.length < fuel ∧
    s' = dispatchLoop runInside t.handle fuel (deliver runInside t.handle kind message (s.arrived t.handle pings rest))
  binary : kind = .binary → deliver runInside t.handle kind message (s.arrived t.handle pings rest) =
    handleBinary runInside t.handle message (s.arrived t.handle pings rest)
  text : ∀ text, kind = .text → Text.utf8 text = message →
    deliver runInside t.handle kind message (s.arrived t.handle pings rest) =
      handleMessage runInside t.handle text (s.arrived t.handle pings rest)
  /-- No handler is invoked for bytes that are those of no text. -/
  invalid : kind = .text → (∀ text, Text.utf8 text ≠ message) → s'.handlers = s.handlers ∧
    ∃ payload, WebSocket.closeCode? payload = some 1007 ∧
      Engine.Refused (s.arrived t.handle pings rest).engine t.handle (WebSocket.encode .close payload none) s'.engine
  /-- A handler that only makes calls leaves it at that. -/
  once : s.engine.registry.Coherent → s.handlers.Within (.applicationCalls τ κ σ) → rest = [] →
    ∀ entry, Gives s.handlers t.handle kind message entry →
      handedOver s'.engine.journal = handedOver s.engine.journal ++ [entry] ∧
        s'.engine.registry.At t.handle fun u => u.fragment = none

omit [DecidableEq κ] in
theorem arrived_spec {s : Server τ κ σ} {t : Session κ} (hs : s.engine.session? t.handle = some t) (l : t.Listens)
    (pings : List Bytes) (rest : Bytes) : Arrived s t pings rest (s.arrived t.handle pings rest) := by
  have htouched : (s.engine.touched t.handle).session? t.handle = some (t.touch s.engine.now) :=
    (Engine.session?_touched _ _).trans (congrArg (Option.map _) hs)
  obtain ⟨hsession, hothers, hqueued, hhanded⟩ := Engine.pongs_spec htouched pings
  obtain ⟨queue, hs'⟩ := hsession _ htouched
  refine ⟨rfl, ⟨queue, ?_⟩, fun g hg => ?_, hqueued, hhanded⟩
  · rw [Session.touch_eq, l.isEnding] at hs'
    exact (Engine.session?_hold _ _ _ _).trans (congrArg (Option.map _) hs')
  · refine (Engine.session?_hold_of_ne _ hg none rest).trans ((hothers g hg).trans ?_)
    exact Engine.update_session?_of_ne (fun _ => Session.touch_handle _ _) hg

/-! ## Handlers that only make calls -/

section

variable {s : Server τ κ σ} {h g : Handle}

/-- The calls of a handler neither hand messages over nor begin to hold any. -/
theorem runInside_quiet {program : Program τ κ σ} (hp : program.Within (.applicationCalls τ κ σ))
    (hs : s.handlers.Within (.applicationCalls τ κ σ)) (c : s.engine.registry.Coherent)
    (a : s.engine.registry.At g fun t => t.fragment = none) :
    handedOver (runInside program s).2.engine.journal = handedOver s.engine.journal ∧
      (runInside program s).2.engine.registry.At g fun t => t.fragment = none := by
  have h := runBy_preserves
    (I := fun e => e.registry.Coherent ∧ handedOver e.journal = handedOver s.engine.journal ∧
      e.registry.At g fun t => t.fragment = none)
    (receiveWithin (receiveDepth - 1))
    (fun e call _ ⟨ce, hj, ae⟩ => by
      have hacts := call.acts e
      have hquiet : ¬(call.license e).hands ∧ ¬(call.license e).takes := by cases call <;> exact ⟨id, id⟩
      exact ⟨Engine.perform_coherent ce call, (hacts.handedOver ce.regular hquiet.1).trans hj,
        hacts.fragment_none ce.regular hquiet.2 ae⟩)
    (fun hr => False.elim hr) hp hs ⟨c, rfl, a⟩
  exact h.1.2

/-- A message that is given to its handler leaves one entry. -/
theorem deliver_gives (hs : s.handlers.Within (.applicationCalls τ κ σ)) (c : s.engine.registry.Coherent)
    (a : s.engine.registry.At g fun t => t.fragment = none) {kind : MessageKind} {message : Bytes} {entry : Entry κ}
    (hg : Gives s.handlers h kind message entry) :
    handedOver (deliver runInside h kind message s).engine.journal = handedOver s.engine.journal ++ [entry] ∧
      (deliver runInside h kind message s).engine.registry.At g fun t => t.fragment = none := by
  cases hg with
  | @text text hh =>
      obtain ⟨handler, hslot⟩ := Option.isSome_iff_exists.mp hh
      have hquiet := runInside_quiet (g := g)
        (s := { s with engine := s.engine.record (.text h text), handlers := { s.handlers with message := none } })
        (hs.message handler hslot h text) (hs.withMessage (by simp)) c a
      rw [deliver, Engine.deliver_text]
      dsimp only
      rw [handOver, handleMessage]
      dsimp only
      rw [hslot]
      exact ⟨hquiet.1.trans (handedOver_cons rfl _), hquiet.2⟩
  | @binary message hh =>
      obtain ⟨handler, hslot⟩ := Option.isSome_iff_exists.mp hh
      have hquiet := runInside_quiet (g := g)
        (s := { s with engine := s.engine.record (.binary h message), handlers := { s.handlers with binary := none } })
        (hs.binary handler hslot h message) (hs.withBinary (by simp)) c a
      change handedOver (handleBinary runInside h message s).engine.journal = _ ∧
        (handleBinary runInside h message s).engine.registry.At g _
      rw [handleBinary, hslot]
      exact ⟨hquiet.1.trans (handedOver_cons rfl _), hquiet.2⟩

theorem deliver_leads (hs : s.handlers.Within (.applicationCalls τ κ σ)) (h : Handle) (kind : MessageKind)
    (message : Bytes) : Leads (.still τ) (.applicationCalls τ κ σ) s (deliver runInside h kind message s) := by
  have hmoves : Engine.Moves (.still τ) s.engine (s.engine.deliver h kind message).2 := Engine.deliver_moves _ _ _ _
  have hover := handOver_leads (runBy_leads_still (receiveWithin (receiveDepth - 1))) h (s.engine.deliver h kind message).1
    (s := { s with engine := (s.engine.deliver h kind message).2 }) hs
  exact ⟨hmoves.trans hover.moves, hover.handlers⟩

end

/-! ## Messages in pieces -/

section

variable {s : Server τ κ σ} {conn : κ} {t : Session κ} {kind : MessageKind} {message : Bytes} {pings : List Bytes}
  {rest : Bytes}

/-- Frames that carry a message bring it to the session, however their bytes come. -/
theorem takes_of_carries (w : s.engine.registry.WellFormed) (hc : s.engine.registry.ofConn? conn = some t)
    (l : t.Listens) (hf : t.fragment = none) {frames : List SentFrame}
    (h : Carries s.engine.config.maxRequestBytes kind message pings frames) {chunks : List Bytes} {chunk : Bytes}
    (hdata : t.inbound ++ (chunks.flatten ++ chunk) = frames.flatMap SentFrame.bytes ++ rest)
    (hlast : rest.length < chunk.length) :
    Takes s t kind message pings rest ((receiveAll conn chunks s).receive conn chunk).2 := by
  have hs := w.get?_of_ofConn? hc
  have ha := arrived_spec hs l pings rest
  have hdelivered : ∃ fuel, rest.length < fuel ∧ ((receiveAll conn chunks s).receive conn chunk).2 =
      dispatchLoop runInside t.handle fuel (deliver runInside t.handle kind message (s.arrived t.handle pings rest)) := by
    cases h with
    | intro hu hw hm =>
        obtain ⟨held, part, fs, first, second, hu', rfl, hdata', m⟩ :=
          (midway_start w hc l hf).receiveAll w hc l rfl hu hw hdata hlast
        rw [List.flatMap_append, List.flatMap_singleton, List.append_assoc] at hdata'
        exact m.receive_last w hc l rfl hu' hw hm hdata'
  obtain ⟨queue, hs'⟩ := ha.session
  obtain ⟨fuel, hfuel, hreceive⟩ := hdelivered
  obtain ⟨fuel, rfl⟩ := Nat.exists_eq_add_one_of_ne_zero (Nat.ne_zero_of_lt hfuel)
  refine ⟨ha, ⟨fuel + 1, hfuel, hreceive⟩, ?_, ?_, ?_, ?_⟩
  · rintro rfl
    rfl
  · rintro text rfl rfl
    rw [deliver, Engine.deliver_text]
    rfl
  · rintro rfl hm
    have hrefused := Engine.failWebSocket_spec hs' ⟨l.mode, l.output⟩ rfl .invalidPayload "invalid UTF-8"
    obtain ⟨u, hu, hclosing, -⟩ := hrefused.session
    have hwait := Engine.next_of_closing (.of_get? hu hclosing)
    rw [hreceive, deliver, Engine.deliver_of_not_text _ _ hm]
    dsimp only [handOver]
    rw [dispatchLoop_of_wait hwait]
    exact ⟨rfl, _, rfl, hrefused⟩
  · rintro c hcalls rfl entry hg
    have carrived := arrived_coherent c hs l pings []
    obtain ⟨hgiven, hfragment⟩ := deliver_gives (g := t.handle) (s := s.arrived t.handle pings []) hcalls carrived
      (.of_get? hs' rfl) hg
    have hl := deliver_leads (s := s.arrived t.handle pings []) hcalls t.handle kind message
    have hpending := Engine.pending_of_moves hl.moves id id carrived.wellFormed t.handle
    rw [Engine.pending_of_session hs'] at hpending
    rw [hreceive, dispatchLoop_of_wait (Engine.next_of_pending (Nat.le_zero.mp hpending))]
    exact ⟨hgiven.trans (congrArg (· ++ [entry]) ha.handed), hfragment⟩

/-- Where handlers only make calls, a message leads to one server. -/
theorem Takes.eq {s' s'' : Server τ κ σ} (h : Takes s t kind message pings rest s')
    (h' : Takes s t kind message pings rest s'') (hs : s.engine.session? t.handle = some t) (l : t.Listens)
    (c : s.engine.registry.Coherent) (hcalls : s.handlers.Within (.applicationCalls τ κ σ)) : s' = s'' := by
  obtain ⟨queue, hs'⟩ := h.arrived.session
  have carrived := arrived_coherent c hs l pings rest
  have hl := deliver_leads (s := s.arrived t.handle pings rest) hcalls t.handle kind message
  have hpending := Engine.pending_of_moves hl.moves id id carrived.wellFormed t.handle
  rw [Engine.pending_of_session hs'] at hpending
  have rounds (fuel : Nat) (hf : rest.length < fuel) := rounds_dispatchLoop (h := t.handle)
    (runBy_leads_still (receiveWithin (receiveDepth - 1))) hl.handlers (hl.moves.wellFormed carrived.wellFormed)
    (Nat.lt_of_le_of_lt hpending hf)
  obtain ⟨fuel, hfuel, rfl⟩ := h.delivered
  obtain ⟨fuel', hfuel', rfl⟩ := h'.delivered
  exact (rounds fuel hfuel).eq (rounds fuel' hfuel')

/-- Where handlers only make calls, frames that carry the same message behind the same pings lead to the same server. -/
theorem receive_eq_of_carries (c : s.engine.registry.Coherent) (hcalls : s.handlers.Within (.applicationCalls τ κ σ))
    (hc : s.engine.registry.ofConn? conn = some t) (l : t.Listens) (hf : t.fragment = none)
    {frames frames' : List SentFrame} (h : Carries s.engine.config.maxRequestBytes kind message pings frames)
    (h' : Carries s.engine.config.maxRequestBytes kind message pings frames') {data data' : Bytes}
    (hdata : t.inbound ++ data = frames.flatMap SentFrame.bytes) (hne : data ≠ [])
    (hdata' : t.inbound ++ data' = frames'.flatMap SentFrame.bytes) (hne' : data' ≠ []) :
    (s.receive conn data).2 = (s.receive conn data').2 := by
  have w := c.wellFormed
  rw [← List.append_nil (List.flatMap _ _)] at hdata hdata'
  have htakes : Takes s t kind message pings [] ((receiveAll conn [] s).receive conn data).2 :=
    takes_of_carries w hc l hf h hdata (List.length_pos_iff.mpr hne)
  have htakes' : Takes s t kind message pings [] ((receiveAll conn [] s).receive conn data').2 :=
    takes_of_carries w hc l hf h' hdata' (List.length_pos_iff.mpr hne')
  exact htakes.eq htakes' (w.get?_of_ofConn? hc) l c hcalls

/-- A message in pieces is taken as it is in one frame, however the bytes come and whatever follows. -/
theorem takes_of_pieces (w : s.engine.registry.WellFormed) (hc : s.engine.registry.ofConn? conn = some t)
    (l : t.Listens) (hf : t.fragment = none) {p : Pieces} (hp : p.Valid s.engine.config.maxRequestBytes) {f : SentFrame}
    (hw : f.Within s.engine.config.maxRequestBytes) (ho : f.opcode = p.kind.opcode) (hfin : f.fin = true)
    (hm : f.payload = p.message) (chunks : List Bytes) (chunk rest : Bytes) (hlast : rest.length < chunk.length) :
    (t.inbound ++ (chunks.flatten ++ chunk) = p.frames.flatMap SentFrame.bytes ++ rest →
        Takes s t p.kind p.message p.pings rest ((receiveAll conn chunks s).receive conn chunk).2) ∧
      (t.inbound ++ (chunks.flatten ++ chunk) = f.bytes ++ rest →
        Takes s t p.kind p.message [] rest ((receiveAll conn chunks s).receive conn chunk).2) := by
  refine ⟨fun hdata => takes_of_carries w hc l hf hp.carries hdata hlast, fun hdata => ?_⟩
  have hone := Completes.carries hw (.whole ho hfin)
  rw [hm] at hone
  exact takes_of_carries w hc l hf hone (by rwa [List.flatMap_singleton]) hlast

end

/-- A text is cut inside its last character, a ping comes between its pieces, and the bytes come cut elsewhere. -/
theorem takes_of_pieces_of_text :
    let echo : Handle → String → Program (Transport.InMemory Nat) Nat Unit := fun h text =>
      .call (.sendMessage h text) fun _ => .done {}
    let start : Server (Transport.InMemory Nat) Nat Unit :=
      [.call (.accept 7), .onMessage echo].foldl apply (new { maxRequestBytes := 200 } {} ())
    let s := { start with engine := start.engine.update .first fun t => { t with mode := .webSocket } }
    let p : Pieces := ⟨.text, ⟨false, .text, [72, 0xC3], some ⟨1, 2, 3, 4⟩, .short⟩, [⟨true, .ping, [5], none, .medium⟩],
      ⟨true, .continuation, [0xA9], none, .short⟩⟩
    let a := [0x01, 0x82, 1, 2, 3, 4, 73, 0xC1, 0x89]
    let b := [126, 0, 1, 5, 0x80, 1, 0xA9]
    p.Valid 200 ∧
      (∃ t, Takes s t .text (Text.utf8 "Hé") [[5]] [] ((receiveAll 7 [a] s).receive 7 b).2 ∧
        Takes s t .text (Text.utf8 "Hé") [] [] ((receiveAll 7 [] s).receive 7 [0x81, 3, 72, 0xC3, 0xA9]).2) ∧
      ((handedOver ((receiveAll 7 [a] s).receive 7 b).2.engine.journal).map fun
        | .text h text => some (h, text)
        | _ => none) = [some (.first, "Hé")] := by
  intro echo start s p a b
  have hreaches : Reaches (fun _ _ => True) (new { maxRequestBytes := 200 } {} ()) start := reaches_foldl .start (by simp)
  have w : s.engine.registry.WellFormed := hreaches.wellFormed.update (fun _ => rfl) fun _ => rfl
  have ht : s.engine.registry.ofConn? 7 = some { Session.accepted .first 7 0 with mode := .webSocket } := rfl
  have hwithin : ∀ f ∈ p.frames, f.Within 200 :=
    List.forall_mem_cons.mpr ⟨⟨by decide, by decide, by decide⟩, List.forall_mem_cons.mpr
      ⟨⟨by decide, by decide, by decide⟩, List.forall_mem_singleton.mpr ⟨by decide, by decide, by decide⟩⟩⟩
  have hp : p.Valid 200 := ⟨hwithin, by decide, by decide, by decide, by decide⟩
  have hwhole : SentFrame.Within 200 ⟨true, .text, [72, 0xC3, 0xA9], none, .short⟩ := ⟨by decide, by decide, by decide⟩
  have htakes := takes_of_pieces w ht ⟨rfl, rfl⟩ rfl hp hwhole rfl rfl rfl
  exact ⟨hp, ⟨_, (htakes [a] b [] (by decide)).1 (by decide),
    (htakes [] [0x81, 3, 72, 0xC3, 0xA9] [] (by decide)).2 (by decide)⟩, by decide +kernel⟩

end Server
end WebServer
