import WebServer.Host.Driver
import WebServer.Proofs.Host.Pairing
import WebServer.Proofs.Server.Strides

/-! # Runs of a driver

Between any two steps of a driver, the connections that its host knows are those of the sessions and have as many bytes
in flight as these, however the events of the sockets, the commands and the polls interleave. -/

namespace WebServer.Host

variable {σ : Type}

/-! ## Between two steps -/

/-- What holds of a server over the connections of a host between two steps, while events wait. -/
structure Held (window : Nat) (s : Server Connections Nat σ) (events : List Event) : Prop where
  handlers : s.handlers.Within (.withoutReports Connections Nat σ)
  sendBuffer : s.engine.transport.sendBuffer = window
  paired : Paired s.engine.transport s.engine.registry
  attended : s.engine.transport.Attended events

theorem Connections.Attended.keeps (events : List Event) :
    Transport.Keeps fun c : Connections => c.Attended events where
  write _ conn chunk a := a.write conn chunk
  close c conn a := a.left (c.close_left conn)
  listen c port a := by
    change (c.listen port).2.Attended events
    rw [listen]
    split <;> exact ⟨a.nodup, a.socket_lt, a.report_lt, a.links⟩
  stopListening _ a := ⟨a.nodup, a.socket_lt, a.report_lt, a.links⟩

theorem Connections.sendBuffer_keeps (window : Nat) : Transport.Keeps fun c : Connections => c.sendBuffer = window where
  write c conn chunk hc := by
    change (c.write conn chunk).2.sendBuffer = window
    obtain ⟨error, he⟩ | ⟨n, tasks, -, -, -, hw⟩ := c.write_cases conn chunk
    · rwa [he]
    · rw [hw]
      exact hc
  close c conn hc := (c.close_left conn).sendBuffer.trans hc
  listen c port hc := by
    change (c.listen port).2.sendBuffer = window
    rw [listen]
    split <;> exact hc
  stopListening _ hc := hc

namespace Held

variable {window : Nat} {s : Server Connections Nat σ} {events : List Event} {event : Event} {conn : Nat}

/-- What an engine does by itself. -/
theorem strides (h : Held window s events) {engine : Engine Connections Nat σ}
    (hs : Engine.Strides {} s.engine engine) : Held window { s with engine } events where
  handlers := h.handlers
  sendBuffer := hs.keeps (Connections.sendBuffer_keeps window) h.sendBuffer
  paired := hs.paired h.paired
  attended := hs.keeps (Connections.Attended.keeps events) h.attended

/-- What the application does. -/
theorem run (h : Held window s events) {program : Program Connections Nat σ}
    (hp : program.Within (.withoutReports Connections Nat σ)) : Held window (s.run program).2 events := by
  have hs := h.strides (Server.run_strides hp h.handlers h.paired.wellFormed)
  exact ⟨(Server.run_leads hp h.handlers).handlers, hs.sendBuffer, hs.paired, hs.attended⟩

end Held

namespace Driver

variable {window : Nat} {d : Driver σ}

/-! ## Events -/

theorem handleEvent_accepted (d : Driver σ) :
    d.handleEvent .accepted =
      let conn := d.connections.nextId
      let accepted := (d.onConnections fun c => c.register.2).server.engine.accept conn
      if accepted.1.isSome then d.onEngine fun _ => accepted.2
      else (d.onEngine fun _ => accepted.2).onConnections fun c => (c.close conn).2 := rfl

theorem remoteClosed_unknown {e : Engine Connections Nat σ} (p : Paired e.transport e.registry) (conn : Nat) :
    (e.remoteClosed conn).transport.inFlight? conn = none := by
  rw [Engine.remoteClosed]
  split
  · rename_i hh
    exact p.inFlight?_eq_none.mpr (p.wellFormed.handleOf?_eq_none.mp hh)
  · rename_i h hh
    obtain ⟨t, ht, rfl, rfl⟩ := p.wellFormed.handleOf?_eq_some.mp hh
    have hs : e.session? t.handle = some t := p.wellFormed.get?_eq_some.mpr ⟨ht, rfl⟩
    rw [Engine.forceClose, hs]
    dsimp only
    rw [Engine.retire_transport]
    exact ((e.transport.close_left t.conn).inFlight? t.conn).trans (if_pos rfl)

theorem failed_transport (e : Engine Connections Nat σ) (conn : Nat) : (e.failed conn).transport = e.transport := by
  rw [Engine.failed]
  split
  · rfl
  · exact Engine.retire_transport _ _

theorem accepted_held (h : Held window d.server (.accepted :: d.events)) :
    Held window (d.handleEvent .accepted).server d.events := by
  have a : d.connections.Attended d.events := h.attended.tail fun conn n _ => Event.spares_of_conn? nofun
  have hnew := a.unknown_of_le (Nat.le_refl d.connections.nextId)
  rw [handleEvent_accepted]
  dsimp only
  obtain ⟨handle, hsome, htransport, hr⟩ | hnone :=
    Engine.accept_cases (d.onConnections fun c => c.register.2).server.engine d.connections.nextId
  · rw [hsome, Option.isSome_some, if_pos rfl]
    refine ⟨h.handlers, ?_, ?_, ?_⟩
    · exact (congrArg Connections.sendBuffer htransport).trans h.sendBuffer
    · exact (congrArg (Paired · _) htransport).mpr (h.paired.create hr hnew)
    · exact (congrArg (Connections.Attended · _) htransport).mpr a.register
  · -- A connection that is refused is closed at once, so that the tables are as before.
    have l := d.connections.register.2.close_left d.connections.nextId
    rw [hnone, Option.isSome_none, if_neg Bool.false_ne_true]
    exact ⟨h.handlers, l.sendBuffer.trans h.sendBuffer, h.paired.refuse hnew, a.register.left l⟩

theorem remoteClosed_held {conn : Nat} (h : Held window d.server (.remoteClosed conn :: d.events)) :
    Held window (d.handleEvent (.remoteClosed conn)).server d.events := by
  -- The session is ended with its connection, so that nothing is left to forget.
  have hunknown := remoteClosed_unknown h.paired conn
  have hclosed := h.strides (Engine.remoteClosed_strides d.server.engine conn)
  have hserver : (d.handleEvent (.remoteClosed conn)).server =
      { d.server with engine := d.server.engine.remoteClosed conn } := by
    rw [handleEvent, onConnections, onEngine, onEngine]
    dsimp only
    rw [Connections.forget_of_unknown _ hunknown]
  rw [hserver]
  exact ⟨hclosed.handlers, hclosed.sendBuffer, hclosed.paired, hclosed.attended.tail_of_unknown rfl hunknown⟩

theorem failed_held {conn : Nat} (h : Held window d.server (.failed conn :: d.events)) :
    Held window (d.handleEvent (.failed conn)).server d.events := by
  have l := d.connections.forget_left conn
  have htransport : (d.handleEvent (.failed conn)).connections = d.connections.forget conn :=
    failed_transport _ conn
  have hunknown : (d.connections.forget conn).inFlight? conn = none := (l.inFlight? conn).trans (if_pos rfl)
  refine ⟨h.handlers, ?_, Engine.failed_paired h.paired conn, ?_⟩
  · exact (congrArg Connections.sendBuffer htransport).trans (l.sendBuffer.trans h.sendBuffer)
  · exact (congrArg (Connections.Attended · _) htransport).mpr ((h.attended.left l).tail_of_unknown rfl hunknown)

theorem handleEvent_held {event : Event} (h : Held window d.server (event :: d.events)) :
    Held window (d.handleEvent event).server (d.handleEvent event).events := by
  cases event with
  | accepted =>
      have hevents : (d.handleEvent .accepted).events = d.events := by
        rw [handleEvent_accepted]
        dsimp only
        split <;> rfl
      exact hevents ▸ accepted_held h
  | received conn data =>
      have hrun := h.run (.receive trivial fun _ => .done {} : (Program.receive conn data fun _ => .done {}).Within _)
      exact ⟨hrun.handlers, hrun.sendBuffer, hrun.paired,
        hrun.attended.tail fun k _ _ => Event.received_spares k conn data⟩
  | remoteClosed conn => exact remoteClosed_held h
  | sent conn count =>
      refine ⟨h.handlers, ?_, Engine.sent_paired h.paired conn count, ?_⟩
      · exact Engine.sent_keeps (Connections.sendBuffer_keeps window) conn count h.sendBuffer
      · exact Engine.sent_keeps (Connections.Attended.keeps d.events) conn count h.attended.acknowledge
  | failed conn => exact failed_held h

/-- Nothing happens about a connection that is known no more. -/
theorem handleEvent_of_unknown (p : Paired d.connections d.server.engine.registry) {event : Event} {conn : Nat}
    (he : event.conn? = some conn) (hn : d.connections.inFlight? conn = none) : d.handleEvent event = d := by
  have hs : d.server.engine.registry.ofConn? conn = none := p.inFlight?_eq_none.mp hn
  have hh := p.wellFormed.handleOf?_eq_none.mpr hs
  have hforget : d.connections.forget conn = d.connections := Connections.forget_of_unknown _ hn
  cases event with
  | accepted => cases he
  | received id data =>
      obtain rfl := Option.some.inj he
      have hreceive : (d.server.receive id data).2 = d.server := Server.receiveBy_of_none hs data
      rw [handleEvent, hreceive]
  | remoteClosed id =>
      obtain rfl := Option.some.inj he
      rw [handleEvent, onEngine, Engine.remoteClosed, hh]
      exact congrArg (fun c => d.onConnections fun _ => c) hforget
  | sent id count =>
      obtain rfl := Option.some.inj he
      have hacknowledge : d.onConnections (·.acknowledge id count) = d :=
        congrArg (fun c => d.onConnections fun _ => c) (Connections.updateLink_of_unknown _ hn _)
      rw [handleEvent, hacknowledge, onEngine, Engine.sent, hs]
  | failed id =>
      obtain rfl := Option.some.inj he
      have hconnections : d.onConnections (·.forget id) = d :=
        congrArg (fun c => d.onConnections fun _ => c) hforget
      rw [handleEvent, hconnections, onEngine, Engine.failed, hh]

/-! ## Steps -/

theorem handleCommand_held (h : Held window d.server d.events) (c : Command) :
    Held window (d.handleCommand c).server (d.handleCommand c).events := by
  cases c with
  | sendMessage g text => exact h.strides (Engine.sendFrame_strides d.server.engine g .text (Text.utf8 text))
  | sendData g data => exact h.strides (Engine.send_strides d.server.engine g data)
  | broadcast text => exact h.strides (Engine.sendToAll_strides text d.server.engine.audience d.server.engine)
  | close g => exact h.strides (Engine.close_strides d.server.engine g)
  | shutdown => exact h.strides (Engine.stop_strides d.server.engine)

theorem report_held (h : Held window d.server d.events) {outcome : List Event × Connections}
    (hs : Connections.SameLinks d.connections outcome.2) (ha : outcome.2.Attended (d.events ++ outcome.1)) :
    Held window (d.report outcome).server (d.report outcome).events where
  handlers := h.handlers
  sendBuffer := hs.sendBuffer.trans h.sendBuffer
  paired := h.paired.congr h.paired.wellFormed rfl hs.sendBuffer fun k => congrArg (lookUp? · k) hs.links
  attended := ha

theorem takeEvent_held (h : Held window d.server d.events) :
    Held window d.takeEvent.server d.takeEvent.events := by
  rw [takeEvent]
  split
  · rename_i event events _ hevents
    exact handleEvent_held (d := { d with events }) (hevents ▸ h)
  · exact h

theorem takeCommand_held (h : Held window d.server d.events) :
    Held window d.takeCommand.server d.takeCommand.events := by
  rw [takeCommand]
  split
  · rename_i command commands _ _
    exact handleCommand_held (d := { d with commands }) h command
  · exact h

theorem step_held (h : Held window d.server d.events) (stimulus : Stimulus) :
    Held window (d.step stimulus).server (d.step stimulus).events := by
  cases stimulus with
  | dial =>
      rw [step]
      split
      · have hspares : ∀ conn, flushed conn [Event.accepted] = 0 := fun _ => rfl
        exact ⟨h.handlers, h.sendBuffer, h.paired, h.attended.append (by simp [Event.conn?]) hspares⟩
      · exact h
  | arrive conn data => exact ⟨h.handlers, h.sendBuffer, h.paired, h.attended.arrive conn data⟩
  | hangUp conn =>
      exact report_held h (d.connections.endReader_sameLinks conn false) (h.attended.endReader conn false)
  | breakReader conn =>
      exact report_held h (d.connections.endReader_sameLinks conn true) (h.attended.endReader conn true)
  | flush conn => exact report_held h (d.connections.flushNext_sameLinks conn) (h.attended.flushNext conn)
  | breakWriter conn => exact report_held h (d.connections.breakWriter_sameLinks conn) (h.attended.breakWriter conn)
  | submit c =>
      rw [step, submit]
      split <;> exact h
  | takeEvent => exact takeEvent_held h
  | takeCommand => exact takeCommand_held h
  | tick millis =>
      rw [step]
      split
      · have hadvance : Engine.Move {} d.server.engine
            { d.server.engine with clock := d.server.engine.clock.advance millis } := .advanced millis trivial
        exact h.strides (.head (.beside (.single hadvance) ⟨rfl, rfl⟩) (Engine.poll_strides _))
      · exact h

theorem start_eq (d : Driver σ) :
    d.start.2 = d.onEngine fun e => if e.listening then e else e.start.2 := by
  rw [start, onEngine]
  cases d.server.engine.listening with
  | true =>
      dsimp only
      rw [if_pos rfl, if_pos rfl]
      dsimp only
      split <;> rfl
  | false =>
      dsimp only
      rw [if_neg Bool.false_ne_true, if_neg Bool.false_ne_true]
      split
      · rfl
      · split <;> rfl

theorem start_held (h : Held window d.server d.events) : Held window d.start.2.server d.start.2.events := by
  rw [start_eq]
  refine h.strides ?_
  dsimp only
  split
  · exact .refl
  · exact Engine.start_strides _

theorem run_held (h : Held window d.server d.events) : Held window d.run.server d.run.events := by
  have hstart := start_held h
  rw [run]
  split
  · rename_i hs
    rw [hs] at hstart
    exact ⟨hstart.handlers, hstart.sendBuffer, hstart.paired, hstart.attended⟩
  · rename_i hs
    rw [hs] at hstart
    exact ⟨hstart.handlers, hstart.sendBuffer, hstart.paired, hstart.attended⟩

/-! ## Runs -/

/-- What may become of a driver: its owner runs programs on the server, above all to install handlers, and starts it,
and from then on anything may happen around it, in any order. Neither the owner nor a handler makes reports about the
transport, which is for the driver to do. -/
inductive Course (config : Config) (network : Network) (app : σ) : Driver σ → Prop where
  | new : Course config network app (new config network app)
  | prepare {d : Driver σ} {program : Program Connections Nat σ} (hd : Course config network app d)
      (hp : program.Within (.withoutReports Connections Nat σ)) :
      Course config network app { d with server := (d.server.run program).2 }
  | start {d : Driver σ} (hd : Course config network app d) : Course config network app d.start.2
  | run {d : Driver σ} (hd : Course config network app d) : Course config network app d.run
  | drop {d : Driver σ} (hd : Course config network app d) : Course config network app d.drop
  | step {d : Driver σ} (hd : Course config network app d) (stimulus : Stimulus) :
      Course config network app (d.step stimulus)

variable {config : Config} {network : Network} {app : σ}

theorem Course.foldl (hd : Course config network app d) (stimuli : List Stimulus) :
    Course config network app (stimuli.foldl Driver.step d) := by
  induction stimuli generalizing d with
  | nil => exact hd
  | cons stimulus stimuli ih => exact ih (hd.step stimulus)

theorem new_held (config : Config) (network : Network) (app : σ) :
    Held config.sendBufferSize (new config network app).server [] where
  handlers := Handlers.within_none _
  sendBuffer := rfl
  paired := ⟨Registry.wellFormed_new _, nofun, nofun⟩
  attended := ⟨List.nodup_nil, nofun, nofun, nofun⟩

theorem Course.held (hd : Course config network app d) : Held config.sendBufferSize d.server d.events := by
  induction hd with
  | new => exact new_held config network app
  | prepare _ hp ih => exact ih.run hp
  | start _ ih => exact start_held ih
  | run _ ih => exact run_held ih
  | drop _ ih => exact ih
  | step _ stimulus ih => exact step_held ih stimulus

/-- The host and the sessions of a driver agree about their connections. -/
structure Consistent (config : Config) (d : Driver σ) : Prop where
  /-- Exactly the connections of sessions are known, so that none is left over. -/
  known : (d.connections.links.map Prod.fst).Perm (d.server.engine.registry.sessions.map Session.conn)
  inFlight : ∀ t ∈ d.server.engine.registry.sessions, d.connections.inFlight? t.conn = some t.outbound.inFlight
  window : ∀ t ∈ d.server.engine.registry.sessions, t.outbound.inFlight ≤ config.sendBufferSize
  /-- What waits to be acknowledged is in flight. -/
  acknowledged : ∀ t ∈ d.server.engine.registry.sessions, flushed t.conn d.events ≤ t.outbound.inFlight
  /-- Everything else in flight is with a writer that goes on, unless a failure is reported. -/
  serves : ∀ t ∈ d.server.engine.registry.sessions, ∃ s, d.connections.socket? t.conn = some s ∧
    s.Serves t.conn t.outbound.inFlight d.events
  /-- A connection that failed or was closed by its peer is known no more. -/
  ended : ∀ conn, (d.handleEvent (.failed conn)).connections.inFlight? conn = none ∧
    (d.handleEvent (.remoteClosed conn)).connections.inFlight? conn = none
  /-- An event about a connection that is gone changes nothing. -/
  gone : ∀ event conn, event.conn? = some conn → d.connections.inFlight? conn = none → d.handleEvent event = d

/-- Whatever happens around a driver, its host and its sessions agree about their connections. -/
theorem consistent_of_course (hd : Course config network app d) : d.Consistent config := by
  obtain ⟨-, hwindow, p, a⟩ := hd.held
  have hserves : ∀ t ∈ d.server.engine.registry.sessions, ∃ s, d.connections.socket? t.conn = some s ∧
      s.Serves t.conn t.outbound.inFlight d.events := fun t ht => a.links _ _ (p.carries t ht).inFlight
  refine ⟨?_, fun t ht => (p.carries t ht).inFlight, fun t ht => hwindow ▸ (p.carries t ht).window, fun t ht => ?_,
    hserves, fun conn => ⟨?_, ?_⟩, fun event conn => handleEvent_of_unknown p⟩
  · have hconns : (d.server.engine.registry.sessions.map Session.conn).Nodup :=
      List.Nodup.map_on (fun t ht u hu he => p.wellFormed.eq_of_conn ht hu he) p.wellFormed.handles_nodup.of_map
    refine (List.perm_ext_iff_of_nodup a.nodup hconns).mpr fun conn => ?_
    rw [Connections.mem_keys, List.mem_map]
    constructor
    · exact p.known conn
    · rintro ⟨t, ht, rfl⟩
      rw [(p.carries t ht).inFlight]
      rfl
  · obtain ⟨s, -, hs⟩ := hserves t ht
    exact hs.flushed_le
  · exact (congrArg (Connections.inFlight? · conn) (failed_transport _ conn)).trans
      (((d.connections.forget_left conn).inFlight? conn).trans (if_pos rfl))
  · exact ((Connections.forget_left _ conn).inFlight? conn).trans (if_pos rfl)

/-- Two requests are answered with more bytes than the send window holds. One connection breaks while its
acknowledgement is on the way; the other one waits for its own. -/
theorem consistent_of_stray_acknowledgement :
    let config : Config := { sendBufferSize := 4 }
    let install : Program Connections Nat Unit :=
      .onRequest (fun h _ => .call (.send h [1, 2, 3, 4, 5]) fun _ => .done { handled := true, keepOpen := true })
        (.done {})
    let request := Text.utf8 "GET / HTTP/1.1\r\n\r\n"
    let stimuli : List Stimulus :=
      [.dial, .dial, .takeEvent, .takeEvent, .arrive 1 request, .arrive 2 request, .takeEvent, .takeEvent,
        .breakReader 1, .flush 1, .flush 2, .takeEvent]
    let start : Driver Unit := new config { bind := .ok } ()
    let d := stimuli.foldl step { start with server := (start.server.run install).2 }.run
    d.Consistent config ∧ d.connections.links = [(2, 4)] ∧ d.events = [.sent 1 4, .sent 2 4] := by
  have hinstall : (Program.onRequest
      (fun h _ => .call (.send h [1, 2, 3, 4, 5]) fun _ => .done { handled := true, keepOpen := true })
      (.done {})).Within (.withoutReports Connections Nat Unit) :=
    .onRequest trivial (fun _ _ => .call id (fun _ _ => False.elim) fun _ => .done _) (.done _)
  refine ⟨consistent_of_course ((Course.new.prepare hinstall).run.foldl _), ?_, ?_⟩
  · decide +kernel
  · decide +kernel

end Driver
end WebServer.Host
