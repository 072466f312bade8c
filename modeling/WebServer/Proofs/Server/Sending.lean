import WebServer.Proofs.Engine.Sending
import WebServer.Proofs.Server.Moments

/-! # What the application sends

At every moment of a run an operation of the application that sends says exactly why it is refused and then changes
nothing, or it puts one buffer behind everything that the session has queued. -/

namespace WebServer

variable {τ κ σ : Type}

/-! ## Sessions that are live -/

/-- What becomes of a session is not marked as closed. -/
theorem Effect.closed {lic : License τ} {e : Engine τ κ σ} {h : Handle} {u : Session κ} {gained : List (Entry κ)}
    (he : Effect lic e h (some u) gained) (ho : ∀ t, e.session? h = some t → t.closed = false) : u.closed = false := by
  generalize hu : some u = u? at he
  cases he with
  | accepted => exact Option.some.inj hu ▸ rfl
  | received hs =>
      have hlive := ho _ hs
      rw [Session.touch_eq] at hu
      exact Option.some.inj hu ▸ hlive
  | acknowledged hs =>
      have hlive := ho _ hs
      rw [Session.touchSent_eq] at hu
      exact Option.some.inj hu ▸ hlive
  | consumed hs | queued hs | upgraded hs | closeQueued hs | beganClose hs | flushed hs =>
      have hlive := ho _ hs
      exact Option.some.inj hu ▸ hlive
  | ended | dropped => cases hu
  | handed => exact ho u hu.symm

theorem Session.acceptsOutput_eq {t : Session κ} (hc : t.closed = false) : t.acceptsOutput = !t.isEnding := by
  rw [acceptsOutput, isEnding, hc]
  cases t.closing <;> cases t.closeSent <;> rfl

/-- Every session takes output unless its close has begun. -/
def Registry.Live (r : Registry κ) : Prop :=
  ∀ h t, r.get? h = some t → t.closed = false

theorem Registry.live_new (limit : Nat) : (new limit : Registry κ).Live := by
  simp [Live, new, get?]

section

variable [DecidableEq κ] [Transport τ κ]

theorem Step.live {lic : License τ} {e e' : Engine τ κ σ} (hs : Step lic e e') (hl : e.registry.Live) :
    e'.registry.Live := by
  intro h u hu
  rcases hs.on_session h with ⟨hsame, -⟩ | haffects
  · exact hl h u (hsame.symm.trans hu)
  · obtain ⟨gained, -, heff⟩ := haffects.effect
    rw [show e'.session? h = some u from hu] at heff
    exact heff.closed fun t ht => hl h t ht

theorem Engine.after_live {e : Engine τ κ σ} (r : e.registry.Regular) (hl : e.registry.Live) (ds : List (Deed τ κ σ)) :
    (e.after ds).registry.Live :=
  after_keep (I := fun m => m.registry.Live) (fun _ _ _ _ _ _ hs hm => hs.live hm) r hl (Deed.all_true e ds)

end

variable [Transport τ κ]

namespace Engine

/-! ## Answers -/

/-- An operation that puts `data` behind everything that the session `h` has queued, or changes nothing. -/
structure Atomic (e : Engine τ κ σ) (h : Handle) (data : Bytes) (result : Except ServerError Unit × Engine τ κ σ) :
    Prop where
  refused : ∀ error, result.1 = .error error → result.2 = e
  sent : result.1 = .ok () → ∃ t, e.session? h = some t ∧
    Flushes (e.record (.queued h data)) h { t with outbound := t.outbound.append data } result.2

/-- The answers to bytes that are to be sent on the session `h`. -/
structure AnswersData (e : Engine τ κ σ) (h : Handle) (data : Bytes) (answer : Except ServerError Unit) : Prop where
  notFound : answer = .error (.handleNotFound h) ↔ e.session? h = none
  closing : answer = .error (.sessionClosing h) ↔ ∃ t, e.session? h = some t ∧ t.isEnding = true
  empty : answer = .error (.outbound .empty) ↔ ∃ t, e.session? h = some t ∧ t.isEnding = false ∧ data = []
  ok : answer = .ok () ↔ ∃ t, e.session? h = some t ∧ t.isEnding = false ∧ data ≠ []

/-- The answers to a message that is to be sent on the session `h`. -/
structure AnswersMessage (e : Engine τ κ σ) (h : Handle) (answer : Except ServerError Unit) : Prop where
  notFound : answer = .error (.handleNotFound h) ↔ e.session? h = none
  notWebSocket : answer = .error (.notWebSocket h) ↔ ∃ t, e.session? h = some t ∧ t.mode = .http
  closing : answer = .error (.sessionClosing h) ↔
    ∃ t, e.session? h = some t ∧ t.mode = .webSocket ∧ t.isEnding = true
  ok : answer = .ok () ↔ ∃ t, e.session? h = some t ∧ t.mode = .webSocket ∧ t.isEnding = false

section

variable {e : Engine τ κ σ} {h : Handle} {data : Bytes}

theorem Atomic.of_refused (error : ServerError) : Atomic e h data (.error error, e) :=
  ⟨fun _ _ => rfl, nofun⟩

theorem Sends.atomic {result : Except ServerError Unit × Engine τ κ σ} (s : Sends e h data result) :
    Atomic e h data result := by
  cases s with
  | notFound | closing | empty => exact .of_refused _
  | queued hs ho hd hf => exact ⟨nofun, fun _ => ⟨_, hs, hf⟩⟩

theorem Sends.answersData {result : Except ServerError Unit × Engine τ κ σ} (s : Sends e h data result)
    (hl : e.registry.Live) : AnswersData e h data result.1 := by
  have hopen {t : Session κ} (hs : e.session? h = some t) : t.acceptsOutput = !t.isEnding :=
    Session.acceptsOutput_eq (hl h t hs)
  cases s with
  | notFound hs => constructor <;> simp [hs]
  | closing hs hc => constructor <;> simp_all
  | empty hs ho hd => constructor <;> simp_all
  | queued hs ho hd => constructor <;> simp_all

variable [DecidableEq κ]

theorem sendFrame_atomic (e : Engine τ κ σ) (h : Handle) (opcode : WebSocket.Opcode) (payload : Bytes) :
    Atomic e h (WebSocket.encode opcode payload none) (e.sendFrame h opcode payload) := by
  rw [sendFrame]
  cases (e.session? h).map Session.mode with
  | none => exact .of_refused _
  | some mode =>
      cases mode with
      | http => exact .of_refused _
      | webSocket => exact (send_sends e h _).atomic

theorem sendFrame_answers (hl : e.registry.Live) (h : Handle) (opcode : WebSocket.Opcode) (payload : Bytes) :
    AnswersMessage e h (e.sendFrame h opcode payload).1 := by
  rw [sendFrame]
  cases hs : e.session? h with
  | none => constructor <;> simp [hs]
  | some t =>
      cases hm : t.mode with
      | http => constructor <;> simp [hs, hm]
      | webSocket =>
          have hopen : t.acceptsOutput = !t.isEnding := Session.acceptsOutput_eq (hl h t hs)
          have hframe := encode_ne_nil opcode payload none
          have hsend := send_sends e h (WebSocket.encode opcode payload none)
          simp only [Option.map_some, hm]
          generalize e.send h (WebSocket.encode opcode payload none) = result at hsend
          cases hsend with
          | notFound hnone => exact absurd (hs.symm.trans hnone) (Option.some_ne_none t)
          | closing hs' hc => constructor <;> simp_all
          | empty hs' ho hd => exact absurd hd hframe
          | queued hs' ho hd => constructor <;> simp_all

end

end Engine

namespace Server

variable [DecidableEq κ]

/-- What the operations of the application that send on the session `h` answer, and what they do. -/
structure SendsExactly (e : Engine τ κ σ) (h : Handle) : Prop where
  data : ∀ data, Engine.AnswersData e h data (e.send h data).1 ∧ Engine.Atomic e h data (e.send h data)
  message : ∀ text, Engine.AnswersMessage e h (e.sendMessage h text).1 ∧
    Engine.Atomic e h (WebSocket.encode .text (Text.utf8 text) none) (e.sendMessage h text)
  binary : ∀ data, Engine.AnswersMessage e h (e.sendBinary h data).1 ∧
    Engine.Atomic e h (WebSocket.encode .binary data none) (e.sendBinary h data)

/-- After every operation of a run, and at every moment meanwhile, the application is told exactly why it may not send,
and then nothing has changed; what it may send is queued in one piece behind everything else. -/
theorem sendsExactly_of_course {config : Config} {transport : τ} {app : σ} {s : Server τ κ σ} {ds : List (Deed τ κ σ)}
    (hc : Course (fun _ _ => True) (new config transport app) ds s) (h : Handle) :
    SendsExactly s.engine h ∧ ∀ past, past <+: ds → SendsExactly ((new config transport app).engine.after past) h := by
  have hafter (past : List (Deed τ κ σ)) : SendsExactly ((new config transport app).engine.after past) h := by
    generalize he : (new config transport app).engine.after past = e
    have hlive : e.registry.Live := he ▸ Engine.after_live (Registry.regular_new _) (Registry.live_new _) past
    refine ⟨fun data => ?_, fun text => ?_, fun data => ?_⟩
    · exact ⟨(Engine.send_sends e h data).answersData hlive, (Engine.send_sends e h data).atomic⟩
    · exact ⟨Engine.sendFrame_answers hlive h .text _, Engine.sendFrame_atomic e h .text _⟩
    · exact ⟨Engine.sendFrame_answers hlive h .binary data, Engine.sendFrame_atomic e h .binary data⟩
  exact ⟨hc.engine ▸ hafter ds, fun past _ => hafter past⟩

/-- One session is open and another one is closing, with bytes that the transport has no room for. -/
theorem sendsExactly_of_open_and_closing :
    let operations : List (Operation (Transport.InMemory Nat) Nat Unit) :=
      [.call (.accept 7), .call (.accept 8), .call (.send ⟨1001⟩ [1, 2, 3]), .call (.close ⟨1001⟩)]
    let start : Server (Transport.InMemory Nat) Nat Unit := new {} { window := 2 } ()
    let e := (operations.foldl apply start).engine
    SendsExactly e .first ∧ (e.send .first [1, 2, 3]).1 = .ok () ∧ (e.send .first []).1 = .error (.outbound .empty) ∧
      (e.sendMessage .first "a").1 = .error (.notWebSocket .first) ∧
      (e.send ⟨1001⟩ [1, 2, 3]).1 = .error (.sessionClosing ⟨1001⟩) ∧
      (e.sendBinary ⟨1002⟩ [1]).1 = .error (.handleNotFound ⟨1002⟩) ∧
      ((e.send .first [1, 2, 3]).2.transport.link 7).written = [1, 2] := by
  intro operations start e
  have hcourse : Course (fun _ _ => True) start (deedsOf operations start) (operations.foldl apply start) :=
    course_deedsOf fun _ _ _ => trivial
  refine ⟨(sendsExactly_of_course hcourse .first).1, ?_⟩
  decide

end Server

end WebServer
