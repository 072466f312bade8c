import WebServer.Proofs.Inbound.Acts
import WebServer.Proofs.Inbound.Cut
import WebServer.Proofs.WebSocket.InPlace

/-! # Bytes that wait

What is left of the received bytes once no message in them is complete, and how much that can be. -/

namespace WebServer

variable {τ κ σ : Type}

/-! ## What a reader leaves -/

theorem Http.Head.read_nil (limit : Nat) : Http.Head.read limit [] = .notYet := rfl

namespace WebSocket

variable {limit : Nat} {buffer : Bytes}

theorem decode_nil (limit : Nat) : decode limit [] = .notYet := rfl

theorem length_lt_of_declaredLength? {code : UInt8} (h : declaredLength? code buffer = none) : buffer.length < 10 := by
  rw [declaredLength?] at h
  split at h
  · split at h
    · omega
    · cases h
  · split at h
    · split at h
      · assumption
      · cases h
    · cases h

theorem length_lt_of_decodePayload {header : FrameHeader} (h : decodePayload header buffer = .notYet) :
    buffer.length < header.frameLength := by
  rw [decodePayload] at h
  split at h
  · cases h
  · split at h
    · assumption
    · cases h

/-- A frame that is not complete is shorter than the longest header and the largest payload together. -/
theorem length_le_of_decode (h : decode limit buffer = .notYet) : buffer.length ≤ limit + 13 := by
  match buffer with
  | [] => exact Nat.zero_le _
  | [_] => exact Nat.le_add_left 1 (limit + 12)
  | b0 :: b1 :: rest =>
      rw [decode] at h
      dsimp only at h
      split at h
      · have hshort := length_lt_of_declaredLength? ‹_›
        omega
      · rename_i length position hlength
        have hposition := le_ten_of_declaredLength? hlength
        split at h
        · cases h
        · split at h
          · split at h
            · have hshort := length_lt_of_keyAt? ‹_›
              omega
            · have hshort := length_lt_of_decodePayload h
              simp only [FrameHeader.frameLength] at hshort
              omega
          · have hshort := length_lt_of_decodePayload h
            simp only [FrameHeader.frameLength] at hshort
            omega

/-- A payload that was read is within the limit. -/
theorem payloadLength_le_of_decode {header : FrameHeader} {unmasked : Bytes}
    (h : decode limit buffer = .ready (header, unmasked)) : header.payloadLength ≤ limit := by
  rcases decode_cases limit buffer with h' | ⟨length, -, h'⟩ | ⟨header', -, hlimit, h'⟩
  · cases h.symm.trans h'
  · cases h.symm.trans h'
  · rw [h'] at h
    obtain ⟨rfl, -⟩ := decodePayload_append_of_ready h []
    exact hlimit

end WebSocket

/-! ## Sessions at rest -/

/-- A session whose received bytes are the beginning of a message. -/
structure Session.Waiting (limit : Nat) (t : Session κ) : Prop where
  http : t.mode = .http → Http.Head.read limit t.inbound = .notYet ∧ t.inbound.length ≤ limit
  webSocket : t.mode = .webSocket →
    WebSocket.decode limit t.inbound = .notYet ∧ t.inbound.length ≤ limit + 13

/-- A session that is closing, or waits for more bytes. -/
def Session.Rests (limit : Nat) (t : Session κ) : Prop :=
  t.closing = false → t.Waiting limit

theorem Session.waiting_of_empty {limit : Nat} {t : Session κ} (ht : t.inbound = []) : t.Waiting limit := by
  refine ⟨fun _ => ?_, fun _ => ?_⟩
  · rw [ht]
    exact ⟨Http.Head.read_nil limit, Nat.zero_le _⟩
  · rw [ht]
    exact ⟨WebSocket.decode_nil limit, Nat.zero_le _⟩

theorem Session.rests_of_closing {limit : Nat} {t : Session κ} (hc : t.closing = true) : t.Rests limit :=
  fun ho => absurd (hc.symm.trans ho) (by decide)

/-- No connection is accepted, and nothing becomes of the bytes received. -/
def Surroundings.still (τ : Type) : Surroundings τ where
  accepts := False
  upgrades := False
  receives := False
  takes := False

theorem Session.Continues.rests {limit now : Nat} {t u : Session κ} (hc : Session.Continues (.still τ) now t u)
    (hr : t.Rests limit) : u.Rests limit := by
  intro ho
  have hclosing : t.closing = false := by
    by_contra hclosing
    simp [hc.closing (by simpa using hclosing)] at ho
  have hmode : u.mode = t.mode := by
    rcases hc.mode with hmode | ⟨hfalse, -⟩
    · exact hmode
    · exact hfalse.elim
  have hinbound : u.inbound = t.inbound := by
    rcases hc.inbound with hfalse | hfalse | hclosed | hinbound
    · exact hfalse.elim
    · exact hfalse.elim
    · exact absurd (hclosed.symm.trans ho) (by decide)
    · exact hinbound
  have hw := hr hclosing
  exact ⟨fun hm => hinbound ▸ hw.http (hmode ▸ hm), fun hm => hinbound ▸ hw.webSocket (hmode ▸ hm)⟩

namespace Engine

variable [DecidableEq κ] [Transport τ κ] {e e' : Engine τ κ σ} {h : Handle} {t : Session κ} {limit : Nat}

theorem rests_of_moves (hm : Moves (.still τ) e e') (w : e.registry.WellFormed)
    (hr : e.registry.At h (Session.Rests limit)) : e'.registry.At h (Session.Rests limit) :=
  hm.at id w hr fun _ _ hc ht => hc.rests ht

theorem nextRequest_rests (w : e.registry.WellFormed) (hs : e.session? h = some t) (hm : t.mode = .http)
    (hd : (e.nextRequest h t).1 = .wait) :
    (e.nextRequest h t).2.registry.At h (Session.Rests e.config.maxRequestBytes) := by
  have hclear : (e.clearInbound h).registry.WellFormed := w.update (fun _ => rfl) fun _ => rfl
  have hclosing (response : Bytes) :
      ((e.clearInbound h).replyAndClose h response).registry.At h (Session.Rests e.config.maxRequestBytes) :=
    (replyAndClose_closing hclear h response).imp fun _ => Session.rests_of_closing
  rw [nextRequest] at hd ⊢
  dsimp only at hd ⊢
  split at hd
  · rename_i hread
    split
    · exact hclosing _
    · rename_i hle
      exact .of_get? hs fun _ =>
        ⟨fun _ => ⟨hread, Nat.le_of_not_lt hle⟩, fun hw => absurd (hm.symm.trans hw) (by decide)⟩
  · exact hclosing _
  · exact hclosing _
  · split at hd <;> cases hd

theorem nextFrame_rests (w : e.registry.WellFormed) (hs : e.session? h = some t) (hm : t.mode = .webSocket)
    (hsafe : WebSocket.Safe e.config.maxRequestBytes t.inbound) (hd : (e.nextFrame h t).1 = .wait) :
    (e.nextFrame h t).2.registry.At h (Session.Rests e.config.maxRequestBytes) := by
  have hclear : (e.clearInbound h).registry.WellFormed := w.update (fun _ => rfl) fun _ => rfl
  rw [nextFrame] at hd ⊢
  split at hd
  · rename_i hread
    exact .of_get? hs fun _ =>
      ⟨fun hh => absurd (hm.symm.trans hh) (by decide), fun _ => ⟨hread, WebSocket.length_le_of_decode hread⟩⟩
  · exact absurd ‹_› (hsafe.decode_ne _)
  · exact (failWebSocket_closing hclear h _ _).imp fun _ => Session.rests_of_closing
  · rename_i header unmasked hread
    have hframe := dispatchFrame_ofFrame (e.dropInbound h header.frameLength) h t header (header.payload unmasked)
    rw [hd] at hframe
    exact hframe.elim

/-- A session that hands over nothing more rests, if the reader of frames cannot fault. -/
theorem next_rests (w : e.registry.WellFormed) (hsafe : ∀ buffer, WebSocket.Safe e.config.maxRequestBytes buffer)
    (hd : (e.next h).1 = .wait) :
    (e.next h).2.registry.At h (Session.Rests e.config.maxRequestBytes) := by
  rw [next] at hd ⊢
  split at hd
  · exact .of_none ‹_›
  · rename_i t hs
    split at hd
    · rename_i hidle
      rw [if_pos hidle]
      rw [Bool.or_eq_true] at hidle
      rcases hidle with hclosing | hempty
      · exact .of_get? hs (Session.rests_of_closing hclosing)
      · exact .of_get? hs fun _ => Session.waiting_of_empty (List.isEmpty_iff.mp hempty)
    · rw [if_neg ‹_›]
      split at hd
      · exact nextRequest_rests w hs ‹_› hd
      · exact nextFrame_rests w hs ‹_› (hsafe t.inbound) hd

/-- Taking a message off the bytes of a session leaves the others as they are. -/
theorem next_session?_of_ne (r : e.registry.Regular) {g : Handle} (hg : g ≠ h) :
    (e.next h).2.session? g = e.session? g := by
  have ha : Acts { takes := True, upgrades := True, on := fun g => g = h } e (e.next h).2 :=
    next_acts rfl trivial trivial
  exact (ha.frame r hg).1

end Engine

end WebServer
