import Mathlib.Data.List.Infix
import WebServer.WebSocket.Handshake

/-! # The opening handshake

Which requests are answered by switching protocols, whatever else is in their heads. -/

namespace WebServer.WebSocket

/-- A text contains the ones that it has in it without a gap. -/
theorem containsText_iff {pattern cs : List Char} : containsText pattern cs = true ↔ pattern <:+: cs := by
  induction cs with
  | nil => simp [containsText]
  | cons c cs ih =>
      rw [containsText, Bool.or_eq_true, ih, List.isPrefixOf_iff_prefix, List.infix_cons_iff]

/-- A request for the WebSocket protocol with all that the handshake wants. Of several headers with one name it is the
first that counts. -/
structure Handshake (r : Http.Request) (key : String) : Prop where
  upgrade : r.isUpgrade = true
  connection : ∃ value, r.header? "Connection" = some value ∧
    "upgrade".toList <:+: value.toList.map Char.toLower
  origin : ∃ value, r.header? "Origin" = some value
  version : r.header? "Sec-WebSocket-Version" = some "13"
  host : ∃ value, r.header? "Host" = some value ∧ value ≠ ""
  key : r.header? "Sec-WebSocket-Key" = some key ∧ key ≠ ""

variable {r : Http.Request} {key : String}

theorem connection_iff :
    containsText "upgrade".toList (((r.header? "Connection").getD "").toList.map Char.toLower) = true ↔
      ∃ value, r.header? "Connection" = some value ∧ "upgrade".toList <:+: value.toList.map Char.toLower := by
  rw [containsText_iff]
  cases r.header? "Connection" with
  | none => simp
  | some value => simp

theorem version_iff : (r.header? "Sec-WebSocket-Version").getD "" = supportedVersion ↔
    r.header? "Sec-WebSocket-Version" = some "13" := by
  cases r.header? "Sec-WebSocket-Version" with
  | none => simp [supportedVersion]
  | some value => simp [supportedVersion]

theorem host_iff :
    (r.header? "Host").all String.isEmpty = false ↔ ∃ value, r.header? "Host" = some value ∧ value ≠ "" := by
  cases r.header? "Host" with
  | none => simp
  | some value => simp

/-- A check that is passed, and the others behind it. -/
theorem if_error_eq_ok {ε α : Type} {refused : Prop} [Decidable refused] {error : ε} {x : Except ε α} {a : α} :
    (if refused then .error error else x) = .ok a ↔ ¬refused ∧ x = .ok a := by
  by_cases hr : refused
  · simp [hr]
  · simp [hr]

theorem key_iff : (match r.header? "Sec-WebSocket-Key" with
      | some key => if key.isEmpty then .error .missingKey else .ok key
      | none => .error .missingKey : Except HandshakeError String) = .ok key ↔
    r.header? "Sec-WebSocket-Key" = some key ∧ key ≠ "" := by
  cases r.header? "Sec-WebSocket-Key" with
  | none => simp
  | some value =>
      simp only [if_error_eq_ok, Except.ok.injEq, Option.some.injEq, String.isEmpty_iff]
      constructor
      · rintro ⟨hne, rfl⟩
        exact ⟨rfl, hne⟩
      · rintro ⟨rfl, hne⟩
        exact ⟨hne, rfl⟩

/-- A request is accepted, with its key, exactly if nothing is missing. -/
theorem checkUpgrade_eq_ok : checkUpgrade r = .ok key ↔ Handshake r key := by
  rw [checkUpgrade]
  simp only [if_error_eq_ok, Bool.not_eq_true', Bool.not_eq_false, Bool.not_eq_true, connection_iff, host_iff,
    bne_eq_false_iff_eq, version_iff, Option.isNone_eq_false_iff, Option.isSome_iff_exists]
  constructor
  · rintro ⟨hupgrade, hconnection, horigin, hversion, hhost, hkey⟩
    exact ⟨hupgrade, hconnection, horigin, hversion, hhost, key_iff.mp hkey⟩
  · rintro ⟨hupgrade, hconnection, horigin, hversion, hhost, hkey⟩
    exact ⟨hupgrade, hconnection, horigin, hversion, hhost, key_iff.mpr hkey⟩

theorem upgradeResponse_of_handshake (hs : Handshake r key) :
    upgradeResponse r = .ok (switchingProtocols (acceptKey key)) := by
  rw [upgradeResponse, checkUpgrade_eq_ok.mpr hs]
  rfl

theorem upgradeResponse_of_not_handshake (hn : ∀ key, ¬Handshake r key) : ∃ error, upgradeResponse r = .error error := by
  cases hc : checkUpgrade r with
  | error error => exact ⟨error, by rw [upgradeResponse, hc]; rfl⟩
  | ok key => exact absurd (checkUpgrade_eq_ok.mp hc) (hn key)

end WebServer.WebSocket
