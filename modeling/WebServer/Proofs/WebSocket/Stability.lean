import Mathlib.Data.List.Basic
import WebServer.WebSocket.Frame

/-! # Frames in a growing buffer

What a buffer starts with is decided by its first bytes: bytes behind a complete frame, or behind a header that
was refused, change nothing. -/

namespace WebServer.WebSocket

theorem declaredLength?_append {code : UInt8} {buffer : Bytes} {found : Nat × Nat}
    (h : declaredLength? code buffer = some found) (more : Bytes) :
    declaredLength? code (buffer ++ more) = some found := by
  have htake (n : Nat) (hn : 2 + n ≤ buffer.length) :
      ((buffer ++ more).drop 2).take n = (buffer.drop 2).take n := by
    rw [List.drop_append_of_le_length (by omega), List.take_append_of_le_length]
    rw [List.length_drop]
    omega
  rw [declaredLength?] at h ⊢
  split at h
  · rw [if_pos ‹_›]
    split at h
    · simp at h
    · rw [if_neg (by rw [List.length_append]; omega), htake 2 (by omega)]
      exact h
  · rw [if_neg ‹_›]
    split at h
    · rw [if_pos ‹_›]
      split at h
      · simp at h
      · rw [if_neg (by rw [List.length_append]; omega), htake 8 (by omega)]
        exact h
    · rw [if_neg ‹_›]
      exact h

theorem keyAt?_append {buffer : Bytes} {position : Nat} {key : MaskKey} (h : keyAt? buffer position = some key)
    (more : Bytes) : keyAt? (buffer ++ more) position = some key := by
  rw [keyAt?] at h ⊢
  split at h
  · rename_i a b c d rest hdrop
    have hle : position ≤ buffer.length := by
      have hlen := congrArg List.length hdrop
      simp only [List.length_drop, List.length_cons] at hlen
      omega
    rw [List.drop_append_of_le_length hle, hdrop]
    exact h
  · simp at h

/-- Unmasking a payload does not look behind it. -/
theorem payload_unmask_append (header : FrameHeader) (key : Option MaskKey) (buffer more : Bytes)
    (h : header.frameLength ≤ buffer.length) :
    header.payload (unmask key header.payloadStart header.payloadLength (buffer ++ more)) =
      header.payload (unmask key header.payloadStart header.payloadLength buffer) := by
  rw [FrameHeader.frameLength] at h
  have hdrop : (buffer ++ more).drop header.payloadStart = buffer.drop header.payloadStart ++ more :=
    List.drop_append_of_le_length (by omega)
  have htake : (buffer.drop header.payloadStart ++ more).take header.payloadLength =
      (buffer.drop header.payloadStart).take header.payloadLength :=
    List.take_append_of_le_length (by rw [List.length_drop]; omega)
  cases key with
  | none =>
      simp only [FrameHeader.payload, unmask]
      rw [hdrop, htake]
  | some key =>
      have hstart : ((buffer ++ more).take header.payloadStart) = buffer.take header.payloadStart :=
        List.take_append_of_le_length (by omega)
      simp only [FrameHeader.payload, unmask]
      rw [hdrop, htake, hstart]
      have hlength : (buffer.take header.payloadStart).length = header.payloadStart := by
        rw [List.length_take]
        omega
      have hpayload : (key.apply ((buffer.drop header.payloadStart).take header.payloadLength)).length =
          header.payloadLength := by
        rw [MaskKey.apply, List.length_mapIdx, List.length_take, List.length_drop]
        omega
      rw [List.append_assoc, List.append_assoc, List.drop_left' hlength, List.drop_left' hlength,
        List.take_left' hpayload, List.take_left' hpayload]

theorem decodePayload_append_of_ready {header found : FrameHeader} {buffer unmasked : Bytes}
    (h : decodePayload header buffer = .ready (found, unmasked)) (more : Bytes) :
    found = header ∧ header.frameLength ≤ buffer.length ∧
      ∃ unmasked', decodePayload header (buffer ++ more) = .ready (header, unmasked') ∧
        header.payload unmasked' = header.payload unmasked := by
  rw [decodePayload] at h ⊢
  split at h
  · simp at h
  · rw [if_neg ‹_›]
    split at h
    · simp at h
    · rename_i hlen
      simp only [Reading.ready.injEq, Prod.mk.injEq] at h
      obtain ⟨rfl, rfl⟩ := h
      rw [if_neg (by rw [List.length_append]; omega)]
      exact ⟨rfl, by omega, _, rfl, payload_unmask_append header _ buffer more (by omega)⟩

theorem decodePayload_append_of_failed {header : FrameHeader} {buffer : Bytes} {error : FrameError}
    (h : decodePayload header buffer = .failed error) (more : Bytes) :
    decodePayload header (buffer ++ more) = .failed error := by
  rw [decodePayload] at h ⊢
  split at h
  · rw [if_pos ‹_›]
    exact h
  · split at h <;> simp at h

theorem two_le_of_declaredLength? {code : UInt8} {buffer : Bytes} {length position : Nat}
    (h : declaredLength? code buffer = some (length, position)) : 2 ≤ position := by
  rw [declaredLength?] at h
  split at h
  · split at h
    · simp at h
    · simp only [Option.some.injEq, Prod.mk.injEq] at h
      omega
  · split at h
    · split at h
      · simp at h
      · simp only [Option.some.injEq, Prod.mk.injEq] at h
        omega
    · simp only [Option.some.injEq, Prod.mk.injEq] at h
      omega

/-- Bytes behind a complete frame leave its header and its payload as they are. -/
theorem decode_append_of_ready {limit : Nat} {buffer unmasked : Bytes} {header : FrameHeader}
    (h : decode limit buffer = .ready (header, unmasked)) (more : Bytes) :
    0 < header.frameLength ∧ header.frameLength ≤ buffer.length ∧
      ∃ unmasked', decode limit (buffer ++ more) = .ready (header, unmasked') ∧
        header.payload unmasked' = header.payload unmasked := by
  match buffer with
  | [] => simp [decode] at h
  | [_] => simp [decode] at h
  | b0 :: b1 :: rest =>
      rw [decode] at h
      rw [List.cons_append, List.cons_append, decode, ← List.cons_append, ← List.cons_append]
      dsimp only at h ⊢
      split at h
      · simp at h
      · rename_i length position hlength
        have hposition := two_le_of_declaredLength? hlength
        rw [declaredLength?_append hlength more]
        dsimp only
        split at h
        · simp at h
        · rw [if_neg ‹_›]
          split at h
          · rw [if_pos ‹_›]
            split at h
            · simp at h
            · rename_i key hkey
              rw [keyAt?_append hkey more]
              obtain ⟨rfl, hle, hmore⟩ := decodePayload_append_of_ready h more
              refine ⟨?_, hle, hmore⟩
              simp only [FrameHeader.frameLength]
              omega
          · rw [if_neg ‹_›]
            obtain ⟨rfl, hle, hmore⟩ := decodePayload_append_of_ready h more
            refine ⟨?_, hle, hmore⟩
            simp only [FrameHeader.frameLength]
            omega

theorem decode_append_of_failed {limit : Nat} {buffer : Bytes} {error : FrameError}
    (h : decode limit buffer = .failed error) (more : Bytes) : decode limit (buffer ++ more) = .failed error := by
  match buffer with
  | [] => simp [decode] at h
  | [_] => simp [decode] at h
  | b0 :: b1 :: rest =>
      rw [decode] at h
      rw [List.cons_append, List.cons_append, decode, ← List.cons_append, ← List.cons_append]
      dsimp only at h ⊢
      split at h
      · simp at h
      · rename_i length position hlength
        rw [declaredLength?_append hlength more]
        dsimp only
        split at h
        · rw [if_pos ‹_›]
          exact h
        · rw [if_neg ‹_›]
          split at h
          · rw [if_pos ‹_›]
            split at h
            · simp at h
            · rename_i key hkey
              rw [keyAt?_append hkey more]
              exact decodePayload_append_of_failed h more
          · rw [if_neg ‹_›]
            exact decodePayload_append_of_failed h more

end WebServer.WebSocket
