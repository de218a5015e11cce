import NodeWe.ControlPlane.Transport
import NodeWe.NodeRuntime.Transport

/-!
# The agents' channel, end to end

The frames of the WebSocket channel between an agent and the control plane. Each side has its own
reader and its own writer: the agent masks what it sends, and the control plane does not. What one
side writes, the other side reads back, and leaves what comes behind it unread.
-/

namespace NodeWe

open Wire

/-- A frame that may be sent: its opcode has four bits, and its payload is within the limits. -/
structure FrameFits (opcode : UInt8) (payload : List UInt8) : Prop where
  four_bits : opcode < 16
  within : payload.length ≤ 1024 * 1024
  control : 8 ≤ opcode → payload.length ≤ 125

/-- What reading a frame may come to: an error, the end of the stream, or a frame within 1 MiB that
was read from the beginning of the stream. -/
inductive FrameRead (stream : List UInt8) :
    Except FrameError (Option (UInt8 × List UInt8) × List UInt8) → Prop
  | failed (error : FrameError) : FrameRead stream (.error error)
  | over (hempty : stream = []) : FrameRead stream (.ok (none, []))
  | frame (opcode : UInt8) (payload read rest : List UInt8) (hstream : stream = read ++ rest)
      (hsize : payload.length ≤ 1024 * 1024) :
      FrameRead stream (.ok (some (opcode, payload), rest))

/-- A frame that may be sent is not too large. -/
theorem FrameFits.not_tooLarge {opcode : UInt8} {payload : List UInt8}
    (h : FrameFits opcode payload) : frameTooLarge opcode payload.length = false := by
  have hpayload := h.within
  have hcontrol := h.control
  unfold frameTooLarge
  simp only [Bool.or_eq_false_iff, Bool.and_eq_false_iff, decide_eq_false_iff_not, not_lt]
  refine ⟨by omega, ?_⟩
  by_cases hopcode : 8 ≤ opcode
  · exact .inr (hcontrol hopcode)
  · exact .inl hopcode

/-- A payload that is not too large is within 1 MiB. -/
theorem length_le_of_not_tooLarge {opcode : UInt8} {length : ℕ}
    (h : frameTooLarge opcode length = false) : length ≤ 1024 * 1024 := by
  unfold frameTooLarge at h
  simp only [Bool.or_eq_false_iff, decide_eq_false_iff_not, not_lt] at h
  exact h.1

/-- A reader keeps within 1 MiB on every stream. -/
theorem frameRead_readFrame (is_masked : Bool) (stream : List UInt8) :
    FrameRead stream (readFrame is_masked stream) := by
  cases hread : readFrame is_masked stream with
  | error error => exact .failed error
  | ok result =>
    obtain ⟨frame, rest⟩ := result
    rcases readFrame_ok hread with ⟨hempty, rfl, rfl⟩ | ⟨opcode, payload, read, rfl, hstream, -, hsmall⟩
    · exact .over hempty
    · exact .frame opcode payload read rest hstream (length_le_of_not_tooLarge hsmall)

/-- **Frames go round.** The control plane reads back every frame that the agent writes, under every
mask, the agent reads back every frame that the control plane writes, both leave exactly the
following bytes unread, and on every stream either reader keeps within 1 MiB. -/
theorem frames_round_trip :
    (∀ (mask : Vector UInt8 4) (opcode : UInt8) (payload rest : List UInt8),
      FrameFits opcode payload →
        ∃ frame, NodeRuntime.websocketWriteFrame mask opcode payload = .ok frame ∧
          ControlPlane.websocketReadFrame (frame ++ rest) = .ok (some (opcode, payload), rest)) ∧
    (∀ (opcode : UInt8) (payload rest : List UInt8), FrameFits opcode payload →
        ∃ frame, ControlPlane.websocketWriteFrame opcode payload = .ok frame ∧
          NodeRuntime.websocketReadFrame (frame ++ rest) = .ok (some (opcode, payload), rest)) ∧
    ∀ stream, FrameRead stream (ControlPlane.websocketReadFrame stream) ∧
      FrameRead stream (NodeRuntime.websocketReadFrame stream) := by
  refine ⟨fun mask opcode payload rest h => ?_, fun opcode payload rest h => ?_, fun stream => ?_⟩
  · obtain ⟨frame, hwrite⟩ := writeFrame_ok_iff.mpr h.not_tooLarge
    have hmask : ∀ m ∈ some mask.toList, m.length = 4 := by
      intro m hm
      rw [← Option.mem_some_iff.mp hm]
      exact mask.length_toList
    exact ⟨frame, hwrite, readFrame_writeFrame hmask h.four_bits hwrite rest⟩
  · obtain ⟨frame, hwrite⟩ := writeFrame_ok_iff.mpr h.not_tooLarge
    have hnomask : ∀ m ∈ (none : Option (List UInt8)), m.length = 4 := nofun
    exact ⟨frame, hwrite, readFrame_writeFrame hnomask h.four_bits hwrite rest⟩
  · exact ⟨frameRead_readFrame true stream, frameRead_readFrame false stream⟩

/-- A ping with two bytes, and what comes behind it. -/
theorem frames_round_trip_ping :
    (∃ frame, NodeRuntime.websocketWriteFrame (.replicate 4 7) 9 [1, 2] = .ok frame ∧
      ControlPlane.websocketReadFrame (frame ++ [3]) = .ok (some (9, [1, 2]), [3])) ∧
    ∃ frame, ControlPlane.websocketWriteFrame 9 [1, 2] = .ok frame ∧
      NodeRuntime.websocketReadFrame (frame ++ [3]) = .ok (some (9, [1, 2]), [3]) := by
  have hfits : FrameFits 9 [1, 2] := ⟨by decide, by decide, fun _ => by decide⟩
  obtain ⟨hserver, hagent, -⟩ := frames_round_trip
  exact ⟨hserver _ 9 [1, 2] [3] hfits, hagent 9 [1, 2] [3] hfits⟩

end NodeWe
