import NodeWe.Wire

/-!
# The agent on the wire

How the agent reads the responses of the control plane, and the frames of its channel. It reads a
response in pieces of up to 8 KiB, and gives up beyond 8 MiB.
-/

namespace NodeWe.NodeRuntime

open Text Wire

/-- `MAX_HTTP_RESPONSE_BYTES`. -/
def maxHttpResponseBytes : ℕ := 8 * 1024 * 1024

/-- `read_response`, on the pieces that the connection hands out. -/
def readResponse (pieces : List (List UInt8)) : Except String String :=
  match readBounded maxHttpResponseBytes [] pieces with
  | none => .error "control plane response exceeds the 8 MiB limit"
  | some read =>
    match String.fromUTF8? ⟨read.toArray⟩ with
    | none => .error "control plane response is not valid UTF-8"
    | some text => .ok text

/-- `websocket_write_frame` of the agent, which masks. -/
def websocketWriteFrame (mask : Vector UInt8 4) (opcode : UInt8) (payload : List UInt8) :
    Except FrameError (List UInt8) :=
  writeFrame (some mask.toList) opcode payload

/-- `websocket_read_frame` of the agent, which refuses masks. -/
def websocketReadFrame (stream : List UInt8) :
    Except FrameError (Option (UInt8 × List UInt8) × List UInt8) :=
  readFrame false stream

/-- The loop of `websocket_request`, on what the control plane has written: the text that it returns,
where it returns one. -/
def awaitText (mask : Vector UInt8 4) (stream : List UInt8) : Option String :=
  match _ : websocketReadFrame stream with
  | .error _ | .ok (none, _) => none
  | .ok (some (opcode, payload), rest) =>
    if opcode = 0x1 then String.fromUTF8? ⟨payload.toArray⟩
    else if opcode = 0x8 then none
    else if opcode = 0x9 then
      match websocketWriteFrame mask 0xA payload with
      | .error _ => none
      | .ok _ => awaitText mask rest
    else if opcode = 0xA then awaitText mask rest
    else none
termination_by stream.length
decreasing_by all_goals exact length_lt_of_readFrame ‹_›

/-- A text in a frame is returned. -/
theorem awaitText_eq {mask : Vector UInt8 4} {text : String} {stream rest : List UInt8}
    (h : websocketReadFrame stream = .ok (some (0x1, bytes text), rest)) :
    awaitText mask stream = some text := by
  rw [awaitText]
  split
  · next hread => rw [h] at hread; cases hread
  · next hread => rw [h] at hread; cases hread
  · next opcode payload rest' hread =>
    rw [h, Except.ok.injEq, Prod.mk.injEq, Option.some.injEq, Prod.mk.injEq] at hread
    obtain ⟨⟨rfl, rfl⟩, -⟩ := hread
    rw [if_pos rfl, fromUTF8_bytes]

/-- Where nothing was written there is nothing to return. -/
theorem awaitText_nil (mask : Vector UInt8 4) : awaitText mask [] = none := by
  rw [awaitText]
  rfl

/-- A text is read if it is within the limit, however it is cut. -/
theorem readResponse_iff {text : String} {pieces : List (List UInt8)}
    (h : PiecesOf 8192 (bytes text) pieces) :
    readResponse pieces = .ok text ↔ len text ≤ maxHttpResponseBytes := by
  have hempty : ([] : List UInt8).length ≤ maxHttpResponseBytes := Nat.zero_le _
  have hread := readBounded_eq hempty pieces
  rw [List.length_nil, Nat.zero_add, List.nil_append, h.whole, ← len_eq_length] at hread
  unfold readResponse
  rw [hread]
  by_cases hlimit : len text ≤ maxHttpResponseBytes
  · rw [if_pos hlimit]
    dsimp only
    rw [fromUTF8_bytes]
    exact iff_of_true rfl hlimit
  · rw [if_neg hlimit]
    exact iff_of_false nofun hlimit

end NodeWe.NodeRuntime
