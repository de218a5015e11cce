import NodeWe.Wire
import NodeWe.ControlPlane.WebSocket

/-!
# The control plane on the wire

What the control plane writes to a connection, and how large it is. `esc` makes two characters of a
quotation mark and six of a control character, so the size of a body is not the size of its fields.
-/

namespace NodeWe.ControlPlane

open Text Wire

/-! ## Writing -/

/-- `write_response`, up to writing the text to the connection. -/
def writeResponse (status response : String) : String :=
  let content_type := if startsWith response "<!doctype html>" then "text/html; charset=utf-8"
    else "application/json; charset=utf-8"
  "HTTP/1.1 " ++ status ++ "\r\nContent-Type: " ++ content_type ++ "\r\nContent-Length: " ++
    (len response).repr ++ "\r\nCache-Control: no-store\r\nPragma: no-cache\r\n" ++
    "X-Content-Type-Options: nosniff\r\nContent-Security-Policy: default-src 'none'; " ++
    "script-src 'unsafe-inline'; style-src 'unsafe-inline'\r\nConnection: close\r\n\r\n" ++ response

/-- `websocket_write_frame` of the control plane, which does not mask. -/
def websocketWriteFrame (opcode : UInt8) (payload : List UInt8) : Except FrameError (List UInt8) :=
  writeFrame none opcode payload

/-- `websocket_read_frame` of the control plane, which wants masks. -/
def websocketReadFrame (stream : List UInt8) :
    Except FrameError (Option (UInt8 × List UInt8) × List UInt8) :=
  readFrame true stream

/-! ## The channel -/

/-- `CONNECTION_TIMEOUT`, in milliseconds. -/
def connectionTimeout : ℕ := 15 * 1000

/-- What a round of the loop of `handle_websocket` leaves behind: what it writes, whether the
connection stays open, and the store. -/
structure Round where
  written : List UInt8
  stays : Bool
  store : Store

/-- What a round that ends with a frame leaves behind. A frame that is too large closes the
connection. -/
def Round.write (opcode : UInt8) (payload : List UInt8) (stays : Bool) (store : Store) : Round :=
  match websocketWriteFrame opcode payload with
  | .ok frame => ⟨frame, stays, store⟩
  | .error _ => ⟨[], false, store⟩

/-- A round of the loop of `handle_websocket`, with an agent that is silent for some milliseconds and
then writes `stream`. There is none where the read gives up before. -/
def websocketRound [Serde] [Ed25519] (st : State) (env : Env) (store : Store)
    (node_id presented : String) (silence : ℕ) (stream : List UInt8) : Option Round :=
  if silence ≥ connectionTimeout then none
  else
    match websocketReadFrame stream with
    | .error _ | .ok (none, _) => some ⟨[], false, store⟩
    | .ok (some (opcode, payload), _) =>
      if opcode = 0x1 then
        match String.fromUTF8? ⟨payload.toArray⟩ with
        | none => some ⟨[], false, store⟩
        | some message =>
          let (response, store) := websocketMessage st env store message node_id presented
          some (.write 0x1 (bytes response) true store)
      else if opcode = 0x8 then some (.write 0x8 [] false store)
      else if opcode = 0x9 then some (.write 0xA payload true store)
      else if opcode = 0xA then some ⟨[], true, store⟩
      else some (.write 0x8 (beBytes 2 1002) false store)

/-- A message that comes in time is answered. -/
theorem websocketRound_message [Serde] [Ed25519] (st : State) (env : Env) (store : Store)
    (node_id presented : String) {silence : ℕ} (hsilence : silence < connectionTimeout)
    {message : String} {stream rest : List UInt8}
    (h : websocketReadFrame stream = .ok (some (0x1, bytes message), rest)) :
    websocketRound st env store node_id presented silence stream =
      some (.write 0x1 (bytes (websocketMessage st env store message node_id presented).1) true
        (websocketMessage st env store message node_id presented).2) := by
  unfold websocketRound
  rw [if_neg (Nat.not_le.mpr hsilence), h]
  dsimp only
  rw [if_pos rfl, fromUTF8_bytes]

/-! ## Sizes -/

/-- The bytes of a character that `esc` writes. -/
def escapedSize (c : Char) : ℕ :=
  if c = '"' ∨ c = '\\' ∨ c = '\n' ∨ c = '\r' ∨ c = '\t' then 2
  else if isControl c then 6
  else c.utf8Size

/-- The bytes of a text that `esc` writes. -/
def escapedLen (value : String) : ℕ := (value.toList.map escapedSize).sum

/-- Texts add up. -/
@[simp] theorem len_append (s t : String) : len (s ++ t) = len s + len t :=
  String.utf8ByteSize_append

/-- A hexadecimal digit takes one byte. -/
theorem utf8Size_digitChar {n : ℕ} (hn : n < 16) : (Nat.digitChar n).utf8Size = 1 := by
  interval_cases n <;> rfl

/-- One character of `esc`. -/
theorem sum_escChar (c : Char) : ((escChar c).map Char.utf8Size).sum = escapedSize c := by
  unfold escChar escapedSize
  by_cases hplain : c = '"' ∨ c = '\\' ∨ c = '\n' ∨ c = '\r' ∨ c = '\t'
  · rw [if_pos hplain]
    obtain rfl | rfl | rfl | rfl | rfl := hplain <;> rfl
  · rw [if_neg hplain]
    simp only [not_or] at hplain
    rw [if_neg hplain.1, if_neg hplain.2.1, if_neg hplain.2.2.1, if_neg hplain.2.2.2.1,
      if_neg hplain.2.2.2.2]
    by_cases hcontrol : isControl c = true
    · -- Control characters are below U+00A0, so two digits are enough.
      have hsmall : c.toNat / 16 < 16 := by
        unfold isControl at hcontrol
        simp only [Bool.or_eq_true, Bool.and_eq_true, decide_eq_true_eq] at hcontrol
        omega
      have hhigh := utf8Size_digitChar hsmall
      have hlow := utf8Size_digitChar (Nat.mod_lt c.toNat (show 0 < 16 by omega))
      rw [if_pos hcontrol, if_pos hcontrol]
      simp only [List.map_cons, List.map_nil, List.sum_cons, List.sum_nil, hhigh, hlow]
      rfl
    · rw [if_neg hcontrol, if_neg hcontrol]
      exact Nat.add_zero _

/-- `esc` writes as many bytes as its characters take. -/
theorem len_esc (value : String) : len (esc value) = escapedLen value := by
  have hsum (cs : List Char) :
      ((cs.flatMap escChar).map Char.utf8Size).sum = (cs.map escapedSize).sum := by
    induction cs with
    | nil => rfl
    | cons c cs ih =>
      rw [List.flatMap_cons, List.map_append, List.sum_append, sum_escChar, ih, List.map_cons,
        List.sum_cons]
  rw [esc, len_ofList, hsum, escapedLen]

/-- A JSON string has two quotation marks. -/
@[simp] theorem len_quoted (value : String) : len (quoted value) = escapedLen value + 2 := by
  have hmark : len "\"" = 1 := rfl
  rw [quoted, len_append, len_append, len_esc, hmark]
  omega

/-- A text in hexadecimal is not escaped. -/
theorem escapedLen_hexEncodeBytes (bs : List UInt8) :
    escapedLen (hexEncodeBytes bs) = 2 * bs.length := by
  have hdigit {n : ℕ} (hn : n < 16) : escapedSize (Nat.digitChar n) = 1 := by
    interval_cases n <;> rfl
  have hbyte (b : UInt8) : ((hexByte b).map escapedSize).sum = 2 := by
    have hhigh := hdigit (show b.toNat / 16 < 16 by have := b.toNat_lt; omega)
    have hlow := hdigit (Nat.mod_lt b.toNat (show 0 < 16 by omega))
    rw [hexByte, List.map_cons, List.map_cons, List.map_nil, hhigh, hlow]
    rfl
  rw [escapedLen, hexEncodeBytes, String.toList_ofList]
  induction bs with
  | nil => rfl
  | cons b bs ih =>
    rw [List.flatMap_cons, List.map_append, List.sum_append, hbyte, ih, List.length_cons]
    omega

/-- The bytes of a JSON array of some items: one for each separator and each bracket. -/
theorem len_jsonArray {items : List String} (hsome : items ≠ []) :
    len (jsonArray items) = 1 + (items.map fun item => len item + 1).sum := by
  have hjoined (ls : List String) (hsome : ls ≠ []) :
      len (",".intercalate ls) + 1 = (ls.map fun item => len item + 1).sum := by
    induction ls with
    | nil => exact absurd rfl hsome
    | cons item rest ih =>
      cases rest with
      | nil =>
        have hone : ",".intercalate [item] = item := by simp
        rw [hone]
        rfl
      | cons item' rest =>
        have hmore : ",".intercalate (item :: item' :: rest) =
            item ++ "," ++ ",".intercalate (item' :: rest) := by
          simp
        have hseparator : len "," = 1 := rfl
        rw [hmore, len_append, len_append, hseparator, List.map_cons, List.sum_cons,
          ← ih (List.cons_ne_nil _ _)]
        omega
  have hopen : len "[" = 1 := rfl
  have hclose : len "]" = 1 := rfl
  rw [jsonArray, len_append, len_append, hopen, hclose, ← hjoined items hsome]
  omega

end NodeWe.ControlPlane
