import NodeWe.Text

/-!
# Bytes on the wire

How a stream of bytes arrives. A reader with a buffer gets it in pieces, however the network cuts
it, and gives up where it grows beyond a limit. A WebSocket frame is a first byte with the opcode, a
length of one, three or nine bytes, a mask where the sender masks, and the payload. What one side
writes, the other side reads back (`readFrame_writeFrame`).
-/

namespace NodeWe.Wire

/-! ## Pieces of a stream -/

section Pieces

variable {β : Type}

/-- The pieces in which a reader with a buffer gets a stream. An empty read is its end. -/
structure PiecesOf (buffer : ℕ) (stream : List β) (pieces : List (List β)) : Prop where
  whole : pieces.flatten = stream
  sized : ∀ piece ∈ pieces, piece ≠ [] ∧ piece.length ≤ buffer

/-- Reads a stream to its end, unless it grows beyond a limit. -/
def readBounded (limit : ℕ) : List β → List (List β) → Option (List β)
  | bytes, [] => some bytes
  | bytes, piece :: rest =>
    if bytes.length + piece.length > limit then none else readBounded limit (bytes ++ piece) rest

/-- A stream is read to its end if it is within the limit, however it is cut. -/
theorem readBounded_eq {limit : ℕ} {bytes : List β} (hbytes : bytes.length ≤ limit)
    (pieces : List (List β)) :
    readBounded limit bytes pieces =
      if bytes.length + pieces.flatten.length ≤ limit then some (bytes ++ pieces.flatten)
      else none := by
  induction pieces generalizing bytes with
  | nil =>
    rw [readBounded, List.flatten_nil, List.append_nil, List.length_nil, if_pos (by omega)]
  | cons piece rest ih =>
    rw [readBounded, List.flatten_cons, List.length_append]
    by_cases hlong : bytes.length + piece.length > limit
    · rw [if_pos hlong, if_neg (by omega)]
    · have hmore : (bytes ++ piece).length ≤ limit := by
        rw [List.length_append]
        omega
      rw [if_neg hlong, ih hmore, List.length_append, List.append_assoc, Nat.add_assoc]

end Pieces

/-! ## Numbers -/

/-- `to_be_bytes`, for a number of some bytes. -/
def beBytes : ℕ → ℕ → List UInt8
  | 0, _ => []
  | width + 1, n => beBytes width (n / 256) ++ [UInt8.ofNat n]

/-- `from_be_bytes`. -/
def ofBeBytes (bs : List UInt8) : ℕ := bs.foldl (fun n b => n * 256 + b.toNat) 0

/-- A number has as many bytes as its type. -/
@[simp] theorem length_beBytes (width n : ℕ) : (beBytes width n).length = width := by
  induction width generalizing n with
  | zero => rfl
  | succ width ih => rw [beBytes, List.length_append, ih, List.length_singleton]

/-- A number that fits is read back. -/
theorem ofBeBytes_beBytes {width n : ℕ} (hn : n < 256^width) :
    ofBeBytes (beBytes width n) = n := by
  induction width generalizing n with
  | zero =>
    have hzero : n = 0 := by omega
    rw [hzero]
    rfl
  | succ width ih =>
    have hhigh : n / 256 < 256^width := by
      rw [Nat.div_lt_iff_lt_mul (by omega), ← Nat.pow_succ]
      exact hn
    have hlow : (UInt8.ofNat n).toNat = n % 256 := UInt8.toNat_ofNat'
    have hread := ih hhigh
    unfold ofBeBytes at hread ⊢
    rw [beBytes, List.foldl_append, hread, List.foldl_cons, List.foldl_nil, hlow]
    omega

/-- `read_exact`: the next bytes of a stream and what comes after them. -/
def readExact (n : ℕ) (stream : List UInt8) : Option (List UInt8 × List UInt8) :=
  if n ≤ stream.length then some (stream.take n, stream.drop n) else none

/-- Bytes that come next are read. -/
theorem readExact_append (bs rest : List UInt8) :
    readExact bs.length (bs ++ rest) = some (bs, rest) := by
  have hlength : bs.length ≤ (bs ++ rest).length := by
    rw [List.length_append]
    omega
  rw [readExact, if_pos hlength, List.take_left, List.drop_left]

/-! ## Frames -/

/-- What is wrong with a frame. -/
inductive FrameError
  | tooLarge
  | fragmented
  | extensions
  | masking
  | truncated
  deriving DecidableEq

/-- The frames that both sides refuse: payloads over 1 MiB, and control frames over 125 bytes. -/
def frameTooLarge (opcode : UInt8) (length : ℕ) : Bool :=
  decide (length > 1024 * 1024) || (decide (opcode ≥ 8) && decide (length > 125))

/-- The length of a payload, with the bit that tells whether there is a mask. -/
def lengthBytes (mask_bit : UInt8) (length : ℕ) : List UInt8 :=
  if length ≤ 125 then [mask_bit ||| UInt8.ofNat length]
  else if length ≤ 65535 then (mask_bit ||| 126) :: beBytes 2 length
  else (mask_bit ||| 127) :: beBytes 8 length

/-- A payload under a mask. -/
def masked (mask : List UInt8) (payload : List UInt8) : List UInt8 :=
  payload.mapIdx fun index byte => byte ^^^ mask.getD (index % 4) 0

/-- A frame as it is written, under a mask where the sender has to mask. -/
def writeFrame (mask : Option (List UInt8)) (opcode : UInt8) (payload : List UInt8) :
    Except FrameError (List UInt8) :=
  if frameTooLarge opcode payload.length then .error .tooLarge
  else
    match mask with
    | none => .ok ((0x80 ||| (opcode &&& 0x0F)) :: lengthBytes 0 payload.length ++ payload)
    | some mask =>
      .ok ((0x80 ||| (opcode &&& 0x0F)) :: lengthBytes 0x80 payload.length ++ mask ++
        masked mask payload)

/-- The length that a code of seven bits stands for. -/
def readLength (code : UInt8) (stream : List UInt8) : Option (ℕ × List UInt8) :=
  if code ≤ 125 then some (code.toNat, stream)
  else (readExact (if code = 126 then 2 else 8) stream).map fun (bs, rest) => (ofBeBytes bs, rest)

/-- The payload of a frame, behind the mask where there is one. -/
def readPayload (is_masked : Bool) (length : ℕ) (stream : List UInt8) :
    Option (List UInt8 × List UInt8) :=
  if is_masked then
    (readExact 4 stream).bind fun (mask, stream) =>
      (readExact length stream).map fun (payload, rest) => (masked mask payload, rest)
  else readExact length stream

/-- A frame as it is read by a side that wants masks or refuses them: its opcode and its payload,
unless the stream is over, and the rest of the stream. -/
def readFrame (is_masked : Bool) :
    List UInt8 → Except FrameError (Option (UInt8 × List UInt8) × List UInt8)
  | [] => .ok (none, [])
  | [_] => .error .truncated
  | first :: second :: stream =>
    if first &&& 0x80 = 0 then .error .fragmented
    else if first &&& 0x70 ≠ 0 then .error .extensions
    else if decide (second &&& 0x80 ≠ 0) ≠ is_masked then .error .masking
    else
      match readLength (second &&& 0x7F) stream with
      | none => .error .truncated
      | some (length, stream) =>
        if frameTooLarge (first &&& 0x0F) length then .error .tooLarge
        else
          match readPayload is_masked length stream with
          | none => .error .truncated
          | some (payload, rest) => .ok (some (first &&& 0x0F, payload), rest)

/-- Masking twice is doing nothing. -/
theorem masked_masked (mask payload : List UInt8) :
    masked mask (masked mask payload) = payload := by
  refine List.ext_getElem (by simp [masked]) fun i _ _ => ?_
  simp [masked]

/-- A mask hides no byte. -/
@[simp] theorem length_masked (mask payload : List UInt8) :
    (masked mask payload).length = payload.length := by
  rw [masked, List.length_mapIdx]

/-- The first byte of a frame. -/
theorem firstByte {opcode : UInt8} (h : opcode < 16) :
    (0x80 ||| (opcode &&& 0x0F)) &&& 0x80 ≠ 0 ∧ (0x80 ||| (opcode &&& 0x0F)) &&& 0x70 = 0 ∧
      (0x80 ||| (opcode &&& 0x0F)) &&& 0x0F = opcode := by
  revert h
  obtain ⟨b⟩ := opcode
  revert b
  decide

/-- The length byte of a frame, with its code and the bit for the mask. -/
theorem lengthByte {code : UInt8} (h : code < 128) (is_masked : Bool) :
    decide (((if is_masked then 0x80 else 0) ||| code) &&& 0x80 ≠ 0) = is_masked ∧
      ((if is_masked then 0x80 else 0) ||| code) &&& 0x7F = code := by
  revert h is_masked
  obtain ⟨b⟩ := code
  revert b
  decide

/-- A number that is written with its width is read back. -/
theorem readExact_beBytes {width n : ℕ} (hn : n < 256^width) (rest : List UInt8) :
    (readExact width (beBytes width n ++ rest)).map (fun (bs, rest) => (ofBeBytes bs, rest)) =
      some (n, rest) := by
  have hread := readExact_append (beBytes width n) rest
  rw [length_beBytes] at hread
  rw [hread, Option.map_some]
  show some (ofBeBytes (beBytes width n), rest) = some (n, rest)
  rw [ofBeBytes_beBytes hn]

/-- The length of a payload is read back, and the bit for the mask with it. -/
theorem readLength_lengthBytes {length : ℕ} (hlength : length < 256^8) (is_masked : Bool)
    (rest : List UInt8) :
    ∃ second stream, lengthBytes (if is_masked then 0x80 else 0) length ++ rest =
        second :: stream ∧ decide (second &&& 0x80 ≠ 0) = is_masked ∧
      readLength (second &&& 0x7F) stream = some (length, rest) := by
  unfold lengthBytes
  by_cases hshort : length ≤ 125
  · have hcode : (UInt8.ofNat length).toNat = length := by
      rw [UInt8.toNat_ofNat']
      omega
    have hlt : UInt8.ofNat length < 128 := by
      rw [UInt8.lt_iff_toNat_lt, hcode]
      show length < 128
      omega
    have hbits := lengthByte hlt is_masked
    rw [if_pos hshort]
    refine ⟨_, _, rfl, hbits.1, ?_⟩
    have hle : UInt8.ofNat length ≤ 125 := by
      rw [UInt8.le_iff_toNat_le, hcode]
      exact hshort
    rw [hbits.2, readLength, if_pos hle, hcode]
    rfl
  · rw [if_neg hshort]
    by_cases hmiddle : length ≤ 65535
    · have hbits := lengthByte (show (126 : UInt8) < 128 by decide) is_masked
      rw [if_pos hmiddle]
      refine ⟨_, _, rfl, hbits.1, ?_⟩
      rw [hbits.2, readLength, if_neg (by decide), if_pos rfl]
      exact readExact_beBytes (by omega) rest
    · have hbits := lengthByte (show (127 : UInt8) < 128 by decide) is_masked
      rw [if_neg hmiddle]
      refine ⟨_, _, rfl, hbits.1, ?_⟩
      rw [hbits.2, readLength, if_neg (by decide), if_neg (by decide)]
      exact readExact_beBytes hlength rest

/-- A frame is written unless it is too large. -/
theorem writeFrame_ok_iff {mask : Option (List UInt8)} {opcode : UInt8} {payload : List UInt8} :
    (∃ frame, writeFrame mask opcode payload = .ok frame) ↔
      frameTooLarge opcode payload.length = false := by
  unfold writeFrame
  cases hlarge : frameTooLarge opcode payload.length with
  | true =>
    rw [if_pos rfl]
    exact ⟨nofun, nofun⟩
  | false =>
    rw [if_neg Bool.false_ne_true]
    cases mask with
    | none => exact iff_of_true ⟨_, rfl⟩ rfl
    | some mask => exact iff_of_true ⟨_, rfl⟩ rfl

/-- The bytes of a frame that is written. -/
theorem writeFrame_ok {mask : Option (List UInt8)} {opcode : UInt8} {payload frame : List UInt8}
    (h : writeFrame mask opcode payload = .ok frame) :
    frameTooLarge opcode payload.length = false ∧
      frame = (0x80 ||| (opcode &&& 0x0F)) ::
        (lengthBytes (if mask.isSome then 0x80 else 0) payload.length ++
          (mask.elim payload fun mask => mask ++ masked mask payload)) := by
  have hsmall := writeFrame_ok_iff.mp ⟨frame, h⟩
  refine ⟨hsmall, ?_⟩
  unfold writeFrame at h
  rw [hsmall, if_neg Bool.false_ne_true] at h
  cases mask with
  | none => exact (Except.ok.inj h).symm
  | some mask =>
    rw [← Except.ok.inj h, List.cons_append, List.cons_append, List.append_assoc]
    rfl

/-- A frame that is written is read back by the other side. -/
theorem readFrame_writeFrame {mask : Option (List UInt8)} (hmask : ∀ m ∈ mask, m.length = 4)
    {opcode : UInt8} (hopcode : opcode < 16) {payload frame : List UInt8}
    (h : writeFrame mask opcode payload = .ok frame) (rest : List UInt8) :
    readFrame mask.isSome (frame ++ rest) = .ok (some (opcode, payload), rest) := by
  obtain ⟨hsmall, rfl⟩ := writeFrame_ok h
  have hfirst := firstByte hopcode
  have hlength : payload.length < 256^8 := by
    unfold frameTooLarge at hsmall
    simp only [Bool.or_eq_false_iff, decide_eq_false_iff_not, not_lt] at hsmall
    omega
  obtain ⟨second, stream, hbytes, hbit, hread⟩ := readLength_lengthBytes hlength mask.isSome
    ((mask.elim payload fun mask => mask ++ masked mask payload) ++ rest)
  have hpayload : readPayload mask.isSome payload.length
      ((mask.elim payload fun mask => mask ++ masked mask payload) ++ rest) =
      some (payload, rest) := by
    cases mask with
    | none => exact readExact_append payload rest
    | some mask =>
      have hbehind := readExact_append (masked mask payload) rest
      have hbefore := readExact_append mask (masked mask payload ++ rest)
      rw [length_masked] at hbehind
      rw [hmask mask rfl] at hbefore
      show readPayload true payload.length (mask ++ masked mask payload ++ rest) = _
      rw [readPayload, if_pos rfl, List.append_assoc, hbefore, Option.bind_some]
      show (readExact payload.length (masked mask payload ++ rest)).map _ = _
      rw [hbehind, Option.map_some]
      show some (masked mask (masked mask payload), rest) = _
      rw [masked_masked]
  rw [List.cons_append, List.append_assoc, hbytes, readFrame, if_neg hfirst.1,
    if_neg (not_not.mpr hfirst.2.1), if_neg (not_not.mpr hbit), hread, hfirst.2.2]
  dsimp only
  rw [hsmall, if_neg Bool.false_ne_true, hpayload]

/-- What `read_exact` reads is as long as it asks for, and comes before the rest. -/
theorem readExact_some {n : ℕ} {stream bs rest : List UInt8}
    (h : readExact n stream = some (bs, rest)) : stream = bs ++ rest ∧ bs.length = n := by
  unfold readExact at h
  split_ifs at h with henough
  obtain ⟨rfl, rfl⟩ := Prod.mk.inj (Option.some.inj h)
  exact ⟨(List.take_append_drop n stream).symm, List.length_take_of_le henough⟩

/-- The length of a payload comes before the rest. -/
theorem readLength_some {code : UInt8} {length : ℕ} {stream rest : List UInt8}
    (h : readLength code stream = some (length, rest)) : ∃ read, stream = read ++ rest := by
  unfold readLength at h
  split_ifs at h with hshort
  · obtain ⟨-, rfl⟩ := Prod.mk.inj (Option.some.inj h)
    exact ⟨[], rfl⟩
  all_goals
    obtain ⟨⟨bs, rest'⟩, hread, hresult⟩ := Option.map_eq_some_iff.mp h
    obtain ⟨-, rfl⟩ := Prod.mk.inj hresult
    exact ⟨bs, (readExact_some hread).1⟩

/-- A payload is as long as its length says, and comes before the rest. -/
theorem readPayload_some {is_masked : Bool} {length : ℕ} {stream payload rest : List UInt8}
    (h : readPayload is_masked length stream = some (payload, rest)) :
    payload.length = length ∧ ∃ read, stream = read ++ rest := by
  unfold readPayload at h
  split_ifs at h with hmask
  · obtain ⟨⟨mask, behind⟩, hfour, hbehind⟩ := Option.bind_eq_some_iff.mp h
    obtain ⟨⟨hidden, rest'⟩, hread, hresult⟩ := Option.map_eq_some_iff.mp hbehind
    obtain ⟨rfl, rfl⟩ := Prod.mk.inj hresult
    have hmaskbytes := (readExact_some hfour).1
    obtain ⟨hbytes, hlength⟩ := readExact_some hread
    refine ⟨(length_masked mask hidden).trans hlength, mask ++ hidden, ?_⟩
    calc stream = mask ++ behind := hmaskbytes
      _ = mask ++ (hidden ++ rest') := by rw [← hbytes]
      _ = mask ++ hidden ++ rest' := (List.append_assoc _ _ _).symm
  · obtain ⟨hbytes, hlength⟩ := readExact_some h
    exact ⟨hlength, payload, hbytes⟩

/-- What a reader returns without an error: the end of a stream that is over, or a frame that is not
too large, from the beginning of the stream. -/
theorem readFrame_ok {is_masked : Bool} {stream rest : List UInt8}
    {frame : Option (UInt8 × List UInt8)} (h : readFrame is_masked stream = .ok (frame, rest)) :
    stream = [] ∧ frame = none ∧ rest = [] ∨
      ∃ opcode payload read, frame = some (opcode, payload) ∧ stream = read ++ rest ∧ read ≠ [] ∧
        frameTooLarge opcode payload.length = false := by
  match stream with
  | [] =>
    obtain ⟨rfl, rfl⟩ := Prod.mk.inj (Except.ok.inj h)
    exact .inl ⟨rfl, rfl, rfl⟩
  | [_] => cases h
  | first :: second :: stream =>
    rw [readFrame] at h
    split_ifs at h with hfinal hextensions hmasking
    cases hlength : readLength (second &&& 0x7F) stream with
    | none =>
      rw [hlength] at h
      cases h
    | some result =>
      obtain ⟨length, behind⟩ := result
      rw [hlength] at h
      dsimp only at h
      split_ifs at h with hlarge
      cases hpayload : readPayload is_masked length behind with
      | none =>
        rw [hpayload] at h
        cases h
      | some result =>
        obtain ⟨payload, rest'⟩ := result
        rw [hpayload] at h
        obtain ⟨rfl, rfl⟩ := Prod.mk.inj (Except.ok.inj h)
        obtain ⟨before, hbefore⟩ := readLength_some hlength
        obtain ⟨hsize, read, hread⟩ := readPayload_some hpayload
        refine .inr ⟨_, payload, first :: second :: (before ++ read), rfl, ?_, List.cons_ne_nil _ _, ?_⟩
        · rw [hbefore, hread]
          simp
        · rw [hsize]
          exact Bool.eq_false_iff.mpr hlarge

/-- Behind a frame there is less than before it. -/
theorem length_lt_of_readFrame {is_masked : Bool} {stream rest : List UInt8}
    {frame : UInt8 × List UInt8} (h : readFrame is_masked stream = .ok (some frame, rest)) :
    rest.length < stream.length := by
  rcases readFrame_ok h with ⟨-, hnone, -⟩ | ⟨_, _, read, -, hstream, hread, -⟩
  · cases hnone
  · rw [hstream, List.length_append]
    exact Nat.lt_add_of_pos_left (List.length_pos_iff.mpr hread)

/-- A text frame arrives exactly when its payload is within 1 MiB. -/
theorem frame_arrives_iff {mask : Option (List UInt8)} (hmask : ∀ m ∈ mask, m.length = 4)
    {payload : List UInt8} :
    (∃ frame, writeFrame mask 1 payload = .ok frame ∧
      ∀ rest, readFrame mask.isSome (frame ++ rest) = .ok (some (1, payload), rest)) ↔
      payload.length ≤ 1024 * 1024 := by
  have hsmall : frameTooLarge 1 payload.length = false ↔ payload.length ≤ 1024 * 1024 := by
    have hcontrol : decide ((1 : UInt8) ≥ 8) = false := by decide
    rw [frameTooLarge, hcontrol, Bool.false_and, Bool.or_false, decide_eq_false_iff_not, not_lt]
  rw [← hsmall, ← writeFrame_ok_iff]
  constructor
  · rintro ⟨frame, hwrite, -⟩
    exact ⟨frame, hwrite⟩
  · rintro ⟨frame, hwrite⟩
    exact ⟨frame, hwrite, readFrame_writeFrame hmask (by decide) hwrite⟩

end NodeWe.Wire
