import NodeWe.Text

/-!
# Digests and encodings

The control plane's own SHA-256, HMAC, hexadecimal and base64url code. `sha256` follows the source
word by word: the padded message is cut into 64-byte chunks, each extended to 64 words and folded
into the eight-word state by 64 rounds.
-/

namespace NodeWe

open Text

/-! ## SHA-256 -/

/-- The round constants of `sha256`. -/
def roundConstants : List UInt32 :=
  [0x428a2f98, 0x71374491, 0xb5c0fbcf, 0xe9b5dba5, 0x3956c25b, 0x59f111f1, 0x923f82a4,
    0xab1c5ed5, 0xd807aa98, 0x12835b01, 0x243185be, 0x550c7dc3, 0x72be5d74, 0x80deb1fe,
    0x9bdc06a7, 0xc19bf174, 0xe49b69c1, 0xefbe4786, 0x0fc19dc6, 0x240ca1cc, 0x2de92c6f,
    0x4a7484aa, 0x5cb0a9dc, 0x76f988da, 0x983e5152, 0xa831c66d, 0xb00327c8, 0xbf597fc7,
    0xc6e00bf3, 0xd5a79147, 0x06ca6351, 0x14292967, 0x27b70a85, 0x2e1b2138, 0x4d2c6dfc,
    0x53380d13, 0x650a7354, 0x766a0abb, 0x81c2c92e, 0x92722c85, 0xa2bfe8a1, 0xa81a664b,
    0xc24b8b70, 0xc76c51a3, 0xd192e819, 0xd6990624, 0xf40e3585, 0x106aa070, 0x19a4c116,
    0x1e376c08, 0x2748774c, 0x34b0bcb5, 0x391c0cb3, 0x4ed8aa4a, 0x5b9cca4f, 0x682e6ff3,
    0x748f82ee, 0x78a5636f, 0x84c87814, 0x8cc70208, 0x90befffa, 0xa4506ceb, 0xbef9a3f7,
    0xc67178f2]

/-- The eight working words of SHA-256. -/
structure HashWords where
  a : UInt32
  b : UInt32
  c : UInt32
  d : UInt32
  e : UInt32
  f : UInt32
  g : UInt32
  h : UInt32

/-- The initial words of `sha256`. -/
def initialHash : HashWords :=
  ⟨0x6a09e667, 0xbb67ae85, 0x3c6ef372, 0xa54ff53a, 0x510e527f, 0x9b05688c, 0x1f83d9ab, 0x5be0cd19⟩

/-- `u32::rotate_right`, for a distance strictly between 0 and 32. -/
def rotateRight (x n : UInt32) : UInt32 := (x >>> n) ||| (x <<< (32 - n))

/-- The big-endian 32-bit words of a list of bytes. -/
def words : List UInt8 → List UInt32
  | b0 :: b1 :: b2 :: b3 :: rest =>
    ((b0.toUInt32 <<< 24) ||| (b1.toUInt32 <<< 16) ||| (b2.toUInt32 <<< 8) ||| b3.toUInt32) ::
      words rest
  | _ => []

/-- The message schedule: `n` more words, each from those 16, 15, 7, and 2 places before it. -/
def extendWords : ℕ → List UInt32 → List UInt32
  | 0, w => w
  | n + 1, w =>
    let back (j : ℕ) := w.getD (w.length - j) 0
    let s0 := rotateRight (back 15) 7 ^^^ rotateRight (back 15) 18 ^^^ (back 15 >>> 3)
    let s1 := rotateRight (back 2) 17 ^^^ rotateRight (back 2) 19 ^^^ (back 2 >>> 10)
    extendWords n (w ++ [back 16 + s0 + back 7 + s1])

/-- One round of `sha256`, on a round constant and a word of the schedule. -/
def hashRound (s : HashWords) (kw : UInt32 × UInt32) : HashWords :=
  let s1 := rotateRight s.e 6 ^^^ rotateRight s.e 11 ^^^ rotateRight s.e 25
  let choice := (s.e &&& s.f) ^^^ (~~~s.e &&& s.g)
  let temp1 := s.h + s1 + choice + kw.1 + kw.2
  let s0 := rotateRight s.a 2 ^^^ rotateRight s.a 13 ^^^ rotateRight s.a 22
  let majority := (s.a &&& s.b) ^^^ (s.a &&& s.c) ^^^ (s.b &&& s.c)
  let temp2 := s0 + majority
  ⟨temp1 + temp2, s.a, s.b, s.c, s.d + temp1, s.e, s.f, s.g⟩

/-- One chunk of 64 bytes folded into the state. -/
def hashChunk (s : HashWords) (chunk : List UInt8) : HashWords :=
  let r := (roundConstants.zip (extendWords 48 (words chunk))).foldl hashRound s
  ⟨s.a + r.a, s.b + r.b, s.c + r.c, s.d + r.d, s.e + r.e, s.f + r.f, s.g + r.g, s.h + r.h⟩

/-- The `width` low bytes of a number, most significant first. -/
def bigEndian (width n : ℕ) : List UInt8 :=
  (List.range width).map fun i => UInt8.ofNat (n / 256^(width - 1 - i))

/-- The loop of `sha256` that pushes zeros, at most `fuel` of them. -/
def pushZeros : ℕ → List UInt8 → List UInt8
  | 0, message => message
  | fuel + 1, message =>
    if (message.length + 8) % 64 = 0 then message else pushZeros fuel (message ++ [0])

/-- The padded message: the data, `0x80`, zeros and the length in bits. -/
def padded (data : List UInt8) : List UInt8 :=
  pushZeros 64 (data ++ [0x80]) ++ bigEndian 8 (data.length * 8)

/-- `chunks_exact(64)` on a list, at most `fuel` chunks. -/
def chunks64 : ℕ → List UInt8 → List (List UInt8)
  | 0, _ => []
  | fuel + 1, s => if s.length < 64 then [] else s.take 64 :: chunks64 fuel (s.drop 64)

/-- `sha256`. -/
def sha256 (data : List UInt8) : List UInt8 :=
  let s := (chunks64 (data.length + 1) (padded data)).foldl hashChunk initialHash
  [s.a, s.b, s.c, s.d, s.e, s.f, s.g, s.h].flatMap fun w => bigEndian 4 w.toNat

/-- `hmac_sha256`. -/
def hmacSha256 (key message : List UInt8) : List UInt8 :=
  let short := if key.length > 64 then sha256 key else key
  let block := short ++ List.replicate (64 - short.length) 0
  let inner := block.map (· ^^^ 0x36)
  let outer := block.map (· ^^^ 0x5c)
  sha256 (outer ++ sha256 (inner ++ message))

/-- A hash has 32 bytes. -/
theorem length_sha256 (data : List UInt8) : (sha256 data).length = 32 := by
  simp [sha256, bigEndian]

/-! ## Hexadecimal -/

/-- One byte as two lower-case hexadecimal digits. -/
def hexByte (b : UInt8) : List Char := [(b.toNat / 16).digitChar, (b.toNat % 16).digitChar]

/-- `hex_encode_bytes`. -/
def hexEncodeBytes (value : List UInt8) : String := String.ofList (value.flatMap hexByte)

/-- `hex_encode`. -/
def hexEncode (value : String) : String := hexEncodeBytes (bytes value)

/-- The value of a hexadecimal digit, of either case. -/
def hexDigit (b : UInt8) : Option ℕ :=
  if 48 ≤ b ∧ b ≤ 57 then some (b.toNat - 48)
  else if 97 ≤ b ∧ b ≤ 102 then some (b.toNat - 87)
  else if 65 ≤ b ∧ b ≤ 70 then some (b.toNat - 55)
  else none

/-- `u8::from_str_radix(_, 16)` on two bytes: two digits, or a plus sign and one digit. -/
def hexPair (hi lo : UInt8) : Option UInt8 :=
  if hi = 43 then (hexDigit lo).map UInt8.ofNat
  else (hexDigit hi).bind fun h => (hexDigit lo).map fun l => UInt8.ofNat (16 * h + l)

/-- What slicing a `str` inside a character does. -/
inductive Panic
  | notCharBoundary

/-- The pairs of bytes of a string of even length, decoded in order up to the first failure. The
source slices the text two bytes at a time, so a pair that ends inside a character panics: the
next byte is then a continuation byte. -/
def hexPairs : List UInt8 → Except Panic (Option (List UInt8))
  | hi :: lo :: rest =>
    if rest.head?.any (fun b => 0x80 ≤ b ∧ b < 0xC0) then .error .notCharBoundary
    else
      match hexPair hi lo with
      | none => .ok none
      | some b => (hexPairs rest).map fun decoded => decoded.map (b :: ·)
  | _ => .ok (some [])

/-- `hex_decode`. -/
def hexDecode (value : String) : Except Panic (Option String) :=
  if len value % 2 ≠ 0 then .ok none
  else (hexPairs (bytes value)).map fun decoded =>
    decoded.bind fun bs => String.fromUTF8? ⟨bs.toArray⟩

/-- `hex_decode_bytes`. -/
def hexDecodeBytes (value : String) : Except Panic (Option (List UInt8)) :=
  if value = "" ∨ len value % 2 ≠ 0 then .ok none else hexPairs (bytes value)

/-- A hexadecimal digit is one byte, and reads back. -/
theorem hexDigit_digitChar (n : ℕ) (hn : n < 16) :
    ∃ x : UInt8, String.utf8EncodeChar n.digitChar = [x] ∧ hexDigit x = some n ∧ x ≠ 43 ∧
      ¬(0x80 ≤ x ∧ x < 0xC0) := by
  interval_cases n <;> exact ⟨_, rfl, by decide⟩

/-- A byte in hexadecimal is two bytes that read back. -/
theorem hexPair_hexByte (b : UInt8) :
    ∃ x y : UInt8, (hexByte b).flatMap String.utf8EncodeChar = [x, y] ∧ hexPair x y = some b ∧
      ¬(0x80 ≤ x ∧ x < 0xC0) := by
  have hb := b.toNat_lt
  obtain ⟨x, hx, hxd, hplus, hxc⟩ := hexDigit_digitChar (b.toNat / 16) (by omega)
  obtain ⟨y, hy, hyd, -, -⟩ := hexDigit_digitChar (b.toNat % 16) (by omega)
  refine ⟨x, y, by rw [hexByte, List.flatMap_cons, List.flatMap_cons, hx, hy]; rfl, ?_, hxc⟩
  rw [hexPair, if_neg hplus, hxd, Option.bind_some, hyd, Option.map_some, Option.some.injEq,
    show 16 * (b.toNat / 16) + b.toNat % 16 = b.toNat by omega]
  exact UInt8.ofNat_toNat

/-- Bytes in hexadecimal read back. -/
theorem hexPairs_flatMap (bs : List UInt8) :
    hexPairs ((bs.flatMap hexByte).flatMap String.utf8EncodeChar) = .ok (some bs) := by
  induction bs with
  | nil => rfl
  | cons b bs ih =>
    obtain ⟨x, y, hxy, hpair, -⟩ := hexPair_hexByte b
    rw [List.flatMap_cons, List.flatMap_append, hxy, List.cons_append, List.cons_append,
      List.nil_append, hexPairs, hpair, ih]
    -- The next pair starts with a digit, so this one does not end inside a character.
    rw [if_neg]
    · rfl
    · cases bs with
      | nil => exact Bool.false_ne_true
      | cons b' bs =>
        obtain ⟨x', y', hxy', -, hcont⟩ := hexPair_hexByte b'
        rw [List.flatMap_cons, List.flatMap_append, hxy']
        simpa using hcont

/-- Bytes in hexadecimal are twice as many. -/
theorem length_flatMap_hexByte (bs : List UInt8) :
    ((bs.flatMap hexByte).flatMap String.utf8EncodeChar).length = 2 * bs.length := by
  induction bs with
  | nil => rfl
  | cons b bs ih =>
    obtain ⟨x, y, hxy, -, -⟩ := hexPair_hexByte b
    rw [List.flatMap_cons, List.flatMap_append, hxy, List.length_append, ih, List.length_cons,
      List.length_cons, List.length_nil, List.length_cons]
    omega

/-- The bytes of a hexadecimal text. -/
theorem bytes_hexEncodeBytes (bs : List UInt8) :
    bytes (hexEncodeBytes bs) = (bs.flatMap hexByte).flatMap String.utf8EncodeChar := by
  rw [hexEncodeBytes, bytes_eq_flatMap, String.toList_ofList]

/-- A string in hexadecimal reads back. -/
theorem hexDecode_hexEncode (s : String) : hexDecode (hexEncode s) = .ok (some s) := by
  have heven : ¬len (hexEncode s) % 2 ≠ 0 := by
    rw [len_eq_length, hexEncode, bytes_hexEncodeBytes, length_flatMap_hexByte]
    omega
  rw [hexDecode, if_neg heven, hexEncode, bytes_hexEncodeBytes, hexPairs_flatMap]
  exact congrArg Except.ok (fromUTF8_bytes s)

/-! ## Base64url -/

/-- The digit that a byte of unpadded base64url stands for. -/
def base64urlDigit (b : UInt8) : Option ℕ :=
  if 65 ≤ b ∧ b ≤ 90 then some (b.toNat - 65)
  else if 97 ≤ b ∧ b ≤ 122 then some (b.toNat - 97 + 26)
  else if 48 ≤ b ∧ b ≤ 57 then some (b.toNat - 48 + 52)
  else if b = 45 then some 62
  else if b = 95 then some 63
  else none

/-- The loop of `base64url_decode`: the bits of `accumulator` that are not yet emitted, and their
number. -/
def base64urlLoop : List UInt8 → (accumulator bits : ℕ) → Option (List UInt8 × ℕ)
  | [], _, bits => some ([], bits)
  | b :: rest, accumulator, bits =>
    (base64urlDigit b).bind fun digit =>
      let accumulator := accumulator * 64 + digit
      let bits := bits + 6
      if bits ≥ 8 then
        (base64urlLoop rest (accumulator % 2^(bits - 8)) (bits - 8)).map fun (out, left) =>
          (UInt8.ofNat (accumulator / 2^(bits - 8)) :: out, left)
      else base64urlLoop rest accumulator bits

/-- `base64url_decode`. -/
def base64urlDecode (value : String) : Option (List UInt8) :=
  if value = "" ∨ '=' ∈ value.toList then none
  else (base64urlLoop (bytes value) 0 0).bind fun (out, bits) =>
    if bits < 6 then some out else none

end NodeWe
