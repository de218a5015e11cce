import Mathlib.Analysis.SpecialFunctions.Pow.Real
import Mathlib.Data.Nat.Nth
import Mathlib.Data.Nat.Prime.Basic
import NodeWe.Bits

/-!
# The secure hash standard

SHA-256 as FIPS 180-4 specifies it, on bit strings, and the keyed hash of RFC 2104 over any hash.
The section numbers are those of FIPS 180-4. The standard's constants are the first bits of square
and cube roots of primes, and stay that here (`rootBits`); `rootBits_eq` says how to check a table
of them.
-/

namespace NodeWe.SecureHash

open Bits

/-- A word. -/
abbrev Word := BitVec 32

/-! ## Functions (4.1.2) -/

/-- `ROTR`. -/
def rotr (n : ℕ) (x : Word) : Word := (x >>> n) ||| (x <<< (32 - n))

/-- `Ch`. -/
def ch (x y z : Word) : Word := (x &&& y) ^^^ (~~~x &&& z)

/-- `Maj`. -/
def maj (x y z : Word) : Word := (x &&& y) ^^^ (x &&& z) ^^^ (y &&& z)

/-- `Σ₀`. -/
def bigSigma0 (x : Word) : Word := rotr 2 x ^^^ rotr 13 x ^^^ rotr 22 x

/-- `Σ₁`. -/
def bigSigma1 (x : Word) : Word := rotr 6 x ^^^ rotr 11 x ^^^ rotr 25 x

/-- `σ₀`. -/
def smallSigma0 (x : Word) : Word := rotr 7 x ^^^ rotr 18 x ^^^ (x >>> 3)

/-- `σ₁`. -/
def smallSigma1 (x : Word) : Word := rotr 17 x ^^^ rotr 19 x ^^^ (x >>> 10)

/-! ## Constants (4.2.2 and 5.3.3) -/

/-- The first 32 bits of the fractional part of the `n`-th root of a number. -/
noncomputable def rootBits (n p : ℕ) : Word :=
  BitVec.ofNat 32 ⌊Int.fract ((p : ℝ) ^ (n : ℝ)⁻¹) * 2^32⌋₊

/-- The constants of the rounds, from the cube roots of the first primes. -/
noncomputable def roundConstant (t : ℕ) : Word := rootBits 3 (Nat.nth Nat.Prime t)

/-- The initial hash value, from the square roots of the first primes. -/
noncomputable def initialWord (j : ℕ) : Word := rootBits 2 (Nat.nth Nat.Prime j)

/-! ## Preprocessing (5.1.1 and 5.2.1) -/

/-- A message can be padded with zeros. -/
theorem exists_zeroCount (length : ℕ) : ∃ k, (length + 1 + k) % 512 = 448 :=
  ⟨(959 - length % 512) % 512, by omega⟩

/-- The number of zeros: the smallest that does. -/
def zeroCount (length : ℕ) : ℕ := Nat.find (exists_zeroCount length)

/-- The padded message: the message, a one, the zeros, and the length in 64 bits. -/
def pad (message : List Bool) : List Bool :=
  message ++ true :: List.replicate (zeroCount message.length) false ++ ofNat 64 message.length

/-- The words of a block. -/
def blockWord (block : List Bool) (t : ℕ) : Word :=
  BitVec.ofNat 32 (toNat ((parts 32 block).getD t []))

/-! ## Computation (6.2.2) -/

/-- The message schedule, from the words of the block. -/
def schedule (word : ℕ → Word) (t : ℕ) : Word :=
  if t < 16 then word t
  else smallSigma1 (schedule word (t - 2)) + schedule word (t - 7) +
    smallSigma0 (schedule word (t - 15)) + schedule word (t - 16)

/-- The working variables. -/
structure Variables where
  a : Word
  b : Word
  c : Word
  d : Word
  e : Word
  f : Word
  g : Word
  h : Word

/-- A round, on its constant and its word of the schedule. -/
def round (v : Variables) (k w : Word) : Variables :=
  let t1 := v.h + bigSigma1 v.e + ch v.e v.f v.g + k + w
  let t2 := bigSigma0 v.a + maj v.a v.b v.c
  ⟨t1 + t2, v.a, v.b, v.c, v.d + t1, v.e, v.f, v.g⟩

/-- The 64 rounds on a block. -/
noncomputable def rounds (v : Variables) (block : List Bool) : Variables :=
  (List.range 64).foldl (fun v t => round v (roundConstant t) (schedule (blockWord block) t)) v

/-- A block worked into the hash value. -/
noncomputable def compress (hash : Variables) (block : List Bool) : Variables :=
  let v := rounds hash block
  ⟨v.a + hash.a, v.b + hash.b, v.c + hash.c, v.d + hash.d, v.e + hash.e, v.f + hash.f,
    v.g + hash.g, v.h + hash.h⟩

/-- The initial hash value. -/
noncomputable def initialHash : Variables :=
  ⟨initialWord 0, initialWord 1, initialWord 2, initialWord 3, initialWord 4, initialWord 5,
    initialWord 6, initialWord 7⟩

/-- The words of a hash value, in order. -/
def Variables.bits (v : Variables) : List Bool :=
  [v.a, v.b, v.c, v.d, v.e, v.f, v.g, v.h].flatMap fun word => ofNat 32 word.toNat

/-- SHA-256 of a bit string. -/
noncomputable def sha256 (message : List Bool) : List Bool :=
  ((parts 512 (pad message)).foldl compress initialHash).bits

/-- SHA-256 of bytes. -/
noncomputable def sha256Bytes (message : List UInt8) : List UInt8 :=
  toBytes (sha256 (ofBytes message))

/-! ## The keyed hash (RFC 2104) -/

/-- HMAC over a hash with blocks of `size` bytes. -/
def hmac (hash : List UInt8 → List UInt8) (size : ℕ) (key text : List UInt8) : List UInt8 :=
  let short := if key.length > size then hash key else key
  let block := short ++ List.replicate (size - short.length) 0
  let opad := List.replicate size 0x5C
  let ipad := List.replicate size 0x36
  hash (block.zipWith (· ^^^ ·) opad ++ hash (block.zipWith (· ^^^ ·) ipad ++ text))

/-! ## The schedule -/

section Schedule

variable (word : ℕ → Word) {t : ℕ}

/-- The first words are those of the block. -/
theorem schedule_of_lt (h : t < 16) : schedule word t = word t := by
  rw [schedule, if_pos h]

/-- The others come from words before them. -/
theorem schedule_of_le (h : 16 ≤ t) : schedule word t =
    smallSigma1 (schedule word (t - 2)) + schedule word (t - 7) +
      smallSigma0 (schedule word (t - 15)) + schedule word (t - 16) := by
  rw [schedule, if_neg (by omega)]

end Schedule

/-! ## Padding -/

/-- The number of zeros as a formula. -/
theorem zeroCount_eq (length : ℕ) : zeroCount length = (959 - length % 512) % 512 := by
  rw [zeroCount, Nat.find_eq_iff]
  refine ⟨by omega, fun k hk => ?_⟩
  omega

/-! ## Checking constants -/

/-- The bits of a root, from a number between whose powers the radicand is. -/
theorem rootBits_eq {n p whole bits : ℕ} (hn : n ≠ 0) (hbits : bits < 2^32)
    (hle : (whole * 2^32 + bits)^n ≤ p * (2^32)^n)
    (hlt : p * (2^32)^n < (whole * 2^32 + bits + 1)^n) :
    rootBits n p = BitVec.ofNat 32 bits := by
  have hroot : ((p : ℝ) ^ (n : ℝ)⁻¹)^n = p := Real.rpow_inv_natCast_pow (Nat.cast_nonneg p) hn
  have hnonneg : (0 : ℝ) ≤ (p : ℝ) ^ (n : ℝ)⁻¹ := Real.rpow_nonneg (Nat.cast_nonneg p) _
  unfold rootBits
  generalize (p : ℝ) ^ (n : ℝ)⁻¹ = root at hroot hnonneg ⊢
  -- The scaled root lies between the number and its successor.
  have hbelow : (whole * 2^32 + bits : ℝ) ≤ root * 2^32 := by
    refine le_of_pow_le_pow_left₀ hn (by positivity) ?_
    rw [mul_pow, hroot]
    exact_mod_cast hle
  have habove : root * 2^32 < whole * 2^32 + bits + 1 := by
    refine lt_of_pow_lt_pow_left₀ n (by positivity) ?_
    rw [mul_pow, hroot]
    exact_mod_cast hlt
  have hbits' : (bits : ℝ) + 1 ≤ 2^32 := by exact_mod_cast hbits
  have hpos : (0 : ℝ) ≤ bits := Nat.cast_nonneg bits
  have hfloor : ⌊root⌋ = (whole : ℤ) := by
    rw [Int.floor_eq_iff]
    push_cast
    constructor <;> linarith
  have hfract : Int.fract root = root - whole := by
    rw [Int.fract, hfloor, Int.cast_natCast]
  have hdigits : ⌊Int.fract root * 2^32⌋₊ = bits := by
    rw [hfract, Nat.floor_eq_iff (by linarith)]
    constructor <;> linarith
  rw [hdigits]

/-- The numbers with a property, counted in the list of those below a bound. -/
theorem nth_of_filter {P : ℕ → Prop} [DecidablePred P] {bound i n : ℕ}
    (h : ((List.range bound).filter P)[i]? = some n) : Nat.nth P i = n := by
  obtain ⟨hi, hget⟩ := List.getElem?_eq_some_iff.mp h
  have hmem := List.getElem_mem hi
  rw [hget, List.mem_filter, List.mem_range, decide_eq_true_eq] at hmem
  obtain ⟨hbound, hn⟩ := hmem
  -- The number stands behind those that are smaller.
  have hsplit : (List.range bound).filter P = (List.range n).filter P ++
      n :: ((List.range (bound - (n + 1))).map (n + 1 + ·)).filter P := by
    have hrange : List.range bound =
        List.range n ++ n :: (List.range (bound - (n + 1))).map (n + 1 + ·) := by
      have hsum : bound = n + 1 + (bound - (n + 1)) := by omega
      rw [List.append_cons, ← List.range_succ, ← List.range_add, ← hsum]
    rw [hrange, List.filter_append, List.filter_cons_of_pos (by simpa using hn)]
  have hcount : ((List.range n).filter P).length = Nat.count P n := by
    rw [Nat.count, List.countP_eq_length_filter]
  have hplace : ((List.range bound).filter P)[Nat.count P n]? = some n := by
    rw [hsplit, ← hcount, List.getElem?_append_right le_rfl, Nat.sub_self, List.getElem?_cons_zero]
  have hnodup : ((List.range bound).filter P).Nodup := List.nodup_range.filter _
  have hindex : i = Nat.count P n :=
    (List.getElem?_inj hi hnodup).mp (h.trans hplace.symm)
  rw [hindex, Nat.nth_count hn]

end NodeWe.SecureHash
