import NodeWe.SecureHash
import NodeWe.NodeRuntime.Agent

/-!
# Digests that agree

The control plane hashes with code of its own, the agent with a third-party crate. Both compute the
standard's SHA-256: the control plane's padding, schedule and rounds are those of the standard, on
words in place of bit strings (`sha256_eq`), and so is its keyed hash (`hmacSha256_eq`).
-/

namespace NodeWe

open Bits SecureHash

/-! ## Constants -/

/-- Trial division by every smaller number. -/
def isPrime (n : ℕ) : Bool := 2 ≤ n && (List.range n).all fun m => m < 2 || n % m ≠ 0

/-- It finds the primes. -/
theorem isPrime_iff (n : ℕ) : isPrime n = true ↔ n.Prime := by
  rw [isPrime, Bool.and_eq_true, decide_eq_true_eq, List.all_eq_true, Nat.prime_def_lt']
  refine and_congr_right fun _ => forall_congr' fun m => ?_
  rw [List.mem_range, Bool.or_eq_true, decide_eq_true_eq, decide_eq_true_eq, Nat.dvd_iff_mod_eq_zero]
  constructor
  · intro h hm hlt
    exact (h hlt).resolve_left (by omega)
  · intro h hlt
    by_cases hm : m < 2
    · exact .inl hm
    · exact .inr (h (by omega) hlt)

/-- Whether a table has the first bits of the `n`-th roots of the primes below a bound. -/
def rootTable (n bound : ℕ) (table : List UInt32) : Bool :=
  (((List.range bound).filter isPrime).zip table).all fun (p, bits) =>
    (List.range bound).any fun whole =>
      (whole * 2^32 + bits.toNat)^n ≤ p * (2^32)^n && p * (2^32)^n < (whole * 2^32 + bits.toNat + 1)^n

/-- A table that has is made of the constants of the standard. -/
theorem rootBits_of_table {n bound t : ℕ} {table : List UInt32} {bits : UInt32} (hn : n ≠ 0)
    (h : rootTable n bound table = true)
    (hlength : table.length ≤ ((List.range bound).filter isPrime).length)
    (ht : table[t]? = some bits) : rootBits n (Nat.nth Nat.Prime t) = bits.toBitVec := by
  have hbound := (List.getElem?_eq_some_iff.mp ht).1
  have hp := List.getElem?_eq_getElem (l := (List.range bound).filter isPrime)
    (hbound.trans_le hlength)
  generalize ((List.range bound).filter isPrime)[t] = p at hp
  have hfilter : (List.range bound).filter Nat.Prime = (List.range bound).filter isPrime := by
    refine List.filter_congr fun m _ => ?_
    rw [Bool.eq_iff_iff, decide_eq_true_eq, isPrime_iff]
  have hprime : Nat.nth Nat.Prime t = p := by
    rw [← hfilter] at hp
    exact nth_of_filter hp
  have hentry : (p, bits) ∈ ((List.range bound).filter isPrime).zip table := by
    refine List.mem_of_getElem? (i := t) ?_
    rw [List.getElem?_zip_eq_some]
    exact ⟨hp, ht⟩
  obtain ⟨whole, -, hroot⟩ := List.any_eq_true.mp (List.all_eq_true.mp h _ hentry)
  rw [Bool.and_eq_true, decide_eq_true_eq, decide_eq_true_eq] at hroot
  rw [hprime, rootBits_eq hn bits.toNat_lt hroot.1 hroot.2]
  exact BitVec.eq_of_toNat_eq (by simp)

/-- The initial words of the source, in order. -/
def initialWords : List UInt32 :=
  [0x6a09e667, 0xbb67ae85, 0x3c6ef372, 0xa54ff53a, 0x510e527f, 0x9b05688c, 0x1f83d9ab, 0x5be0cd19]

/-- Both tables have the bits of the roots. -/
theorem tables_checked :
    rootTable 3 312 roundConstants = true ∧ rootTable 2 20 initialWords = true ∧
      ((List.range 312).filter isPrime).length = 64 ∧
      ((List.range 20).filter isPrime).length = 8 := by
  decide +kernel

/-! ## Words -/

/-- The words of the source as those of the standard. -/
def HashWords.variables (s : HashWords) : Variables :=
  ⟨s.a.toBitVec, s.b.toBitVec, s.c.toBitVec, s.d.toBitVec, s.e.toBitVec, s.f.toBitVec,
    s.g.toBitVec, s.h.toBitVec⟩

/-- A round of the source is a round. -/
theorem hashRound_variables (s : HashWords) (kw : UInt32 × UInt32) :
    (hashRound s kw).variables = round s.variables kw.1.toBitVec kw.2.toBitVec := rfl

/-- The constants of the rounds are those of the standard. -/
theorem roundConstants_eq :
    roundConstants.map UInt32.toBitVec = (List.range 64).map roundConstant := by
  obtain ⟨htable, -, hlength, -⟩ := tables_checked
  refine List.ext_getElem (by simp [roundConstants]) fun t ht _ => ?_
  rw [List.length_map] at ht
  rw [List.getElem_map, List.getElem_map, List.getElem_range, roundConstant]
  exact (rootBits_of_table (by omega) htable hlength.ge (List.getElem?_eq_getElem ht)).symm

/-- So are the initial words. -/
theorem initialHash_eq : NodeWe.initialHash.variables = SecureHash.initialHash := by
  obtain ⟨-, htable, -, hlength⟩ := tables_checked
  have hword {t : ℕ} {bits : UInt32} (ht : initialWords[t]? = some bits) :
      initialWord t = bits.toBitVec := rootBits_of_table (by omega) htable hlength.ge ht
  rw [SecureHash.initialHash, hword (t := 0) rfl, hword (t := 1) rfl, hword (t := 2) rfl,
    hword (t := 3) rfl, hword (t := 4) rfl, hword (t := 5) rfl, hword (t := 6) rfl,
    hword (t := 7) rfl]
  rfl

/-- Four bytes make a word, the first one most significant. -/
theorem toBitVec_word (b0 b1 b2 b3 : UInt8) :
    ((b0.toUInt32 <<< 24) ||| (b1.toUInt32 <<< 16) ||| (b2.toUInt32 <<< 8) |||
      b3.toUInt32).toBitVec = BitVec.ofNat 32 (toNat (ofBytes [b0, b1, b2, b3])) := by
  have h0 := b0.toNat_lt
  have h1 := b1.toNat_lt
  have h2 := b2.toNat_lt
  have h3 := b3.toNat_lt
  have hnumber : toNat (ofBytes [b0, b1, b2, b3]) =
      b0.toNat * 2^24 + (b1.toNat * 2^16 + (b2.toNat * 2^8 + b3.toNat)) := by
    rw [toNat_ofBytes_cons, toNat_ofBytes_cons, toNat_ofBytes_cons, toNat_ofBytes_cons]
    simp [ofBytes, Bits.toNat]
  refine BitVec.eq_of_toNat_eq ?_
  rw [hnumber, BitVec.toNat_ofNat, UInt32.toNat_toBitVec, UInt32.toNat_or, UInt32.toNat_or,
    UInt32.toNat_or, UInt32.toNat_shiftLeft, UInt32.toNat_shiftLeft, UInt32.toNat_shiftLeft,
    UInt8.toNat_toUInt32, UInt8.toNat_toUInt32, UInt8.toNat_toUInt32, UInt8.toNat_toUInt32]
  show b0.toNat <<< 24 % 2^32 ||| b1.toNat <<< 16 % 2^32 ||| b2.toNat <<< 8 % 2^32 ||| b3.toNat = _
  rw [Nat.mod_eq_of_lt (by omega), Nat.mod_eq_of_lt (by omega), Nat.mod_eq_of_lt (by omega),
    Nat.mod_eq_of_lt (by omega), Nat.or_assoc, Nat.or_assoc]
  -- The bytes do not overlap, so putting them together adds them up.
  have hlow : b2.toNat <<< 8 + b3.toNat < 2^16 := by omega
  have hhigh : b1.toNat <<< 16 + (b2.toNat <<< 8 + b3.toNat) < 2^24 := by omega
  rw [← Nat.shiftLeft_add_eq_or_of_lt h3, ← Nat.shiftLeft_add_eq_or_of_lt hlow,
    ← Nat.shiftLeft_add_eq_or_of_lt hhigh]
  omega

/-- The words of some bytes are those of their bits. -/
theorem words_toBitVec (bs : List UInt8) :
    (words bs).map UInt32.toBitVec =
      (parts 32 (ofBytes bs)).map fun part => BitVec.ofNat 32 (toNat part) := by
  fun_induction words bs with
  | case1 b0 b1 b2 b3 rest ih =>
    have hbits : ofBytes (b0 :: b1 :: b2 :: b3 :: rest) = ofBytes [b0, b1, b2, b3] ++ ofBytes rest :=
      ofBytes_append [b0, b1, b2, b3] rest
    rw [hbits, parts_append (by omega) (by rw [length_ofBytes]; rfl), List.map_cons, List.map_cons,
      ih, toBitVec_word]
  | case2 bs hshort =>
    have hlength : bs.length < 4 := by
      by_contra hlong
      match bs, hshort with
      | b0 :: b1 :: b2 :: b3 :: rest, hshort => exact hshort b0 b1 b2 b3 rest rfl
      | [], _ | [_], _ | [_, _], _ | [_, _, _], _ => simp at hlong
    rw [parts_of_lt (by rw [length_ofBytes]; omega)]
    rfl

/-- The schedule of the source is the schedule of the standard. -/
theorem extendWords_toBitVec {word : ℕ → Word} {k : ℕ} {w : List UInt32} (n : ℕ) (hk : 16 ≤ k)
    (h : w.map UInt32.toBitVec = (List.range k).map (schedule word)) :
    (extendWords n w).map UInt32.toBitVec = (List.range (k + n)).map (schedule word) := by
  induction n generalizing k w with
  | zero => exact h
  | succ n ih =>
    have hlength : w.length = k := by simpa using congrArg List.length h
    have hback {j : ℕ} (hj : 0 < j) (hjk : j ≤ k) :
        (w.getD (w.length - j) 0).toBitVec = schedule word (k - j) := by
      have hi : k - j < w.length := by omega
      have hget := congrArg (fun l : List Word => l[k - j]?) h
      rw [hlength, List.getD_eq_getElem _ _ hi]
      rw [List.getElem?_map, List.getElem?_map, List.getElem?_eq_getElem hi,
        List.getElem?_range (by omega)] at hget
      exact Option.some.inj hget
    rw [extendWords, Nat.add_succ, ← Nat.succ_add]
    refine ih (by omega) ?_
    rw [List.map_append, h, List.range_succ, List.map_append]
    refine congrArg (_ ++ [·]) ?_
    rw [schedule_of_le word hk, ← hback (by omega) (by omega : 16 ≤ k),
      ← hback (by omega) (by omega : 15 ≤ k), ← hback (by omega) (by omega : 7 ≤ k),
      ← hback (by omega) (by omega : 2 ≤ k)]
    beta_reduce
    generalize w.getD (w.length - 16) 0 = x16, w.getD (w.length - 15) 0 = x15,
      w.getD (w.length - 7) 0 = x7, w.getD (w.length - 2) 0 = x2
    show x16.toBitVec + smallSigma0 x15.toBitVec + x7.toBitVec + smallSigma1 x2.toBitVec = _
    ac_rfl

/-! ## Blocks -/

/-- A chunk of the source works like a block of the standard. -/
theorem hashChunk_variables (s : HashWords) {chunk : List UInt8} (h : chunk.length = 64) :
    (hashChunk s chunk).variables = compress s.variables (ofBytes chunk) := by
  have hblock : (words chunk).map UInt32.toBitVec =
      (List.range 16).map (schedule (blockWord (ofBytes chunk))) := by
    have hcount : (parts 32 (ofBytes chunk)).length = 16 := by
      rw [parts, List.length_map, List.length_range, length_ofBytes, h]
    rw [words_toBitVec]
    refine List.ext_getElem (by simp [hcount]) fun t ht ht' => ?_
    rw [List.length_map, List.length_range] at ht'
    rw [List.getElem_map, List.getElem_map, List.getElem_range, schedule_of_lt _ ht', blockWord,
      List.getD_eq_getElem _ _ (by omega)]
  have hschedule := extendWords_toBitVec 48 le_rfl hblock
  have hpairs : (roundConstants.zip (extendWords 48 (words chunk))).map
      (Prod.map UInt32.toBitVec UInt32.toBitVec) =
        (List.range 64).map fun t => (roundConstant t, schedule (blockWord (ofBytes chunk)) t) := by
    rw [← List.zip_map, roundConstants_eq, hschedule, List.zip_map']
  have hrounds : ((roundConstants.zip (extendWords 48 (words chunk))).foldl hashRound s).variables =
      rounds s.variables (ofBytes chunk) := by
    have hfold := congrArg (List.foldl (fun v kw => round v kw.1 kw.2) s.variables) hpairs
    rw [List.foldl_map, List.foldl_map] at hfold
    rw [rounds, ← hfold]
    exact (List.foldl_hom HashWords.variables fun v kw => hashRound_variables v kw).symm
  rw [compress, ← hrounds, hashChunk]
  generalize (roundConstants.zip (extendWords 48 (words chunk))).foldl hashRound s = r
  simp only [HashWords.variables, UInt32.toBitVec_add, BitVec.add_comm]

/-- The chunks are the pieces of 64 bytes. -/
theorem chunks64_eq {fuel : ℕ} {xs : List UInt8} (h : xs.length / 64 ≤ fuel) :
    chunks64 fuel xs = parts 64 xs := by
  induction fuel generalizing xs with
  | zero => rw [chunks64, parts_of_lt (by omega)]
  | succ fuel ih =>
    rw [chunks64]
    by_cases hshort : xs.length < 64
    · rw [if_pos hshort, parts_of_lt hshort]
    · have hfirst : (xs.take 64).length = 64 := by rw [List.length_take]; omega
      have hrest : (xs.drop 64).length / 64 ≤ fuel := by rw [List.length_drop]; omega
      rw [if_neg hshort, ih hrest, ← parts_append (by omega) hfirst, List.take_append_drop]

/-! ## Padding -/

/-- A number in bytes has the bits of the number. -/
theorem ofBytes_bigEndian (width n : ℕ) : ofBytes (bigEndian width n) = ofNat (8 * width) n := by
  induction width with
  | zero => rfl
  | succ width ih =>
    have hstep : bigEndian (width + 1) n = UInt8.ofNat (n / 256^width) :: bigEndian width n := by
      rw [bigEndian, List.range_succ_eq_map, List.map_cons, List.map_map]
      refine congrArg (UInt8.ofNat (n / 256^width) :: ·) (List.map_congr_left fun i _ => ?_)
      rw [Function.comp_apply, Nat.add_sub_cancel, Nat.succ_eq_add_one, Nat.add_comm i 1,
        Nat.sub_add_eq]
    have hpow : 256^width = 2^(8 * width) := by rw [pow_mul]; rfl
    rw [hstep, ofBytes_cons, ofNat_ofNat_byte, ih, hpow, ← ofNat_add, Nat.mul_succ, Nat.add_comm 8]

/-- The zeros that the loop pushes. -/
def zeroBytes (length : ℕ) : ℕ := (64 - (length + 9) % 64) % 64

/-- The loop pushes as many zeros as are missing, which are fewer than 64. -/
theorem pushZeros_eq {fuel : ℕ} {message : List UInt8}
    (h : (64 - (message.length + 8) % 64) % 64 ≤ fuel) :
    pushZeros fuel message =
      message ++ List.replicate ((64 - (message.length + 8) % 64) % 64) 0 := by
  induction fuel generalizing message with
  | zero =>
    have hnone : (64 - (message.length + 8) % 64) % 64 = 0 := by omega
    rw [pushZeros, hnone, List.replicate_zero, List.append_nil]
  | succ fuel ih =>
    rw [pushZeros]
    by_cases hdone : (message.length + 8) % 64 = 0
    · rw [if_pos hdone, hdone]
      exact (List.append_nil message).symm
    · have hlength : (message ++ [0]).length = message.length + 1 := List.length_append
      have hmissing : (64 - (message.length + 8) % 64) % 64 =
          (64 - (message.length + 1 + 8) % 64) % 64 + 1 := by omega
      rw [if_neg hdone, ih (by rw [hlength]; omega), hlength, hmissing, List.replicate_succ,
        List.append_assoc, List.singleton_append]

/-- The padded data in one piece. -/
theorem padded_eq (data : List UInt8) :
    padded data =
      data ++ 0x80 :: List.replicate (zeroBytes data.length) 0 ++ bigEndian 8 (data.length * 8) := by
  have hlength : (data ++ [0x80]).length + 8 = data.length + 9 := by
    rw [List.length_append, List.length_singleton]
  rw [padded, pushZeros_eq (by omega), hlength, ← zeroBytes, List.append_assoc data [0x80],
    List.singleton_append]

/-- The padded data has the bits of the padded message. -/
theorem ofBytes_padded (data : List UInt8) : ofBytes (padded data) = pad (ofBytes data) := by
  have hzeros (count : ℕ) :
      ofBytes (List.replicate count 0) = List.replicate (8 * count) false := by
    induction count with
    | zero => rfl
    | succ count ih =>
      rw [List.replicate_succ, ofBytes_cons, ih, Nat.mul_succ, Nat.add_comm, List.replicate_add]
      rfl
  have hmark : ofNat 8 (0x80 : UInt8).toNat = true :: List.replicate 7 false := rfl
  have hcount : zeroCount (8 * data.length) = 7 + 8 * zeroBytes data.length := by
    rw [zeroCount_eq, zeroBytes]
    omega
  rw [padded_eq, pad, ofBytes_append, ofBytes_append, ofBytes_cons, ofBytes_bigEndian, hmark,
    length_ofBytes, hcount, List.replicate_add, List.cons_append, Nat.mul_comm data.length, hzeros]

/-- The padded data is whole chunks. -/
theorem length_padded (data : List UInt8) :
    (padded data).length = data.length + 9 + zeroBytes data.length := by
  rw [padded_eq]
  simp [bigEndian]
  omega

/-- The source hashes all of it. -/
theorem chunks64_padded (data : List UInt8) :
    chunks64 (data.length + 1) (padded data) = parts 64 (padded data) := by
  refine chunks64_eq ?_
  rw [length_padded, zeroBytes]
  omega

/-- The padded data is in whole chunks, with no more zeros than that takes. -/
theorem padded_shortest (data : List UInt8) :
    (chunks64 (data.length + 1) (padded data)).flatten = padded data ∧
      64 ∣ (padded data).length ∧
      ∀ count < zeroBytes data.length, ¬64 ∣ data.length + 1 + count + 8 := by
  have hlength := length_padded data
  have hwhole : 64 ∣ (padded data).length := by
    rw [hlength, zeroBytes]
    omega
  refine ⟨?_, hwhole, fun count hcount => ?_⟩
  · rw [chunks64_padded, flatten_parts (by omega) rfl, Nat.mul_div_cancel' hwhole, List.take_length]
  · rw [zeroBytes] at hcount
    omega

/-! ## Hashes -/

/-- Chunks in a row work like blocks in a row. -/
theorem foldl_hashChunk {chunks : List (List UInt8)} (h : ∀ chunk ∈ chunks, chunk.length = 64)
    (s : HashWords) :
    (chunks.foldl hashChunk s).variables = (chunks.map ofBytes).foldl compress s.variables := by
  induction chunks generalizing s with
  | nil => rfl
  | cons chunk chunks ih =>
    rw [List.foldl_cons, List.map_cons, List.foldl_cons,
      ← hashChunk_variables s (h chunk List.mem_cons_self)]
    exact ih (fun c hc => h c (List.mem_cons_of_mem _ hc)) _

/-- The words of a hash value, in bytes, are its bits. -/
theorem ofBytes_output (s : HashWords) :
    ofBytes ([s.a, s.b, s.c, s.d, s.e, s.f, s.g, s.h].flatMap fun w => bigEndian 4 w.toNat) =
      s.variables.bits := by
  have hword (w : UInt32) : ofBytes (bigEndian 4 w.toNat) = ofNat 32 w.toBitVec.toNat :=
    ofBytes_bigEndian 4 w.toNat
  simp only [List.flatMap_cons, List.flatMap_nil, ofBytes_append, hword]
  rfl

/-- The source computes SHA-256. -/
theorem sha256_eq (data : List UInt8) : NodeWe.sha256 data = sha256Bytes data := by
  have hchunks : ∀ chunk ∈ parts 64 (padded data), chunk.length = 64 :=
    fun chunk hchunk => length_of_mem_parts hchunk
  have hbits : ofBytes (NodeWe.sha256 data) = SecureHash.sha256 (ofBytes data) := by
    rw [NodeWe.sha256, ofBytes_output, chunks64_padded, foldl_hashChunk hchunks, initialHash_eq,
      ← parts_ofBytes, ofBytes_padded]
    rfl
  rw [sha256Bytes, ← hbits, toBytes_ofBytes]

/-- The source computes HMAC-SHA-256. -/
theorem hmacSha256_eq (key message : List UInt8) :
    hmacSha256 key message = hmac sha256Bytes 64 key message := by
  have hhash : sha256Bytes = NodeWe.sha256 := funext fun data => (sha256_eq data).symm
  have hmask (block : List UInt8) (hblock : block.length = 64) (b : UInt8) :
      block.zipWith (· ^^^ ·) (List.replicate 64 b) = block.map (· ^^^ b) := by
    rw [← hblock, ← List.map_const', List.zipWith_map_right, List.zipWith_self]
  rw [hhash, hmacSha256, hmac]
  have hshort : (if key.length > 64 then NodeWe.sha256 key else key).length ≤ 64 := by
    split
    · rw [length_sha256]
      omega
    · omega
  generalize (if key.length > 64 then NodeWe.sha256 key else key) = short at hshort
  have hblock : (short ++ List.replicate (64 - short.length) 0).length = 64 := by
    rw [List.length_append, List.length_replicate]
    omega
  rw [hmask _ hblock, hmask _ hblock]

/-! ## Agreement -/

section Agreement

open NodeRuntime

/-- Data of every length that the standard admits is padded with the fewest zeros, hashed to the
last chunk, and has the digest of the standard, which is the agent's; keyed hashes are RFC 2104's. -/
theorem digests_agree [RingDigest]
    (hring : ∀ data : List UInt8, data.length < 2^61 →
      RingDigest.ringDigest data = sha256Bytes data) :
    (∀ data : List UInt8, data.length < 2^61 →
      NodeWe.sha256 data = sha256Bytes data ∧
        sha256Hex data = hexEncodeBytes (NodeWe.sha256 data) ∧
        (∃ zeros tail, padded data = data ++ 0x80 :: List.replicate zeros 0 ++ tail ∧
          ofBytes tail = ofNat 64 (8 * data.length) ∧ 64 ∣ (padded data).length ∧
          ∀ fewer < zeros, ¬64 ∣ (data ++ 0x80 :: List.replicate fewer 0 ++ tail).length) ∧
        (chunks64 (data.length + 1) (padded data)).flatten = padded data) ∧
      ∀ key message, hmacSha256 key message = hmac sha256Bytes 64 key message := by
  refine ⟨fun data hdata => ⟨sha256_eq data, ?_, ?_, (padded_shortest data).1⟩, hmacSha256_eq⟩
  · rw [sha256Hex, hring data hdata, sha256_eq]
  · obtain ⟨-, hwhole, hfewer⟩ := padded_shortest data
    refine ⟨zeroBytes data.length, bigEndian 8 (data.length * 8), padded_eq data, ?_, hwhole, ?_⟩
    · rw [ofBytes_bigEndian, Nat.mul_comm data.length]
    · intro fewer hlt
      have hlength : (data ++ 0x80 :: List.replicate fewer 0 ++
          bigEndian 8 (data.length * 8)).length = data.length + 1 + fewer + 8 := by
        simp [bigEndian]
        omega
      rw [hlength]
      exact hfewer fewer hlt

/-- The three bytes of the source's test, with a crate that hashes like the control plane. -/
theorem digests_agree_abc :
    @sha256Hex ⟨NodeWe.sha256⟩ [0x61, 0x62, 0x63] =
        hexEncodeBytes (NodeWe.sha256 [0x61, 0x62, 0x63]) ∧
      NodeWe.sha256 [0x61, 0x62, 0x63] = sha256Bytes [0x61, 0x62, 0x63] := by
  have hagree := (@digests_agree ⟨NodeWe.sha256⟩ fun data _ => sha256_eq data).1
    [0x61, 0x62, 0x63] (by norm_num)
  exact ⟨hagree.2.1, hagree.1⟩

end Agreement

end NodeWe
