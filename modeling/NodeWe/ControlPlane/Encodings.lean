import NodeWe.Base64
import NodeWe.Digest

/-!
# The base64 code

`base64_encode` works on chunks of three bytes, `base64url_decode` on one letter after the other
with an accumulator of the bits that it has not emitted. The accumulator is the number of a bit
string (`base64urlLoop_bits`), so that the decoder reads the whole bytes of its digits
(`base64urlDecode_iff`). The encoder is that of the standard and the decoder inverts it; but the
decoder does not look at the bits that are left over.
-/

namespace NodeWe

open Text Bits Base64

/-! ## The encoder -/

/-- The table of `base64_encode`. -/
def base64Table : List Char :=
  "ABCDEFGHIJKLMNOPQRSTUVWXYZabcdefghijklmnopqrstuvwxyz0123456789+/".toList

/-- What `base64_encode` makes of a chunk. -/
def base64Chunk (chunk : List UInt8) : List Char :=
  let a := (chunk.getD 0 0).toNat
  let b := (chunk.getD 1 0).toNat
  let c := (chunk.getD 2 0).toNat
  [base64Table.getD (a >>> 2) '=',
    base64Table.getD (((a &&& 3) <<< 4) ||| (b >>> 4)) '=',
    if chunk.length > 1 then base64Table.getD (((b &&& 15) <<< 2) ||| (c >>> 6)) '=' else '=',
    if chunk.length > 2 then base64Table.getD (c &&& 63) '=' else '=']

/-- The loop of `base64_encode`, over `chunks(3)`. -/
def base64Chunks : List UInt8 → List Char
  | [] => []
  | a :: b :: c :: rest => base64Chunk [a, b, c] ++ base64Chunks rest
  | chunk => base64Chunk chunk

/-- `base64_encode`. -/
def base64Encode (bytes : List UInt8) : String := String.ofList (base64Chunks bytes)

/-- `base64url_encode`: trailing `=` are trimmed, and two letters are replaced. -/
def base64urlEncode (bytes : List UInt8) : String :=
  String.ofList ((((base64Encode bytes).toList.rdropWhile (· == '=')).map
    fun c => if c == '+' then '-' else c).map fun c => if c == '/' then '_' else c)

/-- The indices into the table, as digits. -/
theorem base64Index_eq (a b c : UInt8) :
    a.toNat >>> 2 = a.toNat / 4 ∧
      ((a.toNat &&& 3) <<< 4) ||| (b.toNat >>> 4) = a.toNat % 4 * 16 + b.toNat / 16 ∧
      ((b.toNat &&& 15) <<< 2) ||| (c.toNat >>> 6) = b.toNat % 16 * 4 + c.toNat / 64 ∧
      c.toNat &&& 63 = c.toNat % 64 := by
  have hb := b.toNat_lt
  have hc := c.toNat_lt
  have hb4 : b.toNat / 16 < 2^4 := by omega
  have hc2 : c.toNat / 64 < 2^2 := by omega
  have h3 : a.toNat &&& 3 = a.toNat % 4 := Nat.and_two_pow_sub_one_eq_mod a.toNat 2
  have h15 : b.toNat &&& 15 = b.toNat % 16 := Nat.and_two_pow_sub_one_eq_mod b.toNat 4
  have h63 : c.toNat &&& 63 = c.toNat % 64 := Nat.and_two_pow_sub_one_eq_mod c.toNat 6
  have hs4 : b.toNat >>> 4 = b.toNat / 16 := Nat.shiftRight_eq_div_pow b.toNat 4
  have hs6 : c.toNat >>> 6 = c.toNat / 64 := Nat.shiftRight_eq_div_pow c.toNat 6
  refine ⟨Nat.shiftRight_eq_div_pow a.toNat 2, ?_, ?_, h63⟩
  · rw [h3, hs4, ← Nat.shiftLeft_add_eq_or_of_lt hb4, Nat.shiftLeft_eq]
  · rw [h15, hs6, ← Nat.shiftLeft_add_eq_or_of_lt hc2, Nat.shiftLeft_eq]

/-- The groups of a chunk are the indices. -/
theorem sextets_chunk (a b c : UInt8) :
    sextets [a, b, c] = [a.toNat / 4, a.toNat % 4 * 16 + b.toNat / 16,
        b.toNat % 16 * 4 + c.toNat / 64, c.toNat % 64] ∧
      sextets [a, b] = [a.toNat / 4, a.toNat % 4 * 16 + b.toNat / 16, b.toNat % 16 * 4] ∧
      sextets [a] = [a.toNat / 4, a.toNat % 4 * 16] := by
  have ha := a.toNat_lt
  have hb := b.toNat_lt
  have hc := c.toNat_lt
  have hnone : toNat (digitBits []) = 0 ∧ toNat (ofBytes []) = 0 := ⟨rfl, rfl⟩
  refine ⟨sextets_eq ?_ (by simp [fill]) ?_, sextets_eq ?_ (by simp [fill]) ?_,
    sextets_eq ?_ (by simp [fill]) ?_⟩
  · simp only [List.forall_mem_cons, List.not_mem_nil, false_imp_iff, implies_true, and_true]
    omega
  · rw [toNat_digitBits_cons (by omega), toNat_digitBits_cons (by omega),
      toNat_digitBits_cons (by omega), toNat_digitBits_cons (by omega), toNat_ofBytes_cons,
      toNat_ofBytes_cons, toNat_ofBytes_cons, hnone.1, hnone.2]
    norm_num [fill]
    omega
  · simp only [List.forall_mem_cons, List.not_mem_nil, false_imp_iff, implies_true, and_true]
    omega
  · rw [toNat_digitBits_cons (by omega), toNat_digitBits_cons (by omega),
      toNat_digitBits_cons (by omega), toNat_ofBytes_cons, toNat_ofBytes_cons, hnone.1, hnone.2]
    norm_num [fill]
    omega
  · simp only [List.forall_mem_cons, List.not_mem_nil, false_imp_iff, implies_true, and_true]
    omega
  · rw [toNat_digitBits_cons (by omega), toNat_digitBits_cons (by omega), toNat_ofBytes_cons,
      hnone.1, hnone.2]
    norm_num [fill]
    omega

/-- A chunk is encoded. -/
theorem base64Chunk_eq (a b c : UInt8) :
    base64Chunk [a, b, c] = encode alphabet [a, b, c] ∧
      base64Chunk [a, b] = encode alphabet [a, b] ++ ['='] ∧
      base64Chunk [a] = encode alphabet [a] ++ ['=', '='] := by
  have htable : base64Table = alphabet := rfl
  obtain ⟨hthree, htwo, hone⟩ := sextets_chunk a b c
  have hzero : (0 : UInt8).toNat / 16 = 0 ∧ (0 : UInt8).toNat / 64 = 0 := by decide
  refine ⟨?_, ?_, ?_⟩
  · obtain ⟨h0, h1, h2, h3⟩ := base64Index_eq a b c
    simp [base64Chunk, encode, letters, hthree, h0, h1, h2, h3, htable]
  · obtain ⟨h0, h1, h2, -⟩ := base64Index_eq a b 0
    rw [hzero.2, Nat.add_zero] at h2
    simp only [base64Chunk, List.getD_cons_zero, List.getD_cons_succ, List.getD_nil, h0, h1, h2, htable]
    simp [encode, letters, htwo]
  · obtain ⟨h0, h1, -, -⟩ := base64Index_eq a 0 0
    rw [hzero.1, Nat.add_zero] at h1
    simp only [base64Chunk, List.getD_cons_zero, List.getD_cons_succ, List.getD_nil, h0, h1, htable]
    simp [encode, letters, hone]

/-- The encoder is that of the standard. -/
theorem base64Chunks_eq (bs : List UInt8) : base64Chunks bs = pad (encode alphabet bs) := by
  fun_induction base64Chunks bs with
  | case1 => rfl
  | case2 a b c rest ih =>
    have hsplit : encode alphabet (a :: b :: c :: rest) =
        encode alphabet [a, b, c] ++ encode alphabet rest := by
      have hthree : [a, b, c].length % 3 = 0 := by simp
      have hgroups : sextets (a :: b :: c :: rest) = sextets [a, b, c] ++ sextets rest :=
        sextets_append hthree rest
      rw [encode, letters, hgroups, List.map_append]
      rfl
    have hfour : (encode alphabet [a, b, c]).length = 4 := by
      rw [encode, letters, List.length_map, length_sextets]
      simp
    rw [ih, (base64Chunk_eq a b c).1, hsplit, pad, pad, List.length_append, hfour,
      Nat.add_mod_left, List.append_assoc]
  | case3 chunk hne hlong =>
    obtain ⟨a, rest, rfl⟩ := List.exists_cons_of_ne_nil hne
    cases rest with
    | nil =>
      have hlength : (encode alphabet [a]).length = 2 := by
        rw [encode, letters, List.length_map, length_sextets]
        simp
      rw [(base64Chunk_eq a 0 0).2.2, pad, hlength]
      rfl
    | cons b rest =>
      cases rest with
      | cons c rest => exact absurd rfl (hlong a b c rest)
      | nil =>
        have hlength : (encode alphabet [a, b]).length = 3 := by
          rw [encode, letters, List.length_map, length_sextets]
          simp
        rw [(base64Chunk_eq a b 0).2.1, pad, hlength]
        rfl

/-! ## The decoder -/

/-- The byte of the letter of a digit. -/
def letterByte (d : ℕ) : UInt8 :=
  UInt8.ofNat (if d < 26 then d + 65 else if d < 52 then d + 71 else if d < 62 then d - 4
    else if d = 62 then 45 else 95)

/-- Letters are single bytes, which read as their digits. The replaced letters of base64 are those
of base64url. -/
theorem base64url_tables :
    (∀ d ∈ List.range 64, urlAlphabet.getD d '=' ∉ ['=', '.'] ∧
      String.utf8EncodeChar (urlAlphabet.getD d '=') = [letterByte d] ∧
      base64urlDigit (letterByte d) = some d) ∧
    ∀ d ∈ List.range 64, alphabet.getD d '=' ≠ '=' ∧
      (if (if alphabet.getD d '=' == '+' then '-' else alphabet.getD d '=') == '/' then '_'
        else if alphabet.getD d '=' == '+' then '-' else alphabet.getD d '=') =
          urlAlphabet.getD d '=' := by
  decide +kernel

/-- A byte that reads as a digit is the letter of the digit. -/
theorem base64urlDigit_some {b : UInt8} {d : ℕ} (h : base64urlDigit b = some d) :
    d < 64 ∧ b = letterByte d := by
  unfold base64urlDigit at h
  unfold letterByte
  simp only [UInt8.le_iff_toNat_le, ← UInt8.toNat_inj, UInt8.reduceToNat, UInt8.toNat_ofNat'] at h ⊢
  split_ifs at h <;> rw [Option.some.injEq] at h <;> split_ifs <;> omega

/-- The digits of a text. -/
def base64urlDigits : List UInt8 → Option (List ℕ)
  | [] => some []
  | b :: rest => (base64urlDigit b).bind fun d => (base64urlDigits rest).map (d :: ·)

/-- The loop reads the whole bytes of the bits that are pending and of those to come. -/
theorem base64urlLoop_bits {s : List UInt8} {pending : List Bool} (hpending : pending.length < 8) :
    base64urlLoop s (toNat pending) pending.length = (base64urlDigits s).map fun digits =>
      (toBytes (pending ++ digitBits digits), (pending.length + 6 * digits.length) % 8) := by
  induction s generalizing pending with
  | nil =>
    have hnone : toBytes (pending ++ digitBits []) = [] := by
      rw [toBytes, digitBits, List.flatMap_nil, List.append_nil, parts_of_lt hpending, List.map_nil]
    rw [base64urlLoop, base64urlDigits, Option.map_some, hnone, List.length_nil, Nat.mul_zero,
      Nat.add_zero, Nat.mod_eq_of_lt hpending]
  | cons b s ih =>
    rw [base64urlLoop, base64urlDigits]
    cases hdigit : base64urlDigit b with
    | none => rfl
    | some d =>
      have hd : d % 2^6 = d := Nat.mod_eq_of_lt (base64urlDigit_some hdigit).1
      rw [Option.bind_some, Option.bind_some, Option.map_map]
      -- The accumulator is the number of the pending bits and those of the digit.
      obtain ⟨full, hfull⟩ : ∃ full, full = pending ++ ofNat 6 d := ⟨_, rfl⟩
      have hnumber : toNat pending * 64 + d = toNat full := by
        rw [hfull, toNat_append, toNat_ofNat, hd, length_ofNat]
        rfl
      have hlength : pending.length + 6 = full.length := by
        rw [hfull, List.length_append, length_ofNat]
      have hbits (digits : List ℕ) :
          pending ++ digitBits (d :: digits) = full ++ digitBits digits := by
        rw [hfull, List.append_assoc]
        rfl
      dsimp only
      rw [hnumber, hlength]
      by_cases hbyte : full.length ≥ 8
      · obtain ⟨byte, rest, hsplit, height⟩ : ∃ byte rest, full = byte ++ rest ∧ byte.length = 8 :=
          ⟨full.take 8, full.drop 8, (List.take_append_drop 8 full).symm,
            List.length_take_of_le hbyte⟩
        have hrest : full.length - 8 = rest.length := by
          rw [hsplit, List.length_append]
          omega
        have hlow := toNat_lt rest
        have hdiv : toNat full / 2^rest.length = toNat byte := by
          rw [hsplit, toNat_append, Nat.mul_comm, Nat.mul_add_div (by positivity),
            Nat.div_eq_of_lt hlow, Nat.add_zero]
        have hmod : toNat full % 2^rest.length = toNat rest := by
          rw [hsplit, toNat_append, Nat.mul_add_mod_of_lt hlow]
        rw [if_pos hbyte, hrest, hdiv, hmod, ih (by omega), Option.map_map]
        refine congrArg (Option.map · (base64urlDigits s)) (funext fun digits => ?_)
        simp only [Function.comp_apply]
        rw [hbits, hsplit, List.append_assoc, toBytes_cons height, List.length_cons]
        refine congrArg (Prod.mk _) ?_
        omega
      · rw [if_neg hbyte, ih (by omega)]
        refine congrArg (Option.map · (base64urlDigits s)) (funext fun digits => ?_)
        simp only [Function.comp_apply]
        rw [hbits, List.length_cons]
        refine congrArg (Prod.mk _) ?_
        omega

/-- The letters of some digits, as a text. -/
def base64urlText (digits : List ℕ) : String := String.ofList (letters urlAlphabet digits)

/-- The bytes of the letters of some digits. -/
theorem bytes_base64urlText {digits : List ℕ} (h : ∀ d ∈ digits, d < 64) :
    bytes (base64urlText digits) = digits.map letterByte := by
  rw [bytes_eq_flatMap, base64urlText, String.toList_ofList, letters, List.flatMap_map,
    List.map_eq_flatMap]
  exact List.flatMap_congr fun d hd => (base64url_tables.1 d (List.mem_range.mpr (h d hd))).2.1

/-- The digits of a text are those of its letters. -/
theorem base64urlDigits_eq_some {value : String} {digits : List ℕ} :
    base64urlDigits (bytes value) = some digits ↔
      (∀ d ∈ digits, d < 64) ∧ value = base64urlText digits := by
  have hread {s : List UInt8} : base64urlDigits s = some digits ↔
      (∀ d ∈ digits, d < 64) ∧ s = digits.map letterByte := by
    induction digits generalizing s with
    | nil =>
      cases s with
      | nil => simp [base64urlDigits]
      | cons b s => simp [base64urlDigits, Option.bind_eq_some_iff]
    | cons d digits ih =>
      cases s with
      | nil => simp [base64urlDigits]
      | cons b s =>
        rw [base64urlDigits, Option.bind_eq_some_iff, List.forall_mem_cons, List.map_cons,
          List.cons.injEq]
        constructor
        · rintro ⟨e, he, hmap⟩
          obtain ⟨digits', hdigits', hcons⟩ := Option.map_eq_some_iff.mp hmap
          obtain ⟨rfl, rfl⟩ := List.cons.inj hcons
          have hdigit := base64urlDigit_some he
          have hrest := ih.mp hdigits'
          exact ⟨⟨hdigit.1, hrest.1⟩, hdigit.2, hrest.2⟩
        · rintro ⟨⟨hd, hdigits⟩, rfl, hs⟩
          have hdigit := (base64url_tables.1 d (List.mem_range.mpr hd)).2.2
          exact ⟨d, hdigit, by rw [ih.mpr ⟨hdigits, hs⟩]; rfl⟩
  rw [hread]
  refine and_congr_right fun hlt => ?_
  rw [← bytes_base64urlText hlt, bytes_inj]

/-- The letters of digits are no equals signs and no dots. -/
theorem not_mem_letters {digits : List ℕ} (h : ∀ d ∈ digits, d < 64) {c : Char}
    (hc : c ∈ ['=', '.']) : c ∉ letters urlAlphabet digits := by
  intro hmem
  obtain ⟨d, hd, rfl⟩ := List.mem_map.mp hmem
  exact (base64url_tables.1 d (List.mem_range.mpr (h d hd))).1 hc

/-- The decoder accepts the texts of valid digits, and returns their whole bytes. -/
theorem base64urlDecode_iff {value : String} {bs : List UInt8} :
    base64urlDecode value = some bs ↔
      ∃ digits, Valid digits ∧ value = base64urlText digits ∧ decode digits = bs := by
  have hloop : base64urlLoop (bytes value) 0 0 = (base64urlDigits (bytes value)).map fun digits =>
      (decode digits, leftover digits) := by
    have hnone : ([] : List Bool).length < 8 := by decide
    have hbits := base64urlLoop_bits (s := bytes value) hnone
    simp only [List.length_nil, Nat.zero_add, List.nil_append] at hbits
    exact hbits
  rw [base64urlDecode, hloop]
  constructor
  · intro h
    split_ifs at h with hrefused
    rw [not_or] at hrefused
    obtain ⟨⟨out, left⟩, hmap, hout⟩ := Option.bind_eq_some_iff.mp h
    obtain ⟨digits, hdigits, hpair⟩ := Option.map_eq_some_iff.mp hmap
    obtain ⟨rfl, rfl⟩ := Prod.mk.inj hpair
    obtain ⟨hlt, hvalue⟩ := base64urlDigits_eq_some.mp hdigits
    dsimp only at hout
    split_ifs at hout with hneeded
    refine ⟨digits, ⟨hlt, ?_, hneeded⟩, hvalue, Option.some.inj hout⟩
    rintro rfl
    exact hrefused.1 hvalue
  · rintro ⟨digits, hvalid, rfl, rfl⟩
    have hdigits := base64urlDigits_eq_some.mpr ⟨hvalid.lt, rfl⟩
    have hchars : (base64urlText digits).toList = letters urlAlphabet digits := String.toList_ofList
    have haccepted : ¬(base64urlText digits = "" ∨ '=' ∈ (base64urlText digits).toList) := by
      rw [← String.toList_eq_nil_iff, hchars, not_or, letters, List.map_eq_nil_iff]
      exact ⟨hvalid.ne_nil, not_mem_letters hvalid.lt (by simp)⟩
    rw [if_neg haccepted, hdigits, Option.map_some, Option.bind_some]
    exact if_pos hvalid.needed

/-- The trimmed and replaced letters of base64 are those of base64url. -/
theorem base64urlEncode_eq (bs : List UInt8) : base64urlEncode bs = base64urlText (sextets bs) := by
  have htrim (k : ℕ) : (letters alphabet (sextets bs) ++ List.replicate k '=').rdropWhile (· == '=') =
      letters alphabet (sextets bs) := by
    induction k with
    | zero =>
      rw [List.replicate_zero, List.append_nil, List.rdropWhile_eq_self_iff]
      intro hne hlast
      obtain ⟨d, hd, heq⟩ := List.mem_map.mp (List.getLast_mem hne)
      rw [← heq, beq_iff_eq] at hlast
      exact (base64url_tables.2 d (List.mem_range.mpr (lt_of_mem_sextets hd))).1 hlast
    | succ k ih =>
      rw [List.replicate_succ', ← List.append_assoc, List.rdropWhile_concat_pos _ _ _ (by simp), ih]
  rw [base64urlEncode, base64Encode, String.toList_ofList, base64Chunks_eq, pad, encode, htrim,
    base64urlText, letters, letters, List.map_map, List.map_map]
  refine congrArg String.ofList (List.map_congr_left fun d hd => ?_)
  exact (base64url_tables.2 d (List.mem_range.mpr (lt_of_mem_sextets hd))).2

/-- They decode to the bytes. -/
theorem base64urlDecode_encode {bs : List UInt8} (h : bs ≠ []) :
    base64urlDecode (base64urlEncode bs) = some bs := by
  rw [base64urlDecode_iff, base64urlEncode_eq]
  exact ⟨sextets bs, valid_sextets h, rfl, decode_sextets bs⟩

/-! ## Machine words -/

/-- What a machine does where a result does not fit into its word. -/
inductive Overflow
  | overflow

/-- The loop of `base64url_decode` on its own types, `u32` and `u8`, with a check before each
operation that could lose a bit or saturate. -/
def base64urlWords : List UInt8 → UInt32 → UInt8 → Except Overflow (Option (List UInt8 × UInt8))
  | [], _, bits => .ok (some ([], bits))
  | b :: rest, accumulator, bits =>
    match base64urlDigit b with
    | none => .ok none
    | some digit =>
      if accumulator.toNat * 64 + digit ≥ 2^32 ∨ bits.toNat + 6 ≥ 2^8 then .error .overflow
      else
        let accumulator := (accumulator <<< 6) ||| UInt32.ofNat digit
        let bits := bits + 6
        if bits ≥ 8 then
          let bits := bits - 8
          (base64urlWords rest (accumulator &&& ((1 <<< bits.toUInt32) - 1)) bits).map fun result =>
            result.map fun (out, left) => ((accumulator >>> bits.toUInt32).toUInt8 :: out, left)
        else base64urlWords rest accumulator bits

section Words

variable {x : UInt32} {left : UInt8} {d : ℕ}

/-- A digit goes below the bits of the accumulator. -/
theorem toNat_push (hx : x.toNat < 2^7) (hd : d < 2^6) :
    ((x <<< 6) ||| UInt32.ofNat d).toNat = x.toNat * 64 + d := by
  rw [UInt32.toNat_or, UInt32.toNat_shiftLeft, UInt32.toNat_ofNat']
  show x.toNat <<< 6 % 2^32 ||| d % 2^32 = _
  have hshift : x.toNat <<< 6 = x.toNat * 64 := Nat.shiftLeft_eq _ _
  rw [Nat.mod_eq_of_lt (by omega), Nat.mod_eq_of_lt (by omega), ← Nat.shiftLeft_add_eq_or_of_lt hd,
    hshift]

/-- The mask keeps the bits that are left. -/
theorem toNat_mask (hleft : left.toNat < 8) :
    (x &&& ((1 <<< left.toUInt32) - 1)).toNat = x.toNat % 2^left.toNat := by
  have hlt : 2^left.toNat < 2^8 := Nat.pow_lt_pow_right (by omega) hleft
  have hdistance : left.toNat % 32 = left.toNat := Nat.mod_eq_of_lt (by omega)
  have hone : (1 <<< left.toUInt32 : UInt32).toNat = 2^left.toNat := by
    rw [UInt32.toNat_shiftLeft, UInt8.toNat_toUInt32, hdistance]
    show 1 <<< left.toNat % 2^32 = _
    rw [Nat.one_shiftLeft, Nat.mod_eq_of_lt (by omega)]
  have hle : (1 : UInt32) ≤ 1 <<< left.toUInt32 := by
    rw [UInt32.le_iff_toNat_le, hone]
    exact Nat.one_le_two_pow
  rw [UInt32.toNat_and, UInt32.toNat_sub_of_le _ _ hle, hone]
  exact Nat.and_two_pow_sub_one_eq_mod _ _

/-- The byte above them is emitted. -/
theorem toUInt8_emit (hleft : left.toNat < 8) :
    (x >>> left.toUInt32).toUInt8 = UInt8.ofNat (x.toNat / 2^left.toNat) := by
  have hdistance : left.toNat % 32 = left.toNat := Nat.mod_eq_of_lt (by omega)
  rw [← UInt8.toNat_inj, UInt32.toNat_toUInt8, UInt32.toNat_shiftRight, UInt8.toNat_toUInt32,
    hdistance, Nat.shiftRight_eq_div_pow, UInt8.toNat_ofNat']

/-- Nothing overflows while the accumulator has no more bits than the counter says, which are fewer
than eight. -/
theorem base64urlWords_eq (s : List UInt8) {accumulator : UInt32} {bits : UInt8}
    (hbits : bits.toNat < 8) (haccumulator : accumulator.toNat < 2^bits.toNat) :
    base64urlWords s accumulator bits =
      .ok ((base64urlLoop s accumulator.toNat bits.toNat).map fun (out, left) =>
        (out, UInt8.ofNat left)) := by
  induction s generalizing accumulator bits with
  | nil =>
    have hcount : UInt8.ofNat bits.toNat = bits := UInt8.ofNat_toNat
    rw [base64urlWords, base64urlLoop, Option.map_some]
    dsimp only
    rw [hcount]
  | cons b s ih =>
    rw [base64urlWords, base64urlLoop]
    cases hdigit : base64urlDigit b with
    | none => rfl
    | some d =>
      have hd := (base64urlDigit_some hdigit).1
      -- At most seven bits are left over, so that six more do not leave the word.
      have hsmall : accumulator.toNat < 2^7 :=
        haccumulator.trans_le (Nat.pow_le_pow_right (by omega) (by omega))
      have hpush := toNat_push hsmall hd
      have hcount : (bits + 6).toNat = bits.toNat + 6 := by
        rw [UInt8.toNat_add]
        exact Nat.mod_eq_of_lt (by show bits.toNat + 6 < 256; omega)
      have hbyte : bits + 6 ≥ 8 ↔ bits.toNat + 6 ≥ 8 := by
        rw [ge_iff_le, UInt8.le_iff_toNat_le, hcount]
        rfl
      dsimp only
      rw [if_neg (by omega), Option.bind_some]
      by_cases hfull : bits.toNat + 6 ≥ 8
      · -- A byte is full: it goes out, and the mask keeps the bits behind it.
        have hleft : (bits + 6 - 8).toNat = bits.toNat + 6 - 8 := by
          rw [UInt8.toNat_sub_of_le _ _ (hbyte.mpr hfull), hcount]
          rfl
        have hfew : (bits + 6 - 8).toNat < 8 := by omega
        have hmask := toNat_mask (x := (accumulator <<< 6) ||| UInt32.ofNat d) hfew
        have hemit := toUInt8_emit (x := (accumulator <<< 6) ||| UInt32.ofNat d) hfew
        rw [hleft, hpush] at hmask hemit
        have hbound : (((accumulator <<< 6) ||| UInt32.ofNat d) &&&
            ((1 <<< (bits + 6 - 8).toUInt32) - 1)).toNat < 2^(bits + 6 - 8).toNat := by
          rw [hmask, hleft]
          exact Nat.mod_lt _ (Nat.two_pow_pos _)
        rw [if_pos (hbyte.mpr hfull), if_pos hfull, ih (by omega) hbound, hmask, hleft, hemit,
          Option.map_map, Except.map, Option.map_map]
        rfl
      · have hbound : ((accumulator <<< 6) ||| UInt32.ofNat d).toNat < 2^(bits + 6).toNat := by
          rw [hpush, hcount, pow_add]
          omega
        rw [if_neg (mt hbyte.mp hfull), if_neg hfull, ih (by omega) hbound, hpush, hcount]

end Words

/-! ## Texts of the same bytes -/

/-- The bits of the last letter that the decoder drops are zeros. -/
def SpareBitsZero (value : String) : Prop :=
  ∀ d, (bytes value).getLast?.bind base64urlDigit = some d → d % 2^(6 * len value % 8) = 0

/-- Digits are told apart by their letters. -/
theorem base64urlText_inj {ds es : List ℕ} (hds : ∀ d ∈ ds, d < 64) (hes : ∀ d ∈ es, d < 64)
    (h : base64urlText ds = base64urlText es) : ds = es := by
  have hfirst := base64urlDigits_eq_some.mpr ⟨hds, h.symm⟩
  have hsecond := base64urlDigits_eq_some.mpr ⟨hes, rfl⟩
  exact Option.some.inj (hfirst.symm.trans hsecond)

/-- A text that is decoded is the standard's encoding of its bytes exactly where the spare bits are
zeros, and the only text of its bytes exactly where it has none. -/
theorem base64urlDecode_canonical_iff {value : String} {bs : List UInt8}
    (h : base64urlDecode value = some bs) :
    (value = String.ofList (encode urlAlphabet bs) ↔ SpareBitsZero value) ∧
      ((∀ other, base64urlDecode other = some bs → other = value) ↔ len value % 4 = 0) := by
  obtain ⟨digits, hvalid, rfl, rfl⟩ := base64urlDecode_iff.mp h
  have hbytes := bytes_base64urlText hvalid.lt
  have hlength : len (base64urlText digits) = digits.length := by
    rw [len_eq_length, hbytes, List.length_map]
  constructor
  · obtain ⟨init, d, hdigits⟩ := (List.eq_nil_or_concat digits).resolve_left hvalid.ne_nil
    rw [List.concat_eq_append] at hdigits
    subst hdigits
    have hd : d < 64 := hvalid.lt d (by simp)
    have hlast : (bytes (base64urlText (init ++ [d]))).getLast?.bind base64urlDigit = some d := by
      rw [hbytes, List.map_append, List.map_singleton, List.getLast?_concat]
      exact (base64url_tables.1 d (List.mem_range.mpr hd)).2.2
    have hencoded : base64urlText (init ++ [d]) =
          String.ofList (encode urlAlphabet (decode (init ++ [d]))) ↔
        init ++ [d] = sextets (decode (init ++ [d])) := by
      constructor
      · exact base64urlText_inj hvalid.lt fun e => lt_of_mem_sextets
      · exact congrArg base64urlText
    rw [hencoded, sextets_decode_iff hvalid.needed hvalid.lt, SpareBitsZero, hlast, hlength]
    exact ⟨fun hzero e he => Option.some.inj he ▸ hzero, fun hzero => hzero d rfl⟩
  · rw [hlength, ← decode_unique_iff hvalid]
    constructor
    · intro hunique es hes hdecode
      have htext := hunique _ (base64urlDecode_iff.mpr ⟨es, hes, rfl, hdecode⟩)
      exact base64urlText_inj hes.lt hvalid.lt htext
    · intro hunique other hother
      obtain ⟨es, hes, rfl, hdecode⟩ := base64urlDecode_iff.mp hother
      rw [hunique es hes hdecode]

/-! ## The encodings as a whole -/

/-- The encoder is that of the standard, base64url texts of some bytes decode to them, and the
decoder overflows on no input. -/
theorem base64_round_trips :
    (∀ bs : List UInt8, bs ≠ [] → base64urlDecode (base64urlEncode bs) = some bs) ∧
      (∀ bs : List UInt8, base64Encode bs = String.ofList (pad (encode alphabet bs))) ∧
      ∀ value : String, base64urlWords (bytes value) 0 0 =
        .ok ((base64urlLoop (bytes value) 0 0).map fun (out, left) => (out, UInt8.ofNat left)) := by
  refine ⟨fun bs hne => base64urlDecode_encode hne, fun bs => ?_, fun value => ?_⟩
  · rw [base64Encode, base64Chunks_eq]
  · exact base64urlWords_eq (bytes value) (by decide) (by decide)

/-- One byte has two letters. -/
theorem base64_round_trips_letter : base64urlDecode (base64urlEncode [0x41]) = some [0x41] :=
  base64_round_trips.1 [0x41] (by decide)

example : base64Encode [0x41] = "QQ==" ∧ base64urlEncode [0x41] = "QQ" := by decide +kernel

end NodeWe
