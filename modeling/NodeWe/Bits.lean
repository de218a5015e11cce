import Mathlib.Tactic.Ring

/-!
# Bit strings

Standards describe encodings and hash functions on strings of bits, most significant bit first.
A number has a bit string of each width (`ofNat`), which reads back as the number modulo a power of
two (`toNat_ofNat`), and bytes have the bit strings of each in a row (`ofBytes`). `parts` cuts a
list into pieces of one length.
-/

namespace NodeWe.Bits

/-- The `width` low bits of a number. -/
def ofNat : ℕ → ℕ → List Bool
  | 0, _ => []
  | width + 1, n => n.testBit width :: ofNat width n

/-- The number that a bit string stands for. -/
def toNat : List Bool → ℕ
  | [] => 0
  | b :: bits => b.toNat * 2^bits.length + toNat bits

/-- The bits of some bytes. -/
def ofBytes (bs : List UInt8) : List Bool := bs.flatMap fun b => ofNat 8 b.toNat

/-- The whole pieces of `n` entries of a list, in order. -/
def parts {α : Type*} (n : ℕ) (xs : List α) : List (List α) :=
  (List.range (xs.length / n)).map fun i => (xs.drop (n * i)).take n

/-- The bytes of some bits. -/
def toBytes (bits : List Bool) : List UInt8 := (parts 8 bits).map fun part => UInt8.ofNat (toNat part)

/-! ## Numbers -/

/-- A bit string has its width. -/
@[simp] theorem length_ofNat (width n : ℕ) : (ofNat width n).length = width := by
  induction width with
  | zero => rfl
  | succ width ih => rw [ofNat, List.length_cons, ih]

/-- The high bits and the low bits of a number. -/
theorem ofNat_add (high low n : ℕ) :
    ofNat (high + low) n = ofNat high (n / 2^low) ++ ofNat low n := by
  induction high with
  | zero => rw [Nat.zero_add, ofNat, List.nil_append]
  | succ high ih =>
    rw [Nat.add_right_comm, ofNat, ofNat, ih, Nat.testBit_div_two_pow, List.cons_append]

/-- The bits beyond the width do not matter. -/
theorem ofNat_mod {width k : ℕ} (h : width ≤ k) (n : ℕ) :
    ofNat width (n % 2^k) = ofNat width n := by
  induction width with
  | zero => rfl
  | succ width ih =>
    have hbit : decide (width < k) = true := decide_eq_true h
    rw [ofNat, ofNat, ih (by omega), Nat.testBit_mod_two_pow, hbit, Bool.true_and]

/-- A bit string reads back as the number, as far as its width goes. -/
theorem toNat_ofNat (width n : ℕ) : toNat (ofNat width n) = n % 2^width := by
  induction width with
  | zero => rw [ofNat, toNat, pow_zero, Nat.mod_one]
  | succ width ih =>
    rw [ofNat, toNat, ih, length_ofNat, Nat.mod_pow_succ, Nat.toNat_testBit]
    ring

/-- A bit string stands for a number of its width. -/
theorem toNat_lt (bits : List Bool) : toNat bits < 2^bits.length := by
  induction bits with
  | nil => exact Nat.one_pos
  | cons b bits ih =>
    have hbit : b.toNat ≤ 1 := Bool.toNat_le b
    have hmul : b.toNat * 2^bits.length ≤ 1 * 2^bits.length := Nat.mul_le_mul_right _ hbit
    rw [toNat, List.length_cons, pow_succ]
    omega

/-- The number of a bit string has that bit string. -/
theorem ofNat_toNat (bits : List Bool) : ofNat bits.length (toNat bits) = bits := by
  induction bits with
  | nil => rfl
  | cons b bits ih =>
    have hlow : toNat (b :: bits) % 2^bits.length = toNat bits := by
      rw [toNat, Nat.mul_add_mod_of_lt (toNat_lt bits)]
    have hhigh : (toNat (b :: bits)).testBit bits.length = b := by
      rw [toNat, Nat.mul_comm, Nat.testBit_two_pow_mul_add _ (toNat_lt bits), if_neg (by omega),
        Nat.sub_self]
      cases b <;> rfl
    rw [List.length_cons, ofNat, hhigh, ← ofNat_mod le_rfl, hlow, ih]

/-- The number of two bit strings in a row. -/
theorem toNat_append (high low : List Bool) :
    toNat (high ++ low) = toNat high * 2^low.length + toNat low := by
  induction high with
  | nil => rw [List.nil_append, toNat, Nat.zero_mul, Nat.zero_add]
  | cons b high ih =>
    rw [List.cons_append, toNat, toNat, ih, List.length_append, pow_add]
    ring

/-- Zeros in a row. -/
theorem ofNat_zero (width : ℕ) : ofNat width 0 = List.replicate width false := by
  induction width with
  | zero => rfl
  | succ width ih => rw [ofNat, ih, Nat.zero_testBit, List.replicate_succ]

/-- Bit strings of one length that stand for one number are equal. -/
theorem toNat_inj {s t : List Bool} (hlength : s.length = t.length) (h : toNat s = toNat t) :
    s = t := by
  rw [← ofNat_toNat s, ← ofNat_toNat t, h, hlength]

/-! ## Pieces -/

section Pieces

variable {α β : Type*} {k : ℕ} {f : α → List β}

/-- Each piece has its length. -/
theorem length_of_mem_parts {n : ℕ} {xs part : List α} (h : part ∈ parts n xs) :
    part.length = n := by
  obtain ⟨i, hi, rfl⟩ := List.mem_map.mp h
  have hbound : n * (i + 1) ≤ n * (xs.length / n) :=
    Nat.mul_le_mul_left n (List.mem_range.mp hi)
  have hwhole : n * (xs.length / n) ≤ xs.length := Nat.mul_div_le _ _
  rw [List.length_take, List.length_drop]
  rw [Nat.mul_succ] at hbound
  omega

/-- A list that is shorter than a piece has none. -/
theorem parts_of_lt {n : ℕ} {xs : List α} (h : xs.length < n) : parts n xs = [] := by
  rw [parts, Nat.div_eq_of_lt h]
  rfl

/-- A piece at the front. -/
theorem parts_append {n : ℕ} (hn : 0 < n) {part : List α} (hpart : part.length = n)
    (rest : List α) : parts n (part ++ rest) = part :: parts n rest := by
  have hcount : (part ++ rest).length / n = rest.length / n + 1 := by
    rw [List.length_append, hpart, Nat.add_div_left _ hn]
  have hlater (i : ℕ) : (part ++ rest).drop (n * (i + 1)) = rest.drop (n * i) := by
    rw [Nat.mul_succ, Nat.add_comm, ← List.drop_drop, ← hpart, List.drop_left]
  rw [parts, hcount, List.range_succ_eq_map, List.map_cons, List.map_map, Nat.mul_zero,
    List.drop_zero, ← hpart, List.take_left, hpart]
  refine congrArg (part :: ·) (List.map_congr_left fun i _ => ?_)
  rw [Function.comp_apply, hlater]

/-- The pieces in a row are the list, but for what is left over. -/
theorem flatten_parts {n count : ℕ} (hn : 0 < n) {xs : List α} (h : xs.length / n = count) :
    (parts n xs).flatten = xs.take (n * count) := by
  induction count generalizing xs with
  | zero =>
    have hshort : xs.length < n := (Nat.div_eq_zero_iff_lt hn).mp h
    rw [parts_of_lt hshort, List.flatten_nil, Nat.mul_zero, List.take_zero]
  | succ count ih =>
    have hlong : n ≤ xs.length := (Nat.div_pos_iff.mp (by omega : 0 < xs.length / n)).2
    have hfirst : (xs.take n).length = n := List.length_take_of_le hlong
    have hrest : (xs.drop n).length / n = count := by
      have hstep := Nat.div_eq_sub_div hn hlong
      rw [List.length_drop]
      omega
    calc (parts n xs).flatten = (parts n (xs.take n ++ xs.drop n)).flatten := by
          rw [List.take_append_drop]
      _ = xs.take n ++ (xs.drop n).take (n * count) := by
          rw [parts_append hn hfirst, List.flatten_cons, ih hrest]
      _ = xs.take (n * (count + 1)) := by
          rw [← List.take_add, Nat.mul_succ, Nat.add_comm]

variable (hf : ∀ x, (f x).length = k)

include hf

/-- Entries of one length in a row. -/
theorem length_flatMap_uniform (xs : List α) : (xs.flatMap f).length = k * xs.length := by
  induction xs with
  | nil => rfl
  | cons x xs ih =>
    rw [List.flatMap_cons, List.length_append, hf, ih, List.length_cons, Nat.mul_succ, Nat.add_comm]

/-- The first ones of them, and the others. -/
theorem split_flatMap (xs : List α) (n : ℕ) :
    (xs.flatMap f).take (k * n) = (xs.take n).flatMap f ∧
      (xs.flatMap f).drop (k * n) = (xs.drop n).flatMap f := by
  induction xs generalizing n with
  | nil => simp
  | cons x xs ih =>
    cases n with
    | zero => simp
    | succ n =>
      have hskip : k * (n + 1) = (f x).length + k * n := by rw [hf, Nat.mul_succ, Nat.add_comm]
      rw [hskip, List.flatMap_cons, List.take_length_add_append, List.drop_length_add_append,
        (ih n).1, (ih n).2]
      exact ⟨rfl, rfl⟩

/-- The pieces of a row of entries are those of the entries. -/
theorem parts_flatMap (hk : 0 < k) (n : ℕ) (xs : List α) :
    parts (k * n) (xs.flatMap f) = (parts n xs).map (List.flatMap f) := by
  rw [parts, length_flatMap_uniform hf, Nat.mul_div_mul_left _ _ hk, parts, List.map_map]
  refine List.map_congr_left fun i _ => ?_
  rw [Nat.mul_assoc, (split_flatMap hf xs (n * i)).2, (split_flatMap hf _ n).1]
  rfl

end Pieces

/-! ## Bytes -/

section Bytes

variable (bs cs : List UInt8)

/-- Bytes in a row. -/
theorem ofBytes_append : ofBytes (bs ++ cs) = ofBytes bs ++ ofBytes cs := List.flatMap_append

/-- A byte in front. -/
theorem ofBytes_cons (b : UInt8) : ofBytes (b :: bs) = ofNat 8 b.toNat ++ ofBytes bs := rfl

/-- A byte has eight bits. -/
@[simp] theorem length_ofBytes : (ofBytes bs).length = 8 * bs.length :=
  length_flatMap_uniform (k := 8) (f := fun b : UInt8 => ofNat 8 b.toNat)
    (fun _ => length_ofNat _ _) bs

/-- The number of a byte in front. -/
theorem toNat_ofBytes_cons (b : UInt8) :
    toNat (ofBytes (b :: bs)) = b.toNat * 2^(8 * bs.length) + toNat (ofBytes bs) := by
  rw [ofBytes_cons, toNat_append, toNat_ofNat, Nat.mod_eq_of_lt b.toNat_lt, length_ofBytes]

/-- The pieces of whole bytes. -/
theorem parts_ofBytes (n : ℕ) : parts (8 * n) (ofBytes bs) = (parts n bs).map ofBytes :=
  parts_flatMap (k := 8) (f := fun b : UInt8 => ofNat 8 b.toNat) (fun _ => length_ofNat _ _)
    (by omega) n bs

/-- The low byte of a number. -/
theorem ofNat_ofNat_byte (n : ℕ) : ofNat 8 (UInt8.ofNat n).toNat = ofNat 8 n := by
  rw [UInt8.toNat_ofNat', ofNat_mod le_rfl]

/-- The bits of a byte in front. -/
theorem toBytes_cons {byte : List Bool} (h : byte.length = 8) (rest : List Bool) :
    toBytes (byte ++ rest) = UInt8.ofNat (toNat byte) :: toBytes rest := by
  rw [toBytes, parts_append (by omega) h, List.map_cons]
  rfl

/-- The bits of some bytes are those bytes, whatever is left over. -/
theorem toBytes_append {rest : List Bool} (h : rest.length < 8) : toBytes (ofBytes bs ++ rest) = bs := by
  induction bs with
  | nil => rw [toBytes, ofBytes, List.flatMap_nil, List.nil_append, parts_of_lt h, List.map_nil]
  | cons b bs ih =>
    have hbyte : UInt8.ofNat (toNat (ofNat 8 b.toNat)) = b := by
      rw [toNat_ofNat, Nat.mod_eq_of_lt b.toNat_lt, UInt8.ofNat_toNat]
    rw [ofBytes_cons, List.append_assoc, toBytes_cons (length_ofNat 8 b.toNat), hbyte, ih]

/-- The bits of some bytes are those bytes. -/
theorem toBytes_ofBytes : toBytes (ofBytes bs) = bs := by
  have hnone : ([] : List Bool).length < 8 := by decide
  have h := toBytes_append bs hnone
  rwa [List.append_nil] at h

/-- The whole bytes of some bits. -/
theorem ofBytes_toBytes (bits : List Bool) :
    ofBytes (toBytes bits) = bits.take (8 * (bits.length / 8)) := by
  have hpart : ∀ part ∈ parts 8 bits, ofNat 8 (UInt8.ofNat (toNat part)).toNat = part := by
    intro part hpart
    rw [ofNat_ofNat_byte, ← length_of_mem_parts hpart, ofNat_toNat]
  calc ofBytes (toBytes bits)
      = (parts 8 bits).flatMap fun part => ofNat 8 (UInt8.ofNat (toNat part)).toNat := by
        rw [ofBytes, toBytes, List.flatMap_map]
    _ = (parts 8 bits).flatten := by
        rw [List.flatMap_def, List.map_congr_left hpart, List.map_id']
    _ = bits.take (8 * (bits.length / 8)) := flatten_parts (by omega) rfl

/-- As many bytes as fit. -/
theorem length_toBytes (bits : List Bool) : (toBytes bits).length = bits.length / 8 := by
  rw [toBytes, parts, List.length_map, List.length_map, List.length_range]

variable {bs cs}

/-- Bytes are told apart by their bits. -/
theorem ofBytes_inj (h : ofBytes bs = ofBytes cs) : bs = cs := by
  rw [← toBytes_ofBytes bs, h, toBytes_ofBytes]

end Bytes

end NodeWe.Bits
