import NodeWe.Bits

/-!
# Base64

The encodings of RFC 4648. The bits of some bytes are cut into groups of six, the last of which is
filled up with zeros, and each group is a letter of an alphabet (`encode`); equals signs fill the
letters up to a multiple of four (`pad`). A reader keeps the whole bytes of the bits of its digits
(`decode`). It inverts `encode`, but bits that are left over can be anything: `sextets_decode_iff`
says which digits are an encoding, and `decode_unique_iff` which are the only ones of their bytes.
-/

namespace NodeWe.Base64

open Bits

/-! ## Encoding -/

/-- The alphabet of base64. -/
def alphabet : List Char :=
  "ABCDEFGHIJKLMNOPQRSTUVWXYZabcdefghijklmnopqrstuvwxyz0123456789+/".toList

/-- The alphabet of base64url. -/
def urlAlphabet : List Char :=
  "ABCDEFGHIJKLMNOPQRSTUVWXYZabcdefghijklmnopqrstuvwxyz0123456789-_".toList

/-- The zeros that fill up the last group. -/
def fill (length : ℕ) : ℕ := (6 - 8 * length % 6) % 6

/-- The groups of six bits, as numbers. -/
def sextets (bs : List UInt8) : List ℕ :=
  (parts 6 (ofBytes bs ++ List.replicate (fill bs.length) false)).map toNat

/-- The letters of some digits. -/
def letters (table : List Char) (digits : List ℕ) : List Char :=
  digits.map fun d => table.getD d '='

/-- The encoding without equals signs. -/
def encode (table : List Char) (bs : List UInt8) : List Char := letters table (sextets bs)

/-- Letters filled up to groups of four. -/
def pad (text : List Char) : List Char :=
  text ++ List.replicate ((4 - text.length % 4) % 4) '='

/-! ## Decoding -/

/-- The bits of some digits. -/
def digitBits (digits : List ℕ) : List Bool := digits.flatMap (ofNat 6)

/-- The whole bytes of some digits. -/
def decode (digits : List ℕ) : List UInt8 := toBytes (digitBits digits)

/-- The number of bits that are left over. -/
def leftover (digits : List ℕ) : ℕ := 6 * digits.length % 8

/-- Digits that a reader accepts: there are some, and the last one is needed. -/
structure Valid (digits : List ℕ) : Prop where
  lt : ∀ d ∈ digits, d < 64
  ne_nil : digits ≠ []
  needed : leftover digits < 6

/-- A digit has six bits. -/
theorem length_digitBits (digits : List ℕ) : (digitBits digits).length = 6 * digits.length :=
  length_flatMap_uniform (k := 6) (f := ofNat 6) (fun _ => length_ofNat _ _) digits

/-- The digits of some bits. -/
theorem digits_of_bits {digits : List ℕ} (h : ∀ d ∈ digits, d < 64) :
    (parts 6 (digitBits digits)).map toNat = digits := by
  induction digits with
  | nil => rfl
  | cons d digits ih =>
    rw [List.forall_mem_cons] at h
    have hbits : digitBits (d :: digits) = ofNat 6 d ++ digitBits digits := List.flatMap_cons
    have hdigit : d % 2^6 = d := Nat.mod_eq_of_lt h.1
    rw [hbits, parts_append (by omega) (length_ofNat 6 d), List.map_cons, toNat_ofNat, hdigit, ih h.2]

/-- Digits are told apart by their bits. -/
theorem digitBits_inj {ds es : List ℕ} (hds : ∀ d ∈ ds, d < 64) (hes : ∀ d ∈ es, d < 64)
    (h : digitBits ds = digitBits es) : ds = es := by
  rw [← digits_of_bits hds, h, digits_of_bits hes]

/-! ## Round trip -/

section RoundTrip

variable (bs : List UInt8)

/-- The groups of some bytes are digits. -/
theorem lt_of_mem_sextets {bs : List UInt8} {d : ℕ} (h : d ∈ sextets bs) : d < 64 := by
  obtain ⟨part, hpart, rfl⟩ := List.mem_map.mp h
  have hlt := toNat_lt part
  rwa [length_of_mem_parts hpart] at hlt

/-- The bits of the groups are those of the bytes, filled up. -/
theorem digitBits_sextets :
    digitBits (sextets bs) = ofBytes bs ++ List.replicate (fill bs.length) false := by
  have hpart : ∀ part ∈ parts 6 (ofBytes bs ++ List.replicate (fill bs.length) false),
      ofNat 6 (toNat part) = part := by
    intro part hpart
    rw [← length_of_mem_parts hpart, ofNat_toNat]
  have hwhole : (ofBytes bs ++ List.replicate (fill bs.length) false).length % 6 = 0 := by
    rw [List.length_append, length_ofBytes, List.length_replicate, fill]
    omega
  rw [digitBits, sextets, List.flatMap_map, List.flatMap_def, List.map_congr_left hpart,
    List.map_id', flatten_parts (by omega) rfl, List.take_of_length_le (by omega)]

/-- The number of a digit in front. -/
theorem toNat_digitBits_cons {d : ℕ} (h : d < 64) (digits : List ℕ) :
    toNat (digitBits (d :: digits)) = d * 2^(6 * digits.length) + toNat (digitBits digits) := by
  have hdigit : d % 2^6 = d := Nat.mod_eq_of_lt h
  rw [digitBits, List.flatMap_cons, toNat_append, toNat_ofNat, hdigit, ← length_digitBits]
  rfl

/-- The groups of some bytes, from their number. -/
theorem sextets_eq {bs : List UInt8} {digits : List ℕ} (hlt : ∀ d ∈ digits, d < 64)
    (hlength : 6 * digits.length = 8 * bs.length + fill bs.length)
    (h : toNat (digitBits digits) = toNat (ofBytes bs) * 2^fill bs.length) :
    sextets bs = digits := by
  refine digitBits_inj (fun d => lt_of_mem_sextets) hlt (toNat_inj ?_ ?_)
  · rw [digitBits_sextets, List.length_append, length_ofBytes, List.length_replicate,
      length_digitBits, hlength]
  · rw [digitBits_sextets, ← ofNat_zero, toNat_append, toNat_ofNat, length_ofNat, Nat.zero_mod,
      Nat.add_zero, h]

/-- Three bytes are groups of their own. -/
theorem sextets_append {front : List UInt8} (h : front.length % 3 = 0) (rest : List UInt8) :
    sextets (front ++ rest) = sextets front ++ sextets rest := by
  have hnone : fill front.length = 0 := by
    rw [fill]
    omega
  have hfill : fill (front ++ rest).length = fill rest.length := by
    rw [fill, fill, List.length_append]
    omega
  refine digitBits_inj (fun d => lt_of_mem_sextets) (fun d hd => ?_) ?_
  · rcases List.mem_append.mp hd with hd | hd
    · exact lt_of_mem_sextets hd
    · exact lt_of_mem_sextets hd
  · calc digitBits (sextets (front ++ rest))
        = ofBytes front ++ (ofBytes rest ++ List.replicate (fill rest.length) false) := by
          rw [digitBits_sextets, ofBytes_append, hfill, List.append_assoc]
      _ = digitBits (sextets front) ++ digitBits (sextets rest) := by
          rw [digitBits_sextets, digitBits_sextets, hnone, List.replicate_zero, List.append_nil]
      _ = digitBits (sextets front ++ sextets rest) := List.flatMap_append.symm

/-- As many groups as it takes. -/
theorem length_sextets : (sextets bs).length = (8 * bs.length + 5) / 6 := by
  have hlength := length_digitBits (sextets bs)
  rw [digitBits_sextets, List.length_append, length_ofBytes, List.length_replicate, fill] at hlength
  omega

/-- The groups of some bytes decode to them. -/
theorem decode_sextets : decode (sextets bs) = bs := by
  rw [decode, digitBits_sextets]
  refine toBytes_append bs ?_
  rw [List.length_replicate, fill]
  omega

/-- A reader accepts them. -/
theorem valid_sextets {bs : List UInt8} (h : bs ≠ []) : Valid (sextets bs) := by
  have hlength := length_sextets bs
  have hpos := List.length_pos_iff.mpr h
  refine ⟨fun d => lt_of_mem_sextets, List.ne_nil_of_length_pos (by omega), ?_⟩
  rw [leftover]
  omega

end RoundTrip

/-! ## Bits that are left over -/

section Leftover

variable {init ds es : List ℕ} {d : ℕ}

/-- The bits that make whole bytes, and those of the last digit that are left over. -/
theorem digitBits_snoc (h : leftover (init ++ [d]) < 6) :
    digitBits (init ++ [d]) =
        digitBits init ++ ofNat (6 - leftover (init ++ [d])) (d / 2^leftover (init ++ [d])) ++
          ofNat (leftover (init ++ [d])) d := by
  have hsplit : 6 - leftover (init ++ [d]) + leftover (init ++ [d]) = 6 := by omega
  rw [List.append_assoc, ← ofNat_add, hsplit, digitBits, List.flatMap_append, List.flatMap_singleton]
  rfl

/-- Only the former are read. -/
theorem ofBytes_decode_snoc (h : leftover (init ++ [d]) < 6) :
    ofBytes (decode (init ++ [d])) =
      digitBits init ++ ofNat (6 - leftover (init ++ [d])) (d / 2^leftover (init ++ [d])) := by
  rw [decode, ofBytes_toBytes, digitBits_snoc h]
  refine List.take_left' ?_
  simp only [List.length_append, length_digitBits, length_ofNat]
  rw [leftover, List.length_append, List.length_singleton] at h ⊢
  omega

/-- Digits are an encoding exactly where the bits that are left over are zeros. -/
theorem sextets_decode_iff (h : leftover (init ++ [d]) < 6) (hlt : ∀ e ∈ init ++ [d], e < 64) :
    init ++ [d] = sextets (decode (init ++ [d])) ↔ d % 2^leftover (init ++ [d]) = 0 := by
  have hread := ofBytes_decode_snoc h
  have hfill : fill (decode (init ++ [d])).length = leftover (init ++ [d]) := by
    have hlength := congrArg List.length hread
    rw [length_ofBytes, List.length_append, length_digitBits, length_ofNat] at hlength
    rw [fill, leftover, List.length_append, List.length_singleton] at *
    omega
  have hbits := digitBits_sextets (decode (init ++ [d]))
  rw [hfill, hread, ← ofNat_zero] at hbits
  constructor
  · intro heq
    have hsame := congrArg digitBits heq
    rw [hbits, digitBits_snoc h] at hsame
    have hzero := congrArg toNat (List.append_cancel_left hsame)
    rwa [toNat_ofNat, toNat_ofNat, Nat.zero_mod] at hzero
  · intro hzero
    refine digitBits_inj hlt (fun e => lt_of_mem_sextets) ?_
    rw [hbits, digitBits_snoc h, ← ofNat_mod le_rfl d, hzero]

/-- Where nothing is left over, all the bits are read. -/
theorem ofBytes_decode_whole (h : leftover ds = 0) : ofBytes (decode ds) = digitBits ds := by
  rw [decode, ofBytes_toBytes, List.take_of_length_le]
  rw [length_digitBits]
  rw [leftover] at h
  omega

/-- Another last digit that is read as the same bytes. -/
theorem exists_sibling (h : Valid (init ++ [d])) (hgroups : (init ++ [d]).length % 4 ≠ 0) :
    ∃ e, e ≠ d ∧ Valid (init ++ [e]) ∧ decode (init ++ [e]) = decode (init ++ [d]) := by
  have hneeded := h.needed
  have hd : d < 64 := h.lt d (by simp)
  have hsame (e : ℕ) : leftover (init ++ [e]) = leftover (init ++ [d]) := by
    rw [leftover, leftover, List.length_append, List.length_append]
    rfl
  have hspare : leftover (init ++ [d]) = 2 ∨ leftover (init ++ [d]) = 4 := by
    rw [leftover] at hneeded ⊢
    omega
  -- The lowest bit of the digit is left over.
  obtain ⟨e, hne, he, hhigh⟩ :
      ∃ e, e ≠ d ∧ e < 64 ∧ e / 2^leftover (init ++ [d]) = d / 2^leftover (init ++ [d]) := by
    by_cases heven : d % 2 = 0
    · refine ⟨d + 1, by omega, by omega, ?_⟩
      rcases hspare with hspare | hspare <;> rw [hspare] <;> omega
    · refine ⟨d - 1, by omega, by omega, ?_⟩
      rcases hspare with hspare | hspare <;> rw [hspare] <;> omega
  refine ⟨e, hne, ⟨fun x hx => ?_, by simp, by rw [hsame]; exact hneeded⟩, ofBytes_inj ?_⟩
  · rcases List.mem_append.mp hx with hx | hx
    · exact h.lt x (List.mem_append_left _ hx)
    · rwa [List.mem_singleton.mp hx]
  · rw [ofBytes_decode_snoc hneeded, ofBytes_decode_snoc (by rw [hsame]; exact hneeded), hsame, hhigh]

/-- Digits are the only ones of their bytes exactly where they come in groups of four. -/
theorem decode_unique_iff (h : Valid ds) :
    (∀ es, Valid es → decode es = decode ds → es = ds) ↔ ds.length % 4 = 0 := by
  constructor
  · intro hunique
    by_contra hgroups
    obtain ⟨init, d, hds⟩ := (List.eq_nil_or_concat ds).resolve_left h.ne_nil
    rw [List.concat_eq_append] at hds
    subst hds
    obtain ⟨e, hne, he, hdecode⟩ := exists_sibling h hgroups
    have hlast := List.append_cancel_left (hunique _ he hdecode)
    exact hne (List.singleton_inj.mp hlast)
  · intro hgroups es hes hdecode
    have hlength : 6 * es.length / 8 = 6 * ds.length / 8 := by
      have hbytes := congrArg List.length hdecode
      rwa [decode, decode, length_toBytes, length_toBytes, length_digitBits,
        length_digitBits] at hbytes
    have hneeded := hes.needed
    rw [leftover] at hneeded
    refine digitBits_inj hes.lt h.lt ?_
    have hfirst : leftover es = 0 := by
      rw [leftover]
      omega
    have hsecond : leftover ds = 0 := by
      rw [leftover]
      omega
    rw [← ofBytes_decode_whole hfirst, hdecode, ofBytes_decode_whole hsecond]

end Leftover

end NodeWe.Base64
