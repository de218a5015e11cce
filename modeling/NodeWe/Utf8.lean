import NodeWe.Text

/-!
# Reading bytes that may not be a text

`String::from_utf8_lossy` of the Rust standard library: a character where the bytes have one, and
one replacement character for each sequence of bytes that starts like a character and breaks off.
Such a sequence is the longest one that some character starts with, or a single byte.
-/

namespace NodeWe.Utf8

open Text

/-- The first character of some bytes, if they start with one. -/
def firstChar (bs : List UInt8) : Option Char := ByteArray.utf8DecodeChar? ⟨bs.toArray⟩ 0

/-- The ranges of the bytes that may follow the first byte of a character, in order. -/
def followers (lead : UInt8) : List (UInt8 × UInt8) :=
  if 0xC2 ≤ lead ∧ lead ≤ 0xDF then [(0x80, 0xBF)]
  else if lead = 0xE0 then [(0xA0, 0xBF), (0x80, 0xBF)]
  else if lead = 0xED then [(0x80, 0x9F), (0x80, 0xBF)]
  else if 0xE1 ≤ lead ∧ lead ≤ 0xEF then [(0x80, 0xBF), (0x80, 0xBF)]
  else if lead = 0xF0 then [(0x90, 0xBF), (0x80, 0xBF), (0x80, 0xBF)]
  else if 0xF1 ≤ lead ∧ lead ≤ 0xF3 then [(0x80, 0xBF), (0x80, 0xBF), (0x80, 0xBF)]
  else if lead = 0xF4 then [(0x80, 0x8F), (0x80, 0xBF), (0x80, 0xBF)]
  else []

/-- How many bytes in front follow the ranges. -/
def following : List (UInt8 × UInt8) → List UInt8 → ℕ
  | (low, high) :: ranges, b :: rest =>
    if low ≤ b ∧ b ≤ high then following ranges rest + 1 else 0
  | _, _ => 0

/-- The characters of some bytes, read in at most `fuel` pieces. -/
def readLossy : ℕ → List UInt8 → List Char
  | 0, _ => []
  | _ + 1, [] => []
  | fuel + 1, lead :: rest =>
    match firstChar (lead :: rest) with
    | some c => c :: readLossy fuel ((lead :: rest).drop c.utf8Size)
    | none => '\uFFFD' :: readLossy fuel (rest.drop (following (followers lead) rest))

/-- `String::from_utf8_lossy`. Each piece has a byte, so their number bounds the pieces. -/
def fromUtf8Lossy (bs : List UInt8) : String := String.ofList (readLossy bs.length bs)

/-- The bytes of a character, in front of any others, are read as it. -/
theorem firstChar_encode (c : Char) (rest : List UInt8) :
    firstChar (String.utf8EncodeChar c ++ rest) = some c := by
  have happend : (⟨(String.utf8EncodeChar c ++ rest).toArray⟩ : ByteArray) =
      (String.utf8EncodeChar c).toByteArray ++ ⟨rest.toArray⟩ := by
    apply ByteArray.ext
    simp
  rw [firstChar, happend, ByteArray.utf8DecodeChar?_utf8EncodeChar_append]

/-- The characters of a text are read back, in front of any other bytes. -/
theorem readLossy_append (cs : List Char) (more : List UInt8) {fuel : ℕ}
    (h : (cs.flatMap String.utf8EncodeChar ++ more).length ≤ fuel) :
    ∃ fuel', more.length ≤ fuel' ∧
      readLossy fuel (cs.flatMap String.utf8EncodeChar ++ more) = cs ++ readLossy fuel' more := by
  induction cs generalizing fuel with
  | nil => exact ⟨fuel, h, rfl⟩
  | cons c cs ih =>
    have hsize : (String.utf8EncodeChar c).length = c.utf8Size := String.length_utf8EncodeChar c
    have hpos : 0 < c.utf8Size := c.utf8Size_pos
    rw [List.flatMap_cons, List.append_assoc] at h ⊢
    rw [List.length_append] at h
    have hfirst := firstChar_encode c (cs.flatMap String.utf8EncodeChar ++ more)
    obtain ⟨lead, rest, hbytes⟩ : ∃ lead rest, String.utf8EncodeChar c ++
        (cs.flatMap String.utf8EncodeChar ++ more) = lead :: rest := by
      apply List.exists_cons_of_ne_nil
      intro hempty
      have hlength := congrArg List.length hempty
      rw [List.length_append, List.length_nil] at hlength
      omega
    -- A character has a byte at least, so one unit of fuel is enough for it.
    obtain ⟨fuel, rfl⟩ : ∃ n, fuel = n + 1 := ⟨fuel - 1, by omega⟩
    have hfuel : (cs.flatMap String.utf8EncodeChar ++ more).length ≤ fuel := by omega
    obtain ⟨fuel', hfuel, hread⟩ := ih hfuel
    refine ⟨fuel', hfuel, ?_⟩
    rw [hbytes] at hfirst ⊢
    rw [readLossy, hfirst]
    dsimp only
    rw [← hbytes, ← hsize, List.drop_left, hread, List.cons_append]

/-- The characters of a text are read back. -/
theorem readLossy_encode (cs : List Char) {fuel : ℕ}
    (h : (cs.flatMap String.utf8EncodeChar).length ≤ fuel) :
    readLossy fuel (cs.flatMap String.utf8EncodeChar) = cs := by
  rw [← List.append_nil (cs.flatMap String.utf8EncodeChar)] at h ⊢
  obtain ⟨fuel', -, hread⟩ := readLossy_append cs [] h
  rw [hread]
  cases fuel' <;> exact List.append_nil cs

/-- The bytes of a text are read back as the text. -/
theorem fromUtf8Lossy_bytes (s : String) : fromUtf8Lossy (bytes s) = s := by
  rw [fromUtf8Lossy, bytes_eq_flatMap, readLossy_encode _ le_rfl, String.ofList_toList]

/-! ## Characters that break off -/

/-- Bytes that start with a character start with its bytes. -/
theorem firstChar_eq_some {bs : List UInt8} {c : Char} (h : firstChar bs = some c) :
    ∃ rest, bs = String.utf8EncodeChar c ++ rest := by
  obtain ⟨rest, hrest⟩ := ByteArray.exists_of_utf8DecodeChar?_eq_some h
  refine ⟨rest.data.toList, ?_⟩
  have hlist := congrArg (fun b : ByteArray => b.data.toList) hrest
  simpa using hlist

/-- A character that breaks off is none. -/
theorem firstChar_take {c : Char} {k : ℕ} (hk : k < c.utf8Size) :
    firstChar ((String.utf8EncodeChar c).take k) = none := by
  rw [Option.eq_none_iff_forall_ne_some]
  intro d hd
  obtain ⟨rest, hrest⟩ := firstChar_eq_some hd
  have hwhole : String.utf8EncodeChar c =
      String.utf8EncodeChar d ++ (rest ++ (String.utf8EncodeChar c).drop k) := by
    rw [← List.append_assoc, ← hrest, List.take_append_drop]
  have hsame : firstChar (String.utf8EncodeChar c) = some d := by
    rw [hwhole, firstChar_encode]
  have hself := firstChar_encode c []
  rw [List.append_nil, hsame] at hself
  obtain rfl := Option.some.inj hself
  have hlength := congrArg List.length hrest
  rw [List.length_append, List.length_take, String.length_utf8EncodeChar] at hlength
  omega

/-- A byte made of six bits follows. -/
theorem continuation (n : ℕ) :
    (0x80 : UInt8) ≤ UInt8.ofNat (n % 64 + 0x80) ∧ UInt8.ofNat (n % 64 + 0x80) ≤ 0xBF := by
  rw [UInt8.le_iff_toNat_le, UInt8.le_iff_toNat_le, UInt8.toNat_ofNat']
  show 0x80 ≤ _ ∧ _ ≤ 0xBF
  omega

/-- A character is one byte below all others, or a byte above them and some that follow. -/
theorem encode_cases (c : Char) :
    (c.utf8Size = 1 ∧ c.toNat < 0x80 ∧ String.utf8EncodeChar c = [UInt8.ofNat c.toNat]) ∨
      ∃ lead b rest, String.utf8EncodeChar c = lead :: b :: rest ∧ rest.length + 2 = c.utf8Size ∧
        0xC0 ≤ lead ∧ ∀ b' ∈ b :: rest, (0x80 : UInt8) ≤ b' ∧ b' ≤ 0xBF := by
  have hlength := String.length_utf8EncodeChar c
  unfold String.utf8EncodeChar at hlength ⊢
  dsimp only at hlength ⊢
  have hnat : c.toNat = c.val.toNat := rfl
  generalize c.val.toNat = v at hlength hnat ⊢
  rw [hnat]
  have hlead (m r k : ℕ) (hr : 0 < r) (hk : 0xC0 ≤ k) (hfits : k + r ≤ 0x100) :
      (0xC0 : UInt8) ≤ UInt8.ofNat (m % r + k) := by
    have hlt := Nat.mod_lt m hr
    rw [UInt8.le_iff_toNat_le, UInt8.toNat_ofNat']
    show 0xC0 ≤ _
    omega
  split_ifs at hlength ⊢ with h1 h2 h3
  · exact .inl ⟨hlength.symm, by omega, rfl⟩
  · refine .inr ⟨_, _, _, rfl, hlength, ?_, ?_⟩
    · exact hlead _ 0x20 0xc0 (by decide) (by decide) (by decide)
    · rw [List.forall_mem_singleton]
      exact continuation v
  · refine .inr ⟨_, _, _, rfl, hlength, ?_, ?_⟩
    · exact hlead _ 0x10 0xe0 (by decide) (by decide) (by decide)
    · rw [List.forall_mem_cons, List.forall_mem_singleton]
      exact ⟨continuation (v / 64), continuation v⟩
  · refine .inr ⟨_, _, _, rfl, hlength, ?_, ?_⟩
    · exact hlead _ 0x08 0xf0 (by decide) (by decide) (by decide)
    · rw [List.forall_mem_cons, List.forall_mem_cons, List.forall_mem_singleton]
      exact ⟨continuation (v / 4096), continuation (v / 64), continuation v⟩

/-- The ranges by the number of the first byte. -/
theorem followers_eq (lead : UInt8) : followers lead =
    if 0xC2 ≤ lead.toNat ∧ lead.toNat ≤ 0xDF then [(0x80, 0xBF)]
    else if lead.toNat = 0xE0 then [(0xA0, 0xBF), (0x80, 0xBF)]
    else if lead.toNat = 0xED then [(0x80, 0x9F), (0x80, 0xBF)]
    else if 0xE1 ≤ lead.toNat ∧ lead.toNat ≤ 0xEF then [(0x80, 0xBF), (0x80, 0xBF)]
    else if lead.toNat = 0xF0 then [(0x90, 0xBF), (0x80, 0xBF), (0x80, 0xBF)]
    else if 0xF1 ≤ lead.toNat ∧ lead.toNat ≤ 0xF3 then [(0x80, 0xBF), (0x80, 0xBF), (0x80, 0xBF)]
    else if lead.toNat = 0xF4 then [(0x80, 0x8F), (0x80, 0xBF), (0x80, 0xBF)]
    else [] := by
  simp only [followers, UInt8.le_iff_toNat_le, ← UInt8.toNat_inj]
  rfl

/-- The bytes of a character behind its first one are in the ranges for it. -/
theorem follows_encode {c : Char} {lead : UInt8} {rest : List UInt8}
    (h : String.utf8EncodeChar c = lead :: rest) :
    List.Forall₂ (fun range b => range.1 ≤ b ∧ b ≤ range.2) (followers lead) rest := by
  have hvalid : c.val.toNat < 0xD800 ∨ 0xDFFF < c.val.toNat ∧ c.val.toNat < 0x110000 := c.valid
  unfold String.utf8EncodeChar at h
  dsimp only at h
  generalize c.val.toNat = v at h hvalid
  -- One case for each length; the code point's own bounds rule out the leads that Unicode leaves
  -- unused.
  split_ifs at h with h1 h2 h3
  · obtain ⟨rfl, rfl⟩ := List.cons.inj h
    have hlead : (UInt8.ofNat v).toNat = v := by
      rw [UInt8.toNat_ofNat']
      omega
    have hnone : followers (UInt8.ofNat v) = [] := by
      rw [followers_eq, hlead]
      split_ifs <;> first | rfl | omega
    rw [hnone]
    exact .nil
  · obtain ⟨rfl, rfl⟩ := List.cons.inj h
    have hlead : (UInt8.ofNat (v / 64 % 0x20 + 0xc0)).toNat = v / 64 + 0xC0 := by
      rw [UInt8.toNat_ofNat']
      omega
    have hone : followers (UInt8.ofNat (v / 64 % 0x20 + 0xc0)) = [(0x80, 0xBF)] := by
      rw [followers_eq, hlead]
      split_ifs <;> first | rfl | omega
    rw [hone]
    exact .cons (continuation v) .nil
  · obtain ⟨rfl, rfl⟩ := List.cons.inj h
    have hlead : (UInt8.ofNat (v / 4096 % 0x10 + 0xe0)).toNat = v / 4096 + 0xE0 := by
      rw [UInt8.toNat_ofNat']
      omega
    -- `E0` and `ED` narrow the second byte, against overlong forms and against surrogates.
    have htwo : (v / 4096 = 0 ∧ followers (UInt8.ofNat (v / 4096 % 0x10 + 0xe0)) =
          [(0xA0, 0xBF), (0x80, 0xBF)]) ∨
        (v / 4096 = 13 ∧ followers (UInt8.ofNat (v / 4096 % 0x10 + 0xe0)) =
          [(0x80, 0x9F), (0x80, 0xBF)]) ∨
        followers (UInt8.ofNat (v / 4096 % 0x10 + 0xe0)) = [(0x80, 0xBF), (0x80, 0xBF)] := by
      rw [followers_eq, hlead]
      split_ifs
      case pos => omega
      case pos => exact .inl ⟨by omega, rfl⟩
      case pos => exact .inr (.inl ⟨by omega, rfl⟩)
      case pos => exact .inr (.inr rfl)
      all_goals omega
    rcases htwo with ⟨hv, hranges⟩ | ⟨hv, hranges⟩ | hranges
    · rw [hranges]
      refine .cons ⟨?_, (continuation (v / 64)).2⟩ (.cons (continuation v) .nil)
      rw [UInt8.le_iff_toNat_le, UInt8.toNat_ofNat']
      show 0xA0 ≤ _
      omega
    · rw [hranges]
      refine .cons ⟨(continuation (v / 64)).1, ?_⟩ (.cons (continuation v) .nil)
      rw [UInt8.le_iff_toNat_le, UInt8.toNat_ofNat']
      show _ ≤ 0x9F
      omega
    · rw [hranges]
      exact .cons (continuation (v / 64)) (.cons (continuation v) .nil)
  · obtain ⟨rfl, rfl⟩ := List.cons.inj h
    have hlead : (UInt8.ofNat (v / 262144 % 0x08 + 0xf0)).toNat = v / 262144 + 0xF0 := by
      rw [UInt8.toNat_ofNat']
      omega
    -- `F0` and `F4` narrow it as well, against overlong forms and past the last code point.
    have hthree : (v / 262144 = 0 ∧ followers (UInt8.ofNat (v / 262144 % 0x08 + 0xf0)) =
          [(0x90, 0xBF), (0x80, 0xBF), (0x80, 0xBF)]) ∨
        (v / 262144 = 4 ∧ followers (UInt8.ofNat (v / 262144 % 0x08 + 0xf0)) =
          [(0x80, 0x8F), (0x80, 0xBF), (0x80, 0xBF)]) ∨
        followers (UInt8.ofNat (v / 262144 % 0x08 + 0xf0)) =
          [(0x80, 0xBF), (0x80, 0xBF), (0x80, 0xBF)] := by
      rw [followers_eq, hlead]
      split_ifs
      iterate 4 omega
      · exact .inl ⟨by omega, rfl⟩
      · exact .inr (.inr rfl)
      · exact .inr (.inl ⟨by omega, rfl⟩)
      · omega
    have hlast : List.Forall₂ (fun range b => range.1 ≤ b ∧ b ≤ range.2)
        [((0x80 : UInt8), (0xBF : UInt8)), (0x80, 0xBF)]
        [UInt8.ofNat (v / 64 % 0x40 + 0x80), UInt8.ofNat (v % 0x40 + 0x80)] :=
      .cons (continuation (v / 64)) (.cons (continuation v) .nil)
    rcases hthree with ⟨hv, hranges⟩ | ⟨hv, hranges⟩ | hranges
    · rw [hranges]
      refine .cons ⟨?_, (continuation (v / 4096)).2⟩ hlast
      rw [UInt8.le_iff_toNat_le, UInt8.toNat_ofNat']
      show 0x90 ≤ _
      omega
    · rw [hranges]
      refine .cons ⟨(continuation (v / 4096)).1, ?_⟩ hlast
      rw [UInt8.le_iff_toNat_le, UInt8.toNat_ofNat']
      show _ ≤ 0x8F
      omega
    · rw [hranges]
      exact .cons (continuation (v / 4096)) hlast

/-- The beginning of some bytes that are in the ranges follows them. -/
theorem following_take {ranges : List (UInt8 × UInt8)} {bs : List UInt8}
    (h : List.Forall₂ (fun range b => range.1 ≤ b ∧ b ≤ range.2) ranges bs) (n : ℕ) :
    following ranges (bs.take n) = (bs.take n).length := by
  induction h generalizing n with
  | nil => rw [List.take_nil]; rfl
  | @cons range b ranges bs hb _ ih =>
    cases n with
    | zero => rfl
    | succ n =>
      rw [List.take_succ_cons, following, if_pos hb, ih n, List.length_cons]

/-- A character that breaks off is read as one replacement character. -/
theorem readLossy_take {c : Char} {k fuel : ℕ} (hk : 0 < k) (hsize : k < c.utf8Size)
    (hfuel : k ≤ fuel) : readLossy fuel ((String.utf8EncodeChar c).take k) = ['\uFFFD'] := by
  have hnone := firstChar_take hsize
  have hne : String.utf8EncodeChar c ≠ [] := by
    intro hempty
    have hlength := congrArg List.length hempty
    rw [String.length_utf8EncodeChar, List.length_nil] at hlength
    omega
  obtain ⟨lead, rest, hbytes⟩ := List.exists_cons_of_ne_nil hne
  obtain ⟨k, rfl⟩ : ∃ n, k = n + 1 := ⟨k - 1, by omega⟩
  obtain ⟨fuel, rfl⟩ : ∃ n, fuel = n + 1 := ⟨fuel - 1, by omega⟩
  rw [hbytes, List.take_succ_cons] at hnone ⊢
  rw [readLossy, hnone]
  dsimp only
  rw [following_take (follows_encode hbytes), List.drop_length]
  cases fuel <;> rfl

/-- The first bytes of some characters are all of them, or the bytes of the first ones and the
beginning of the next one. -/
theorem take_encode (cs : List Char) (n : ℕ) :
    ((cs.map Char.utf8Size).sum ≤ n ∧
        (cs.flatMap String.utf8EncodeChar).take n = cs.flatMap String.utf8EncodeChar) ∨
      ∃ front d rest k, cs = front ++ d :: rest ∧ k < d.utf8Size ∧
        (front.map Char.utf8Size).sum + k = n ∧
        (cs.flatMap String.utf8EncodeChar).take n =
          front.flatMap String.utf8EncodeChar ++ (String.utf8EncodeChar d).take k := by
  induction cs generalizing n with
  | nil => exact .inl ⟨Nat.zero_le n, List.take_nil⟩
  | cons c cs ih =>
    have hsize : (String.utf8EncodeChar c).length = c.utf8Size := String.length_utf8EncodeChar c
    by_cases hroom : c.utf8Size ≤ n
    · obtain ⟨m, rfl⟩ : ∃ m, n = (String.utf8EncodeChar c).length + m :=
        ⟨n - c.utf8Size, by omega⟩
      rw [List.flatMap_cons, List.take_length_add_append]
      rcases ih m with ⟨hsum, htake⟩ | ⟨front, d, rest, k, rfl, hk, hsum, htake⟩
      · refine .inl ⟨?_, by rw [htake]⟩
        rw [List.map_cons, List.sum_cons]
        omega
      · refine .inr ⟨c :: front, d, rest, k, rfl, hk, ?_, ?_⟩
        · rw [List.map_cons, List.sum_cons]
          omega
        · rw [htake, List.flatMap_cons, List.append_assoc]
    -- The bytes end within this character.
    · refine .inr ⟨[], c, cs, n, rfl, by omega, by simp, ?_⟩
      rw [List.flatMap_cons, List.take_append_of_le_length (by omega)]
      rfl

/-- The first bytes of a text are read as all of it, or as its first characters, with a replacement
character where the next one breaks off. -/
theorem fromUtf8Lossy_take (s : String) (n : ℕ) :
    (len s ≤ n ∧ fromUtf8Lossy ((bytes s).take n) = s) ∨
      ∃ front d rest k, s.toList = front ++ d :: rest ∧ k < d.utf8Size ∧
        (front.map Char.utf8Size).sum + k = n ∧
        (fromUtf8Lossy ((bytes s).take n)).toList =
          front ++ if k = 0 then [] else ['\uFFFD'] := by
  rcases take_encode s.toList n with ⟨hsum, htake⟩ | ⟨front, d, rest, k, hs, hk, hsum, htake⟩
  · refine .inl ⟨?_, ?_⟩
    · rw [← String.ofList_toList (s := s), len_ofList]
      exact hsum
    · rw [bytes_eq_flatMap, htake, ← bytes_eq_flatMap, fromUtf8Lossy_bytes]
  · refine .inr ⟨front, d, rest, k, hs, hk, hsum, ?_⟩
    rw [bytes_eq_flatMap, htake, fromUtf8Lossy, String.toList_ofList]
    obtain ⟨fuel, hfuel, hread⟩ :=
      readLossy_append front ((String.utf8EncodeChar d).take k) le_rfl
    rw [hread]
    split_ifs with hzero
    · rw [hzero, List.take_zero]
      cases fuel <;> rfl
    · rw [List.length_take, String.length_utf8EncodeChar, Nat.min_eq_left hk.le] at hfuel
      rw [readLossy_take (Nat.pos_of_ne_zero hzero) hk hfuel]

/-! ## Bytes that are cut -/

/-- The first bytes follow the ranges as far as they go. -/
theorem following_take_eq (ranges : List (UInt8 × UInt8)) (bs : List UInt8) (n : ℕ) :
    following ranges (bs.take n) = min n (following ranges bs) := by
  induction ranges generalizing bs n with
  | nil => exact (Nat.min_zero n).symm
  | cons range ranges ih =>
    cases bs with
    | nil =>
      rw [List.take_nil]
      exact (Nat.min_zero n).symm
    | cons b rest =>
      cases n with
      | zero => exact (Nat.zero_min _).symm
      | succ n =>
        rw [List.take_succ_cons, following, following, ih]
        split_ifs
        · exact (Nat.succ_min_succ n _).symm
        · exact (Nat.min_zero _).symm

/-- The first bytes are read as the first characters, but for a replacement character where one
breaks off. -/
theorem readLossy_front {fuel fuel' n : ℕ} {bs : List UInt8} (hfuel : bs.length ≤ fuel)
    (hfuel' : (bs.take n).length ≤ fuel') :
    ∃ front back, readLossy fuel bs = front ++ back ∧
      (readLossy fuel' (bs.take n) = front ∨
        readLossy fuel' (bs.take n) = front ++ ['\uFFFD']) := by
  have hnil (fuel : ℕ) : readLossy fuel [] = [] := by cases fuel <;> rfl
  induction fuel generalizing fuel' n bs with
  | zero =>
    obtain rfl := List.eq_nil_of_length_eq_zero (Nat.le_zero.mp hfuel)
    exact ⟨[], [], rfl, .inl (by rw [List.take_nil, hnil])⟩
  | succ fuel ih =>
    rcases bs with _ | ⟨lead, rest⟩
    · exact ⟨[], [], rfl, .inl (by rw [List.take_nil, hnil])⟩
    rcases n with _ | n
    · exact ⟨[], _, rfl, .inl (by rw [List.take_zero, hnil])⟩
    rw [List.take_succ_cons] at hfuel' ⊢
    rw [List.length_cons] at hfuel hfuel'
    obtain ⟨fuel', rfl⟩ : ∃ m, fuel' = m + 1 := ⟨fuel' - 1, by omega⟩
    cases hfirst : firstChar (lead :: rest) with
    | some c =>
      obtain ⟨more, hmore⟩ := firstChar_eq_some hfirst
      have hsize : (String.utf8EncodeChar c).length = c.utf8Size := String.length_utf8EncodeChar c
      have hpos : 0 < c.utf8Size := c.utf8Size_pos
      have hlength := congrArg List.length hmore
      rw [List.length_cons, List.length_append] at hlength
      have htake : lead :: rest.take n = (String.utf8EncodeChar c ++ more).take (n + 1) := by
        rw [← hmore, List.take_succ_cons]
      by_cases hroom : c.utf8Size ≤ n + 1
      · -- The whole character is there.
        have hkept : lead :: rest.take n =
            String.utf8EncodeChar c ++ more.take (n + 1 - c.utf8Size) := by
          rw [htake, List.take_append, hsize, List.take_of_length_le (by omega)]
        have hfirst' : firstChar (lead :: rest.take n) = some c := by
          rw [hkept, firstChar_encode]
        have hcut := congrArg List.length hkept
        rw [List.length_cons, List.length_append] at hcut
        obtain ⟨front, back, hread, hread'⟩ := @ih fuel' (n + 1 - c.utf8Size) more (by omega)
          (by omega)
        refine ⟨c :: front, back, ?_, ?_⟩
        · rw [readLossy, hfirst, hmore]
          dsimp only
          rw [← hsize, List.drop_left, hread, List.cons_append]
        · rw [readLossy, hfirst', hkept]
          dsimp only
          rw [← hsize, List.drop_left, hsize, List.cons_append, List.cons_inj_right,
            List.cons_inj_right]
          exact hread'
      · refine ⟨[], _, rfl, .inr ?_⟩
        have hbroken : lead :: rest.take n = (String.utf8EncodeChar c).take (n + 1) := by
          rw [htake, List.take_append_of_le_length (by omega)]
        have hcut := congrArg List.length hbroken
        simp only [List.length_cons, List.length_take] at hcut hfuel'
        rw [hbroken]
        exact readLossy_take (by omega) (by omega) (by omega)
    | none =>
      have hfirst' : firstChar (lead :: rest.take n) = none := by
        rw [Option.eq_none_iff_forall_ne_some]
        intro d hd
        obtain ⟨more, hmore⟩ := firstChar_eq_some hd
        have hwhole : lead :: rest = String.utf8EncodeChar d ++ (more ++ rest.drop n) := by
          rw [← List.append_assoc, ← hmore, List.cons_append, List.take_append_drop]
        rw [hwhole, firstChar_encode] at hfirst
        cases hfirst
      have hfollowing := following_take_eq (followers lead) rest n
      rw [readLossy, readLossy, hfirst, hfirst']
      dsimp only
      rw [hfollowing]
      by_cases hroom : following (followers lead) rest ≤ n
      · rw [Nat.min_eq_right hroom, List.drop_take]
        obtain ⟨front, back, hread, hread'⟩ := @ih fuel' (n - following (followers lead) rest)
          (rest.drop (following (followers lead) rest))
          (by rw [List.length_drop]; omega)
          (by rw [List.length_take, List.length_drop]; rw [List.length_take] at hfuel'; omega)
        exact ⟨'\uFFFD' :: front, back, by rw [hread, List.cons_append], by
          rw [List.cons_append, List.cons_inj_right, List.cons_inj_right]
          exact hread'⟩
      · refine ⟨[], _, rfl, .inr ?_⟩
        rw [Nat.min_eq_left (by omega), List.drop_eq_nil_of_le (List.length_take_le n rest), hnil]
        rfl

/-- The first bytes of a stream are read as its first characters, but for a replacement character
where one breaks off. -/
theorem fromUtf8Lossy_front (bs : List UInt8) (n : ℕ) :
    ∃ front back, (fromUtf8Lossy bs).toList = front ++ back ∧
      ((fromUtf8Lossy (bs.take n)).toList = front ∨
        (fromUtf8Lossy (bs.take n)).toList = front ++ ['\uFFFD']) := by
  rw [fromUtf8Lossy, fromUtf8Lossy, String.toList_ofList, String.toList_ofList]
  exact readLossy_front le_rfl le_rfl

end NodeWe.Utf8
