import NodeWe.Digest
import NodeWe.Utf8

/-!
# Hexadecimal texts

`hex_decode`, `hex_decode_bytes` and the loop of `store_key` slice a text two bytes at a time and
leave each slice to `u8::from_str_radix`. A slice may end inside a character, which panics, and the
parser of numbers takes a plus sign in front of a digit. `hex_decodes_iff` says for which texts
neither is seen.
-/

namespace NodeWe.ControlPlane

open Text Utf8

/-! ## The store key -/

/-- The check and the loop of `store_key` on the trimmed value. -/
def storeKeyOf (value : String) : Except Panic (Except String (List UInt8)) :=
  if len value ≠ 64 then .ok (.error "NODEWE_STORE_KEY must contain exactly 64 hex characters")
  else (hexPairs (bytes value)).map fun key =>
    okOr key "NODEWE_STORE_KEY must contain only hexadecimal characters"

/-- `store_key`, from what `load_secret_value` finds. -/
def storeKey (loaded : Except String (Option String)) :
    Except Panic (Except String (Option (List UInt8))) :=
  match loaded with
  | .error error => .ok (.error error)
  | .ok none => .ok (.ok none)
  | .ok (some value) => (storeKeyOf (trim value)).map fun key => key.map some

/-! ## What is decoded -/

/-- A text of an even number of hexadecimal digits. -/
def HexText (s : String) : Prop := s.length % 2 = 0 ∧ ∀ c ∈ s.toList, isAsciiHexdigit c = true

/-- The decoders return on a text, and accept it only if it is hexadecimal. A text `t` is the
decoded one when it is written like the text, up to the case of the digits. -/
structure Decodes (s : String) : Prop where
  bytes_returns : ∃ decoded, hexDecodeBytes s = .ok decoded ∧ (decoded ≠ none → HexText s)
  key_returns : ∃ decoded, storeKeyOf s = .ok decoded ∧
    ∀ key, decoded = .ok key → HexText s ∧ s.length = 64
  text_returns : ∃ decoded, hexDecode s = .ok decoded ∧
    (decoded ≠ none ↔ HexText s ∧ ∃ t, hexEncode t = toAsciiLowercase s)
  undone : toAsciiLowercase s = s → ∀ t, hexDecode s = .ok (some t) → hexEncode t = s

/-- Two characters that are read as a byte: hexadecimal digits, or a plus sign and one. -/
def isPair (c d : Char) : Bool := (isAsciiHexdigit c || c == '+') && isAsciiHexdigit d

/-- Characters that are read as bytes, two at a time. -/
inductive Accepted : List Char → Prop
  | nil : Accepted []
  | pair {c d : Char} {rest : List Char} (hpair : isPair c d = true) (hrest : Accepted rest) :
      Accepted (c :: d :: rest)

/-- Characters whose first two bytes end with a character and are read as no byte. -/
inductive Refused : List Char → Prop
  | one {c : Char} {rest : List Char} (hsize : c.utf8Size = 2) : Refused (c :: rest)
  | two {c d : Char} {rest : List Char} (hc : c.utf8Size = 1) (hd : d.utf8Size = 1)
      (hpair : isPair c d = false) : Refused (c :: d :: rest)

/-- A text of an odd number of bytes, a hexadecimal one, or one that is refused behind some
bytes. -/
def HexSafe (s : String) : Prop :=
  len s % 2 = 1 ∨ HexText s ∨
    ∃ front rest, s.toList = front ++ rest ∧ Accepted front ∧ Refused rest

/-! ## The digits -/

/-- A character of one byte is a digit as its byte is, with the same value. -/
theorem hexDigit_ascii {c : Char} (h : c.toNat < 0x80) :
    (isAsciiHexdigit c = true → ∃ n < 16, hexDigit (UInt8.ofNat c.toNat) = some n ∧
        n.digitChar = c.toLower) ∧
      (isAsciiHexdigit c = false → hexDigit (UInt8.ofNat c.toNat) = none) ∧
      (UInt8.ofNat c.toNat = 43 ↔ c = '+') := by
  have hall : ∀ n < 0x80, (isAsciiHexdigit (Char.ofNat n) = true →
        ∃ v < 16, hexDigit (UInt8.ofNat (Char.ofNat n).toNat) = some v ∧
          v.digitChar = (Char.ofNat n).toLower) ∧
      (isAsciiHexdigit (Char.ofNat n) = false →
        hexDigit (UInt8.ofNat (Char.ofNat n).toNat) = none) ∧
      (UInt8.ofNat (Char.ofNat n).toNat = 43 ↔ Char.ofNat n = '+') := by
    decide +kernel
  have hc := hall c.toNat h
  rwa [Char.ofNat_toNat] at hc

/-- Digits and plus signs are characters of one byte. -/
theorem size_of_pair {c d : Char} (h : isPair c d = true) : c.utf8Size = 1 ∧ d.utf8Size = 1 := by
  have hdigit {c : Char} (hc : isAsciiHexdigit c = true) : c.utf8Size = 1 := by
    simp only [isAsciiHexdigit, Char.isDigit, Bool.or_eq_true, Bool.and_eq_true, decide_eq_true_eq,
      ge_iff_le, Char.le_def, UInt32.le_iff_toNat_le] at hc
    rw [Char.utf8Size, if_pos]
    rw [UInt32.le_iff_toNat_le]
    rcases hc with (⟨-, hc⟩ | ⟨-, hc⟩) | ⟨-, hc⟩ <;> exact hc.trans (by decide)
  rw [isPair, Bool.and_eq_true, Bool.or_eq_true, beq_iff_eq] at h
  obtain ⟨hc | rfl, hd⟩ := h
  · exact ⟨hdigit hc, hdigit hd⟩
  · exact ⟨rfl, hdigit hd⟩

/-- A pair of characters of one byte is read as a byte, unless it is none. -/
theorem hexPair_ascii {c d : Char} (hc : c.toNat < 0x80) (hd : d.toNat < 0x80) :
    (isPair c d = true → ∃ b, hexPair (UInt8.ofNat c.toNat) (UInt8.ofNat d.toNat) = some b ∧
        (isAsciiHexdigit c = true → hexByte b = [c.toLower, d.toLower])) ∧
      (isPair c d = false →
        hexPair (UInt8.ofNat c.toNat) (UInt8.ofNat d.toNat) = none) := by
  obtain ⟨hcdigit, hcnone, hcplus⟩ := hexDigit_ascii hc
  obtain ⟨hddigit, hdnone, -⟩ := hexDigit_ascii hd
  rw [isPair, hexPair]
  by_cases hplus : c = '+'
  · have hnot : isAsciiHexdigit c = false := by
      rw [hplus]
      rfl
    rw [if_pos (hcplus.mpr hplus), hnot, Bool.false_or, beq_iff_eq.mpr hplus, Bool.true_and]
    refine ⟨fun h => ?_, fun h => by rw [hdnone h]; rfl⟩
    obtain ⟨v, -, hv, -⟩ := hddigit h
    exact ⟨_, by rw [hv]; rfl, fun hfalse => absurd hfalse Bool.false_ne_true⟩
  · rw [if_neg (fun h => hplus (hcplus.mp h)), beq_eq_false_iff_ne.mpr hplus, Bool.or_false]
    constructor
    · intro h
      obtain ⟨hcd, hdd⟩ := (Bool.and_eq_true _ _).mp h
      obtain ⟨u, hu, hcu, hcl⟩ := hcdigit hcd
      obtain ⟨v, hv, hdv, hdl⟩ := hddigit hdd
      refine ⟨_, by rw [hcu, hdv]; rfl, fun _ => ?_⟩
      have hnat : (UInt8.ofNat (16 * u + v)).toNat = 16 * u + v := by
        rw [UInt8.toNat_ofNat']
        exact Nat.mod_eq_of_lt (by omega)
      have hhigh : (16 * u + v) / 16 = u := by omega
      have hlow : (16 * u + v) % 16 = v := by omega
      rw [hexByte, hnat, hhigh, hlow, hcl, hdl]
    · intro h
      rcases (Bool.and_eq_false_iff).mp h with hcd | hdd
      · rw [hcnone hcd]
        rfl
      · rw [hdnone hdd]
        cases hexDigit (UInt8.ofNat c.toNat) <;> rfl

/-! ## The loop over a text -/

/-- No byte that follows stands at the beginning of some characters. -/
theorem head_encode (cs : List Char) :
    (cs.flatMap String.utf8EncodeChar).head?.any (fun b => 0x80 ≤ b ∧ b < 0xC0) = false := by
  cases cs with
  | nil => rfl
  | cons c cs =>
    rw [List.flatMap_cons]
    rcases encode_cases c with ⟨-, hc, hbytes⟩ | ⟨lead, b, rest, hbytes, -, hlead, -⟩
    · rw [hbytes, List.singleton_append, List.head?_cons, Option.any_some, decide_eq_false_iff_not,
        UInt8.le_iff_toNat_le, UInt8.toNat_ofNat']
      show ¬(0x80 ≤ _ ∧ _)
      omega
    · rw [hbytes, List.cons_append, List.head?_cons, Option.any_some, decide_eq_false_iff_not]
      exact fun h => absurd hlead (UInt8.not_le.mpr h.2)

/-- A character of one byte is that byte. -/
theorem encode_of_one {c : Char} (h : c.utf8Size = 1) :
    c.toNat < 0x80 ∧ String.utf8EncodeChar c = [UInt8.ofNat c.toNat] := by
  rcases encode_cases c with ⟨-, hc⟩ | ⟨_, _, rest, -, hlength, -⟩
  · exact hc
  · omega

/-- The loop panics where its second byte does not end a character. -/
theorem hexPairs_panic {hi lo b : UInt8} {rest : List UInt8} (h : (0x80 : UInt8) ≤ b ∧ b ≤ 0xBF) :
    hexPairs (hi :: lo :: b :: rest) = .error .notCharBoundary := by
  have hbelow : b < 0xC0 := by
    rw [UInt8.lt_iff_toNat_lt]
    exact Nat.lt_of_le_of_lt (UInt8.le_iff_toNat_le.mp h.2) (by decide)
  rw [hexPairs, if_pos (by simpa using ⟨h.1, hbelow⟩)]

/-- Accepted characters are read as bytes, in front of any others; digits are those of the bytes in
lower case. -/
theorem hexPairs_append {front : List Char} (h : Accepted front) (rest : List Char) :
    ∃ bs, ((∀ c ∈ front, isAsciiHexdigit c = true) →
        bs.flatMap hexByte = front.map Char.toLower) ∧
      hexPairs ((front ++ rest).flatMap String.utf8EncodeChar) =
        (hexPairs (rest.flatMap String.utf8EncodeChar)).map (Option.map (bs ++ ·)) := by
  induction h with
  | nil =>
    refine ⟨[], fun _ => rfl, ?_⟩
    rw [List.nil_append]
    cases hexPairs (rest.flatMap String.utf8EncodeChar) with
    | error panic => rfl
    | ok decoded => cases decoded <;> rfl
  | @pair c d front hpair _ ih =>
    obtain ⟨bs, hdigits, hrest⟩ := ih
    obtain ⟨hc, hd⟩ := size_of_pair hpair
    obtain ⟨hcode, hcbytes⟩ := encode_of_one hc
    obtain ⟨hdcode, hdbytes⟩ := encode_of_one hd
    obtain ⟨b, hread, hbyte⟩ := (hexPair_ascii hcode hdcode).1 hpair
    refine ⟨b :: bs, fun hall => ?_, ?_⟩
    · rw [List.forall_mem_cons, List.forall_mem_cons] at hall
      rw [List.flatMap_cons, hbyte hall.1, hdigits hall.2.2]
      rfl
    · rw [List.cons_append, List.cons_append, List.flatMap_cons, List.flatMap_cons, hcbytes,
        hdbytes, List.singleton_append, List.singleton_append, hexPairs, head_encode,
        if_neg Bool.false_ne_true, hread, hrest]
      cases hexPairs (rest.flatMap String.utf8EncodeChar) with
      | error panic => rfl
      | ok decoded => cases decoded <;> rfl

/-- Refused characters end the loop. -/
theorem hexPairs_refused {rest : List Char} (h : Refused rest) :
    hexPairs (rest.flatMap String.utf8EncodeChar) = .ok none := by
  cases h with
  | @one c rest hsize =>
    rcases encode_cases c with ⟨hone, -⟩ | ⟨lead, b, more, hbytes, hlength, hlead, -⟩
    · omega
    · obtain rfl : more = [] := List.eq_nil_of_length_eq_zero (by omega)
      have hnone : hexPair lead b = none := by
        have hlow : 0xC0 ≤ lead.toNat := UInt8.le_iff_toNat_le.mp hlead
        -- The first byte of a longer character is above every digit.
        have hdigit : hexDigit lead = none := by
          simp only [hexDigit, UInt8.le_iff_toNat_le]
          rw [if_neg, if_neg, if_neg] <;> intro hbelow
          · exact absurd (hlow.trans hbelow.2) (by decide)
          · exact absurd (hlow.trans hbelow.2) (by decide)
          · exact absurd (hlow.trans hbelow.2) (by decide)
        have hplus : lead ≠ 43 := by
          rintro rfl
          exact absurd hlow (by decide)
        rw [hexPair, if_neg hplus, hdigit]
        rfl
      rw [List.flatMap_cons, hbytes, List.cons_append, List.cons_append, List.nil_append, hexPairs,
        head_encode, if_neg Bool.false_ne_true, hnone]
  | @two c d rest hc hd hpair =>
    obtain ⟨hcode, hcbytes⟩ := encode_of_one hc
    obtain ⟨hdcode, hdbytes⟩ := encode_of_one hd
    rw [List.flatMap_cons, List.flatMap_cons, hcbytes, hdbytes, List.singleton_append,
      List.singleton_append, hexPairs, head_encode, if_neg Bool.false_ne_true,
      (hexPair_ascii hcode hdcode).2 hpair]

/-- The loop comes through a text, or to characters that it refuses, or it panics. -/
theorem hexPairs_cases (cs : List Char)
    (heven : (cs.flatMap String.utf8EncodeChar).length % 2 = 0) :
    ∃ front rest, cs = front ++ rest ∧ Accepted front ∧
      (rest = [] ∨ Refused rest ∨
        hexPairs (rest.flatMap String.utf8EncodeChar) = .error .notCharBoundary) := by
  induction cs using List.twoStepInduction with
  | nil => exact ⟨[], [], rfl, .nil, .inl rfl⟩
  | singleton c =>
    refine ⟨[], [c], rfl, .nil, .inr ?_⟩
    rw [List.flatMap_singleton] at heven ⊢
    rcases encode_cases c with ⟨-, -, hbytes⟩ | ⟨lead, b, more, hbytes, hlength, -, hmore⟩
    · rw [hbytes] at heven
      cases heven
    · cases more with
      | nil => exact .inl (.one hlength.symm)
      | cons b' more =>
        rw [hbytes]
        exact .inr (hexPairs_panic (hmore b' (by simp)))
  | cons_cons c d rest ih _ =>
    rcases encode_cases c with ⟨hc, -, hcbytes⟩ | ⟨lead, b, more, hbytes, hlength, -, hmore⟩
    · rcases encode_cases d with ⟨hd, -, hdbytes⟩ | ⟨lead, b, more, hbytes, -, -, hmore⟩
      -- Two characters of one byte are one pair, and the rest is as long by two bytes less.
      · cases hpair : isPair c d with
        | false => exact ⟨[], _, rfl, .nil, .inr (.inl (.two hc hd hpair))⟩
        | true =>
          rw [List.flatMap_cons, List.flatMap_cons, hcbytes, hdbytes, List.singleton_append,
            List.singleton_append, List.length_cons, List.length_cons] at heven
          obtain ⟨front, rest, rfl, hfront, hrest⟩ := ih (by omega)
          exact ⟨c :: d :: front, rest, rfl, .pair hpair hfront, hrest⟩
      · refine ⟨[], _, rfl, .nil, .inr (.inr ?_)⟩
        rw [List.flatMap_cons, List.flatMap_cons, hcbytes, hbytes]
        exact hexPairs_panic (hmore b List.mem_cons_self)
    · refine ⟨[], _, rfl, .nil, .inr ?_⟩
      cases more with
      | nil => exact .inl (.one hlength.symm)
      | cons b' more =>
        rw [List.flatMap_cons, hbytes]
        exact .inr (hexPairs_panic (hmore b' (by simp)))

/-! ## The decoders -/

variable {s : String}

/-- Digits in pairs are accepted. -/
theorem accepted_of_digits {cs : List Char} (heven : cs.length % 2 = 0)
    (hdigits : ∀ c ∈ cs, isAsciiHexdigit c = true) : Accepted cs := by
  induction cs using List.twoStepInduction with
  | nil => exact .nil
  | singleton c => cases heven
  | cons_cons c d rest ih _ =>
    rw [List.forall_mem_cons, List.forall_mem_cons] at hdigits
    obtain ⟨hc, hd, hrest⟩ := hdigits
    rw [List.length_cons, List.length_cons] at heven
    refine .pair ?_ (ih (by omega) hrest)
    rw [isPair, hc, hd]
    rfl

/-- A hexadecimal text is decoded to the bytes that are written as it, and has as many bytes as
characters. -/
theorem hexPairs_of_hexText (h : HexText s) :
    len s = s.length ∧
      ∃ bs, hexPairs (bytes s) = .ok (some bs) ∧ hexEncodeBytes bs = toAsciiLowercase s := by
  obtain ⟨heven, hdigits⟩ := h
  have hsizes : ∀ c ∈ s.toList, c.utf8Size = 1 := by
    intro c hc
    have hpair : isPair c c = true := by
      rw [isPair, hdigits c hc]
      rfl
    exact (size_of_pair hpair).1
  have hlen := len_ofList s.toList
  rw [String.ofList_toList, List.map_congr_left hsizes, List.map_const', List.sum_replicate,
    smul_eq_mul, mul_one, String.length_toList] at hlen
  obtain ⟨bs, hwritten, hread⟩ := hexPairs_append (accepted_of_digits heven hdigits) []
  rw [List.append_nil, ← bytes_eq_flatMap] at hread
  have hend : hexPairs (List.flatMap String.utf8EncodeChar []) = .ok (some []) := rfl
  refine ⟨hlen, bs, ?_, ?_⟩
  · rw [hread, hend, Except.map, Option.map_some, List.append_nil]
  · rw [hexEncodeBytes, hwritten hdigits, toAsciiLowercase]

/-- Bytes are written in one way. -/
theorem hexEncodeBytes_inj {bs bs' : List UInt8} :
    hexEncodeBytes bs = hexEncodeBytes bs' ↔ bs = bs' := by
  refine ⟨fun h => ?_, fun h => by rw [h]⟩
  have hread := hexPairs_flatMap bs
  rw [← bytes_hexEncodeBytes, h, bytes_hexEncodeBytes, hexPairs_flatMap] at hread
  exact (Option.some.inj (Except.ok.inj hread)).symm

/-- Bytes are read as a text when they are its bytes. -/
theorem fromUTF8_eq_some_iff {bs : List UInt8} {t : String} :
    String.fromUTF8? ⟨bs.toArray⟩ = some t ↔ bytes t = bs := by
  constructor
  · intro h
    unfold String.fromUTF8? at h
    split_ifs at h with hvalid
    obtain rfl := Option.some.inj h
    rfl
  · rintro rfl
    exact fromUTF8_bytes t

/-- A text that is not hexadecimal and that every decoder refuses is decoded well. -/
theorem decodes_of_refused (hnot : ¬HexText s) (hbytes : hexDecodeBytes s = .ok none)
    (htext : hexDecode s = .ok none) (hkey : ∃ error, storeKeyOf s = .ok (.error error)) :
    Decodes s := by
  obtain ⟨error, hkey⟩ := hkey
  refine ⟨⟨none, hbytes, fun h => absurd rfl h⟩, ⟨_, hkey, fun key h => by cases h⟩,
    ⟨none, htext, iff_of_false (fun h => h rfl) fun h => hnot h.1⟩, fun _ t ht => ?_⟩
  rw [htext] at ht
  cases ht

/-- A hexadecimal text is decoded well. -/
theorem decodes_of_hexText (h : HexText s) : Decodes s := by
  obtain ⟨hlen, bs, hread, hwritten⟩ := hexPairs_of_hexText h
  have heven : ¬len s % 2 ≠ 0 := by
    rw [hlen, not_not]
    exact h.1
  have htext : hexDecode s = .ok (String.fromUTF8? ⟨bs.toArray⟩) := by
    rw [hexDecode, if_neg heven, hread]
    rfl
  refine ⟨?_, ?_, ⟨_, htext, ?_⟩, fun hlower t ht => ?_⟩
  · unfold hexDecodeBytes
    split_ifs
    · exact ⟨none, rfl, fun hne => absurd rfl hne⟩
    · exact ⟨some bs, hread, fun _ => h⟩
  · unfold storeKeyOf
    split_ifs with hlength
    · exact ⟨_, rfl, fun key hkey => by cases hkey⟩
    · rw [hread]
      exact ⟨_, rfl, fun key _ => ⟨h, hlen.symm.trans (not_not.mp hlength)⟩⟩
  · rw [and_iff_right h, ← hwritten, Option.ne_none_iff_exists']
    refine exists_congr fun t => ?_
    rw [fromUTF8_eq_some_iff, hexEncode, hexEncodeBytes_inj]
  · rw [htext] at ht
    have hbytes := fromUTF8_eq_some_iff.mp (Except.ok.inj ht)
    rw [hexEncode, hbytes, hwritten, hlower]

/-- **Texts are decoded as hexadecimal, without a panic, exactly when they are hexadecimal, of an
odd number of bytes, or refused behind the bytes that they begin with.** -/
theorem hex_decodes_iff (s : String) : Decodes s ↔ HexSafe s := by
  -- An odd number of bytes is refused by every caller before a pair is cut out.
  by_cases hodd : len s % 2 = 1
  · refine iff_of_true (decodes_of_refused ?_ ?_ ?_ ?_) (.inl hodd)
    · intro h
      obtain ⟨hlen, -⟩ := hexPairs_of_hexText h
      have heven := h.1
      omega
    · rw [hexDecodeBytes, if_pos (.inr (by omega))]
    · rw [hexDecode, if_pos (by omega)]
    · rw [storeKeyOf, if_pos (by omega)]
      exact ⟨_, rfl⟩
  have heven : len s % 2 = 0 := by omega
  constructor
  · intro h
    refine .inr ?_
    by_cases hempty : s = ""
    · subst hempty
      exact .inl ⟨rfl, List.forall_mem_nil _⟩
    obtain ⟨decoded, hdecoded, hhex⟩ := h.bytes_returns
    rw [hexDecodeBytes, if_neg (by simp [hempty, heven])] at hdecoded
    rw [len_eq_length, bytes_eq_flatMap] at heven
    obtain ⟨front, rest, hchars, hfront, hrest⟩ := hexPairs_cases s.toList heven
    obtain ⟨bs, -, hread⟩ := hexPairs_append hfront rest
    rw [← hchars, ← bytes_eq_flatMap, hdecoded] at hread
    -- `hex_decode_bytes` returns, so no cut behind the accepted pairs falls into a character.
    rcases hrest with rfl | hrefused | hpanic
    · obtain rfl := Except.ok.inj hread
      exact .inl (hhex (by simp))
    · exact .inr ⟨front, rest, hchars, hfront, hrefused⟩
    · rw [hpanic] at hread
      cases hread
  · rintro (hodd' | hhex | ⟨front, rest, hchars, hfront, hrefused⟩)
    · exact absurd hodd' hodd
    · exact decodes_of_hexText hhex
    · obtain ⟨bs, -, hread⟩ := hexPairs_append hfront rest
      rw [← hchars, ← bytes_eq_flatMap, hexPairs_refused hrefused] at hread
      have hnone : hexPairs (bytes s) = .ok none := hread
      refine decodes_of_refused ?_ ?_ ?_ ?_
      · intro hhex
        obtain ⟨-, bs', hsome, -⟩ := hexPairs_of_hexText hhex
        rw [hnone] at hsome
        cases hsome
      · unfold hexDecodeBytes
        split_ifs
        · rfl
        · exact hnone
      · rw [hexDecode, if_neg (by omega), hnone]
        rfl
      · unfold storeKeyOf
        split_ifs
        · exact ⟨_, rfl⟩
        · rw [hnone]
          exact ⟨_, rfl⟩

/-- A slice may end inside a character, and a sign in front of a digit is read. -/
theorem hex_panics :
    hexDecodeBytes "aéa" = .error .notCharBoundary ∧
      storeKey (.ok (some ("aé" ++ String.ofList (List.replicate 61 'a')))) =
        .error .notCharBoundary ∧
      hexDecode "+f" = .ok (some "\x0f") ∧
      ¬∀ s, Decodes s := by
  refine ⟨rfl, rfl, rfl, fun h => ?_⟩
  obtain ⟨decoded, hdecoded, -⟩ := (h "aéa").bytes_returns
  cases hdecoded

end NodeWe.ControlPlane
