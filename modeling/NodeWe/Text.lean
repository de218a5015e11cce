import Mathlib

/-!
# String operations of the Rust standard library

The operations on `str` that parsers and routers use, on `String` read as its list of characters.
Each follows the documented behaviour of the operation it is named after: `trim_start_matches`
removes every repetition of its pattern, `lines` drops one carriage return before each line feed
and yields no empty last line, and the integer parsers accept a leading plus sign. Those that
search by length take it as fuel, so that the kernel can evaluate them.
-/

namespace NodeWe.Text

/-! ## Prefixes and suffixes -/

/-- `str::starts_with` with a string pattern. -/
def startsWith (s pat : String) : Bool := pat.toList.isPrefixOf s.toList

/-- `str::ends_with` with a string pattern. -/
def endsWith (s pat : String) : Bool := pat.toList.isSuffixOf s.toList

/-- `str::strip_prefix` with a string pattern. -/
def stripPrefix (s pat : String) : Option String :=
  if startsWith s pat then some (String.ofList (s.toList.drop pat.length)) else none

/-- Drops `pat` from the front as long as it is there, at most `fuel` times. -/
def dropRepeated (pat : List Char) : ℕ → List Char → List Char
  | 0, s => s
  | fuel + 1, s =>
    if pat ≠ [] ∧ pat.isPrefixOf s then dropRepeated pat fuel (s.drop pat.length) else s

/-- `str::trim_start_matches` with a string pattern. -/
def trimStartMatches (s pat : String) : String :=
  String.ofList (dropRepeated pat.toList s.length s.toList)

/-- `str::trim_end_matches` with a string pattern. -/
def trimEndMatches (s pat : String) : String :=
  String.ofList (dropRepeated pat.toList.reverse s.length s.toList.reverse).reverse

/-- Nothing is dropped where the pattern is not there. -/
theorem dropRepeated_of_not {pat s : List Char} (h : ¬pat <+: s) (fuel : ℕ) :
    dropRepeated pat fuel s = s := by
  cases fuel with
  | zero => rfl
  | succ fuel => rw [dropRepeated, if_neg fun hpat => h (List.isPrefixOf_iff_prefix.mp hpat.2)]

/-- A pattern that is there once is dropped. -/
theorem dropRepeated_append {pat s : List Char} (hpat : pat ≠ []) (h : ¬pat <+: s) {fuel : ℕ}
    (hfuel : fuel ≠ 0) : dropRepeated pat fuel (pat ++ s) = s := by
  obtain ⟨fuel, rfl⟩ := Nat.exists_eq_succ_of_ne_zero hfuel
  rw [dropRepeated, if_pos ⟨hpat, List.isPrefixOf_iff_prefix.mpr (List.prefix_append pat s)⟩,
    List.drop_left]
  exact dropRepeated_of_not h fuel

/-- A pattern that starts a text once is trimmed. -/
theorem trimStartMatches_append {s pat : String} (hpat : pat ≠ "") (h : ¬pat.toList <+: s.toList) :
    trimStartMatches (pat ++ s) pat = s := by
  have hchars : pat.toList ≠ [] := fun hnil => hpat (String.toList_eq_nil_iff.mp hnil)
  have hfuel : (pat ++ s).length ≠ 0 := by
    have hpos := List.length_pos_iff.mpr hchars
    rw [String.length_toList] at hpos
    rw [String.length_append]
    omega
  rw [trimStartMatches, String.toList_append, dropRepeated_append hchars h hfuel,
    String.ofList_toList]

/-- A pattern that ends a text once is trimmed. -/
theorem trimEndMatches_append {s pat : String} (hpat : pat ≠ "") (h : ¬pat.toList <:+ s.toList) :
    trimEndMatches (s ++ pat) pat = s := by
  have hchars : pat.toList ≠ [] := fun hnil => hpat (String.toList_eq_nil_iff.mp hnil)
  have hfuel : (s ++ pat).length ≠ 0 := by
    have hpos := List.length_pos_iff.mpr hchars
    rw [String.length_toList] at hpos
    rw [String.length_append]
    omega
  have hreverse : pat.toList.reverse ≠ [] := fun hnil => hchars (List.reverse_eq_nil_iff.mp hnil)
  rw [trimEndMatches, String.toList_append, List.reverse_append,
    dropRepeated_append hreverse (fun hpre => h (List.reverse_prefix.mp hpre)) hfuel,
    List.reverse_reverse, String.ofList_toList]

/-- A text that does not end with the pattern is left as it is. -/
theorem trimEndMatches_of_not {s pat : String} (h : ¬pat.toList <:+ s.toList) :
    trimEndMatches s pat = s := by
  rw [trimEndMatches, dropRepeated_of_not (fun hpre => h (List.reverse_prefix.mp hpre)),
    List.reverse_reverse, String.ofList_toList]

/-- A text that starts with a pattern is not one that does not. -/
theorem beq_eq_false_of_startsWith {s t pat : String} (hs : startsWith s pat = true)
    (ht : startsWith t pat = false) : (s == t) = false := by
  rw [beq_eq_false_iff_ne]
  rintro rfl
  rw [hs] at ht
  cases ht

/-- A text starts with one of two patterns only, where neither starts with the other. -/
theorem startsWith_eq_false {s pat pat' : String} (hs : startsWith s pat = true)
    (h : startsWith pat pat' = false) (h' : startsWith pat' pat = false) :
    startsWith s pat' = false := by
  by_contra hs'
  have hpat : pat.toList <+: s.toList := List.isPrefixOf_iff_prefix.mp hs
  have hpat' : pat'.toList <+: s.toList :=
    List.isPrefixOf_iff_prefix.mp (Bool.of_not_eq_false hs')
  rw [startsWith, ← Bool.not_eq_true, List.isPrefixOf_iff_prefix] at h h'
  rcases List.prefix_or_prefix_of_prefix hpat hpat' with hle | hle
  · exact h' hle
  · exact h hle

/-- A text ends with one of two patterns only, where neither ends with the other. -/
theorem endsWith_eq_false {s pat pat' : String} (hs : endsWith s pat = true)
    (h : endsWith pat pat' = false) (h' : endsWith pat' pat = false) :
    endsWith s pat' = false := by
  by_contra hs'
  have hpat : pat.toList <:+ s.toList := List.isSuffixOf_iff_suffix.mp hs
  have hpat' : pat'.toList <:+ s.toList :=
    List.isSuffixOf_iff_suffix.mp (Bool.of_not_eq_false hs')
  rw [endsWith, ← Bool.not_eq_true, List.isSuffixOf_iff_suffix] at h h'
  rcases List.suffix_or_suffix_of_suffix hpat hpat' with hle | hle
  · exact h' hle
  · exact h hle

/-- A text starts with what is put in front. -/
theorem startsWith_append (pat s : String) : startsWith (pat ++ s) pat = true := by
  rw [startsWith, String.toList_append, List.isPrefixOf_iff_prefix]
  exact List.prefix_append _ _

/-- A text ends with what is put behind. -/
theorem endsWith_append (s pat : String) : endsWith (s ++ pat) pat = true := by
  rw [endsWith, String.toList_append, List.isSuffixOf_iff_suffix]
  exact List.suffix_append _ _

/-- A root with more slashes than what is behind it is trimmed once. -/
theorem trimStartMatches_root {root s : String} (h : s.toList.count '/' < root.toList.count '/') :
    trimStartMatches (root ++ s) root = s := by
  have hne : root ≠ "" := by
    rintro rfl
    exact Nat.not_lt_zero _ h
  refine trimStartMatches_append hne fun hpre => ?_
  have hcount := hpre.sublist.count_le '/'
  omega

/-- A segment without a slash stands alone in a path once the root in front of it is trimmed. -/
theorem trim_root {root segment : String} (hroot : '/' ∈ root.toList)
    (hsegment : '/' ∉ segment.toList) :
    trimEndMatches (trimStartMatches (root ++ segment) root) "/" = segment := by
  have hcount : segment.toList.count '/' < root.toList.count '/' := by
    rw [List.count_eq_zero_of_not_mem hsegment]
    exact List.count_pos_iff.mpr hroot
  rw [trimStartMatches_root hcount, trimEndMatches_of_not]
  exact fun hsuffix => hsegment (hsuffix.subset (by decide))

/-- A segment without a slash stands alone in a path once the root in front of it and the leaf
behind it are trimmed. -/
theorem trim_root_leaf {root segment leaf : String} (hleaf : '/' ∈ leaf.toList)
    (hroot : leaf.toList.count '/' < root.toList.count '/') (hsegment : '/' ∉ segment.toList) :
    trimEndMatches (trimEndMatches (trimStartMatches (root ++ segment ++ leaf) root) leaf) "/" =
      segment := by
  have hne : leaf ≠ "" := by
    rintro rfl
    exact absurd hleaf List.not_mem_nil
  have hcount : (segment ++ leaf).toList.count '/' < root.toList.count '/' := by
    rwa [String.toList_append, List.count_append, List.count_eq_zero_of_not_mem hsegment, zero_add]
  rw [String.append_assoc, trimStartMatches_root hcount, trimEndMatches_append hne,
    trimEndMatches_of_not]
  · exact fun hsuffix => hsegment (hsuffix.subset (by decide))
  · exact fun hsuffix => hsegment (hsuffix.subset hleaf)

/-! ## Splitting -/

/-- `str::split_once` with a character: the text before its first occurrence and the text after. -/
def splitOnce (sep : Char) : List Char → Option (List Char × List Char)
  | [] => none
  | c :: cs =>
    if c = sep then some ([], cs) else (splitOnce sep cs).map fun (a, b) => (c :: a, b)

/-- `str::splitn` with a character: at most `n` pieces, the last one unsplit. -/
def splitN (sep : Char) : ℕ → List Char → List (List Char)
  | 0, _ => []
  | 1, s => [s]
  | n + 2, s =>
    match splitOnce sep s with
    | none => [s]
    | some (a, b) => a :: splitN sep (n + 1) b

/-- One trailing carriage return removed. -/
def stripCr (s : List Char) : List Char := if s.getLast? = some '\r' then s.dropLast else s

/-- `str::lines`. The piece after the last line feed is a line only when it is not empty, and
keeps its carriage return. -/
def lines (s : List Char) : List (List Char) :=
  let pieces := s.splitOn '\n'
  pieces.dropLast.map stripCr ++
    if pieces.getLastD [] = [] then [] else [pieces.getLastD []]

/-! ## Reading back what was joined -/

/-- The first line of a text. -/
theorem lines_cons {s : List Char} (h : '\n' ∉ s) (rest : List Char) :
    lines (s ++ '\n' :: rest) = stripCr s :: lines rest := by
  obtain ⟨first, pieces, hpieces⟩ :=
    List.exists_cons_of_ne_nil (List.splitOn_ne_nil '\n' rest)
  unfold lines
  rw [List.splitOn_append_cons_self_of_not_mem h, hpieces]
  simp

/-- The lines of a text that line feeds separate and end. -/
theorem lines_intercalate {ls : List (List Char)}
    (h : ∀ l ∈ ls, ∀ c ∈ l, c ≠ '\n' ∧ c ≠ '\r') (hne : ls ≠ []) :
    lines (['\n'].intercalate ls ++ ['\n']) = ls := by
  induction ls with
  | nil => exact absurd rfl hne
  | cons l rest ih =>
    rw [List.forall_mem_cons] at h
    have hfeed : '\n' ∉ l := fun hc => (h.1 _ hc).1 rfl
    have hreturn : l.getLast? ≠ some '\r' := fun hlast =>
      (h.1 _ (List.mem_of_mem_getLast? (Option.mem_def.mpr hlast))).2 rfl
    cases rest with
    | nil =>
      rw [List.intercalate_singleton, lines_cons hfeed, stripCr, if_neg hreturn]
      rfl
    | cons l' rest =>
      rw [List.intercalate_cons_cons, List.append_assoc, List.append_assoc,
        List.singleton_append, lines_cons hfeed, stripCr, if_neg hreturn,
        ih h.2 (List.cons_ne_nil _ _)]

/-- A separator that is there is found. -/
theorem splitOnce_cons {sep : Char} {s : List Char} (h : sep ∉ s) (rest : List Char) :
    splitOnce sep (s ++ sep :: rest) = some (s, rest) := by
  induction s with
  | nil => simp [splitOnce]
  | cons c cs ih =>
    rw [List.mem_cons, not_or] at h
    rw [List.cons_append, splitOnce, if_neg (Ne.symm h.1), ih h.2]
    rfl

/-- A separator that is not there is not found. -/
theorem splitOnce_none {sep : Char} {s : List Char} (h : sep ∉ s) : splitOnce sep s = none := by
  induction s with
  | nil => rfl
  | cons c cs ih =>
    rw [List.mem_cons, not_or] at h
    rw [splitOnce, if_neg (Ne.symm h.1), ih h.2]
    rfl

/-- As many pieces as there are fields give the fields back. -/
theorem splitN_intercalate {sep : Char} {n : ℕ} {fields : List (List Char)}
    (hfields : ∀ f ∈ fields, sep ∉ f) (hne : fields ≠ []) (hn : fields.length ≤ n) :
    splitN sep n ([sep].intercalate fields) = fields := by
  induction fields generalizing n with
  | nil => exact absurd rfl hne
  | cons f rest ih =>
    rw [List.forall_mem_cons] at hfields
    cases rest with
    | nil =>
      rw [List.intercalate_singleton]
      match n, hn with
      | 1, _ => rfl
      | n + 2, _ => rw [splitN, splitOnce_none hfields.1]
    | cons g rest =>
      match n, hn with
      | 1, hn => simp at hn
      | n + 2, hn =>
        rw [List.intercalate_cons_cons, List.append_assoc, List.singleton_append, splitN,
          splitOnce_cons hfields.1]
        dsimp only
        rw [ih hfields.2 (by simp) (by simpa using hn)]

/-! ## Characters -/

/-- `char::is_whitespace`: the Unicode `White_Space` property. -/
def isWhitespace (c : Char) : Bool :=
  (9 ≤ c.toNat && c.toNat ≤ 13) || c.toNat == 0x20 || c.toNat == 0x85 || c.toNat == 0xA0 ||
    c.toNat == 0x1680 || (0x2000 ≤ c.toNat && c.toNat ≤ 0x200A) || c.toNat == 0x2028 ||
    c.toNat == 0x2029 || c.toNat == 0x202F || c.toNat == 0x205F || c.toNat == 0x3000

/-- `char::is_control`: the general category `Cc`. -/
def isControl (c : Char) : Bool := c.toNat ≤ 0x1F || (0x7F ≤ c.toNat && c.toNat ≤ 0x9F)

/-- `u8::is_ascii_graphic` on a character: the bytes of a character outside ASCII are not. -/
def isAsciiGraphic (c : Char) : Bool := 0x21 ≤ c.toNat && c.toNat ≤ 0x7E

/-- `u8::is_ascii_control` on a character. -/
def isAsciiControl (c : Char) : Bool := c.toNat ≤ 0x1F || c.toNat == 0x7F

/-- `u8::is_ascii_hexdigit` on a character. -/
def isAsciiHexdigit (c : Char) : Bool :=
  c.isDigit || ('a' ≤ c && c ≤ 'f') || ('A' ≤ c && c ≤ 'F')

/-- `str::trim` on characters. -/
def trimChars (s : List Char) : List Char :=
  ((s.dropWhile isWhitespace).reverse.dropWhile isWhitespace).reverse

/-- `str::trim`. -/
def trim (s : String) : String := String.ofList (trimChars s.toList)

/-- `str::to_ascii_lowercase`. -/
def toAsciiLowercase (s : String) : String := String.ofList (s.toList.map Char.toLower)

/-- `str::eq_ignore_ascii_case`. -/
def eqIgnoreAsciiCase (s t : List Char) : Bool := s.map Char.toLower == t.map Char.toLower

/-! ## Numbers -/

/-- The value of a non-empty string of decimal digits. -/
def parseDigits (s : List Char) : Option ℕ :=
  if s ≠ [] ∧ s.all Char.isDigit then some (Nat.ofDigitChars 10 s 0) else none

/-- `str::parse` at an unsigned integer type with largest value `max`. -/
def parseUnsigned (max : ℕ) (s : List Char) : Option ℕ :=
  (parseDigits (if s.head? = some '+' then s.tail else s)).filter (· ≤ max)

/-- The largest `u64`, which is the largest `usize` on a 64-bit target. -/
def u64Max : ℕ := 2^64 - 1

/-- `str::parse::<i32>`. -/
def parseI32 (s : List Char) : Option ℤ :=
  match s with
  | '-' :: digits => ((parseDigits digits).filter (· ≤ 2^31)).map fun n => -(n : ℤ)
  | _ => (parseUnsigned (2^31 - 1) s).map fun n => (n : ℤ)

/-- The characters of a number are digits. -/
theorem isDigit_of_mem_repr {n : ℕ} {c : Char} (hc : c ∈ n.repr.toList) : c.isDigit = true := by
  rw [Nat.toList_repr] at hc
  exact Nat.isDigit_of_mem_toDigits (by norm_num) le_rfl hc

/-- The digits of a number read back. -/
theorem parseDigits_repr (n : ℕ) : parseDigits n.repr.toList = some n := by
  have hne : n.repr.toList ≠ [] := by
    rw [Nat.toList_repr]
    exact Nat.toDigits_ne_nil
  have hdigits : n.repr.toList.all Char.isDigit = true :=
    List.all_eq_true.mpr fun _ => isDigit_of_mem_repr
  rw [parseDigits, if_pos ⟨hne, hdigits⟩, Nat.toList_repr,
    Nat.ofDigitChars_toDigits (by norm_num) le_rfl]

/-- A number reads back where it fits. -/
theorem parseUnsigned_repr (max n : ℕ) :
    parseUnsigned max n.repr.toList = if n ≤ max then some n else none := by
  have hplus : n.repr.toList.head? ≠ some '+' := by
    intro h
    have hdigit := isDigit_of_mem_repr (List.mem_of_mem_head? (Option.mem_def.mpr h))
    exact absurd hdigit (by decide)
  rw [parseUnsigned, if_neg hplus, parseDigits_repr, Option.filter_some]
  simp

/-- A signed number reads back where it fits. -/
theorem parseI32_repr (n : ℤ) :
    parseI32 n.repr.toList = if -2^31 ≤ n ∧ n < 2^31 then some n else none := by
  cases n with
  | ofNat m =>
    have hminus : m.repr.toList.head? ≠ some '-' := by
      intro h
      have hdigit := isDigit_of_mem_repr (List.mem_of_mem_head? (Option.mem_def.mpr h))
      exact absurd hdigit (by decide)
    show parseI32 m.repr.toList = _
    unfold parseI32
    split
    · next digits hdigits => exact absurd (by rw [hdigits]; rfl) hminus
    · rw [parseUnsigned_repr]
      split_ifs with h₁ h₂ h₂ <;> first | rfl | (simp only [Int.ofNat_eq_natCast] at h₂; omega)
  | negSucc m =>
    show parseI32 ("-" ++ m.succ.repr).toList = _
    rw [String.toList_append]
    show ((parseDigits m.succ.repr.toList).filter (· ≤ 2^31)).map (fun n => -(n : ℤ)) = _
    rw [parseDigits_repr, Option.filter_some]
    by_cases h : m.succ ≤ 2^31
    · have hfits : (-2^31 ≤ Int.negSucc m ∧ Int.negSucc m < 2^31) := by omega
      rw [if_pos (by simpa using h), if_pos hfits]
      rfl
    · have hfits : ¬(-2^31 ≤ Int.negSucc m ∧ Int.negSucc m < 2^31) := by omega
      rw [if_neg (by simpa using h), if_neg hfits]
      rfl

/-- A number in lower-case hexadecimal, as `format!("{:x}")` prints it. -/
def hex (n : ℕ) : String := String.ofList (Nat.toDigits 16 n)

/-- `u64::saturating_add`. -/
def saturatingAdd (a b : ℕ) : ℕ := min (a + b) u64Max

/-! ## Bytes -/

/-- `str::as_bytes`. -/
def bytes (s : String) : List UInt8 := s.toByteArray.data.toList

/-- A string is its bytes. -/
theorem bytes_inj {s t : String} : bytes s = bytes t ↔ s = t := by
  unfold bytes
  rw [Array.toList_inj, ByteArray.ext_iff.symm, String.toByteArray_inj]

/-- The bytes of a string are those of its characters. -/
theorem bytes_eq_flatMap (s : String) : bytes s = s.toList.flatMap String.utf8EncodeChar := by
  unfold bytes
  have h := congrArg String.toByteArray (String.ofList_toList (s := s)).symm
  rw [h, String.toByteArray_ofList]
  simp [List.utf8Encode]

/-- The bytes of a string are valid UTF-8 and read back. -/
theorem fromUTF8_bytes (s : String) : String.fromUTF8? ⟨(bytes s).toArray⟩ = some s := by
  unfold bytes String.fromUTF8?
  rw [Array.toArray_toList, dif_pos s.isValidUTF8]
  rfl

/-- `str::len`: the number of bytes. -/
def len (s : String) : ℕ := s.utf8ByteSize

/-- The length counts the bytes. -/
theorem len_eq_length (s : String) : len s = (bytes s).length := rfl

/-- A text has the bytes of its characters. -/
theorem len_ofList (cs : List Char) : len (String.ofList cs) = (cs.map Char.utf8Size).sum := by
  rw [len_eq_length, bytes_eq_flatMap, String.toList_ofList, List.length_flatMap]
  simp

/-! ## Results -/

/-- `Option::ok_or`. -/
def okOr {ε α : Type} (value : Option α) (error : ε) : Except ε α :=
  match value with
  | none => .error error
  | some a => .ok a

/-- An early return with an error, unless a condition holds. -/
def ensure {ε : Type} (p : Prop) [Decidable p] (error : ε) : Except ε Unit :=
  if p then .ok () else .error error

/-- A value that is required is there. -/
theorem okOr_eq_ok {ε α : Type} {value : Option α} {error : ε} {a : α} :
    okOr value error = .ok a ↔ value = some a := by
  cases value with
  | none => exact iff_of_false (fun h => by cases h) (fun h => by cases h)
  | some b => exact ⟨fun h => congrArg some (Except.ok.inj h), fun h => by rw [h]; rfl⟩

/-- A condition that is required holds. -/
theorem ensure_eq_ok {ε : Type} {p : Prop} [Decidable p] {error : ε} {u : Unit} :
    ensure p error = .ok u ↔ p := by
  by_cases h : p
  · exact iff_of_true (if_pos h) h
  · rw [ensure, if_neg h]
    exact iff_of_false (fun h => by cases h) h

/-- A computation that succeeds passes on the result of its first part. -/
theorem bind_eq_ok {ε α β : Type} {x : Except ε α} {f : α → Except ε β} {b : β}
    (h : x >>= f = .ok b) : ∃ a, x = .ok a ∧ f a = .ok b := by
  cases x with
  | error e => cases h
  | ok a => exact ⟨a, rfl, h⟩

/-- A computation succeeds when its parts do. -/
theorem bind_eq_ok_iff {ε α β : Type} {x : Except ε α} {f : α → Except ε β} {b : β} :
    x >>= f = .ok b ↔ ∃ a, x = .ok a ∧ f a = .ok b := by
  refine ⟨bind_eq_ok, ?_⟩
  rintro ⟨a, rfl, h⟩
  exact h

/-- A mapped computation that succeeds is the image of a result. -/
theorem map_eq_ok {ε α β : Type} {x : Except ε α} {f : α → β} {b : β}
    (h : x.map f = .ok b) : ∃ a, x = .ok a ∧ f a = b := by
  cases x with
  | error e => cases h
  | ok a => exact ⟨a, rfl, Except.ok.inj h⟩

end NodeWe.Text
