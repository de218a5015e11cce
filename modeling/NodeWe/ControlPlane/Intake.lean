import NodeWe.Separators
import NodeWe.Wire
import NodeWe.ControlPlane.Render

/-!
# Requests off the wire

The first part of `handle`: it reads a connection until the blank line behind the header, takes the
length of the body from the header, and reads the body. A request of more than 64 KiB is refused,
by what has come before the header is complete or by what the header announces.
-/

namespace NodeWe.ControlPlane

open Text Wire

/-! ## The header -/

/-- `request_content_length`, after the lines whose length is `content_length`. -/
def contentLengthOf : Option ℕ → List (List Char) → Except String ℕ
  | content_length, [] => .ok (content_length.getD 0)
  | content_length, line :: rest =>
    if trimChars line = [] then contentLengthOf content_length rest
    else
      match splitOnce ':' line with
      | none => .error "malformed_header"
      | some (name, value) =>
        let name := trimChars name
        let value := trimChars value
        if name = [] || value.any isAsciiControl then .error "malformed_header"
        else if eqIgnoreAsciiCase name "transfer-encoding".toList then
          .error "unsupported_transfer_encoding"
        else if eqIgnoreAsciiCase name "content-length".toList then
          if value = [] || !value.all Char.isDigit then .error "invalid_content_length"
          else
            match parseUnsigned u64Max value with
            | none => .error "invalid_content_length"
            | some parsed =>
              if content_length.any (· ≠ parsed) then .error "conflicting_content_length"
              else contentLengthOf (some parsed) rest
        else contentLengthOf content_length rest

/-- `request_content_length`. -/
def requestContentLength (header : String) : Except String ℕ :=
  contentLengthOf none ((lines header.toList).drop 1)

/-! ## Reading -/

/-- `MAX_REQUEST_BYTES`. -/
def maxRequestBytes : ℕ := 64 * 1024

/-- The refusal of a request that is too large. -/
def requestTooLarge : Response := failure .payloadTooLarge "request_too_large"

/-- The place of the first blank line: `windows(4).position`. -/
def findHeaderEnd : List UInt8 → Option ℕ
  | [] => none
  | b :: rest =>
    if [13, 10, 13, 10].isPrefixOf (b :: rest) then some 0 else (findHeaderEnd rest).map (· + 1)

/-- The first loop of `handle`: the place of the blank line, what has been read, and what is left
to read. -/
def readHeader : List UInt8 → List (List UInt8) →
    Except Response (ℕ × List UInt8 × List (List UInt8))
  | _, [] => .error (failure .badRequest "malformed_request")
  | request, piece :: rest =>
    if (request ++ piece).length > maxRequestBytes then .error requestTooLarge
    else
      match findHeaderEnd (request ++ piece) with
      | some header_end => .ok (header_end, request ++ piece, rest)
      | none => readHeader (request ++ piece) rest

/-- The second loop of `handle`: the request, of the length that the header announces. -/
def readBody (total : ℕ) : List UInt8 → List (List UInt8) → Except Response (List UInt8)
  | request, pieces =>
    if total ≤ request.length then .ok (request.take total)
    else
      match pieces with
      | [] => .error (failure .badRequest "truncated_request")
      | piece :: rest => readBody total (request ++ piece) rest

/-- The first part of `handle`, on the pieces that the connection hands out: the request, or the
response that refuses it. The sum of the lengths is a `usize`. -/
def readRequest (pieces : List (List UInt8)) : Except Response (List UInt8) :=
  match readHeader [] pieces with
  | .error refusal => .error refusal
  | .ok (header_end, request, rest) =>
    match String.fromUTF8? ⟨(request.take header_end).toArray⟩ with
    | none => .error (failure .badRequest "invalid_headers")
    | some header =>
      match requestContentLength header with
      | .error code => .error (failure .badRequest code)
      | .ok content_length =>
        let total := (header_end + 4 + content_length) % 2^64
        if total > maxRequestBytes then .error requestTooLarge else readBody total request rest

/-! ## The blank line -/

/-- A blank line that is found is there. -/
theorem findHeaderEnd_le {bs : List UInt8} {i : ℕ} (h : findHeaderEnd bs = some i) :
    i + 4 ≤ bs.length := by
  induction bs generalizing i with
  | nil => cases h
  | cons b bs ih =>
    rw [findHeaderEnd] at h
    split_ifs at h with hblank
    · have hlength := (List.isPrefixOf_iff_prefix.mp hblank).length_le
      rw [← Option.some.inj h]
      simpa using hlength
    · obtain ⟨j, hj, rfl⟩ := Option.map_eq_some_iff.mp h
      have hlength := ih hj
      rw [List.length_cons]
      omega

/-- A blank line that is found is found when more has come. -/
theorem findHeaderEnd_append {bs : List UInt8} {i : ℕ} (h : findHeaderEnd bs = some i)
    (rest : List UInt8) : findHeaderEnd (bs ++ rest) = some i := by
  induction bs generalizing i with
  | nil => cases h
  | cons b bs ih =>
    have hlength := findHeaderEnd_le h
    rw [List.cons_append, findHeaderEnd]
    rw [findHeaderEnd] at h
    -- The four bytes are there, so that what comes behind them does not matter.
    have hblank : [13, 10, 13, 10].isPrefixOf (b :: (bs ++ rest)) =
        [13, 10, 13, 10].isPrefixOf (b :: bs) := by
      have hfour : [13, 10, 13, 10].length ≤ (b :: bs).length := by
        show 4 ≤ _
        omega
      rw [Bool.eq_iff_iff, List.isPrefixOf_iff_prefix, List.isPrefixOf_iff_prefix,
        ← List.cons_append]
      exact ⟨fun hp => List.prefix_of_prefix_length_le hp (List.prefix_append _ _) hfour,
        fun hp => hp.trans (List.prefix_append _ _)⟩
    rw [hblank]
    split_ifs at h ⊢ with hfound
    · exact h
    · obtain ⟨j, hj, rfl⟩ := Option.map_eq_some_iff.mp h
      rw [ih hj]
      rfl

/-- A line without a carriage return is passed over. -/
theorem findHeaderEnd_line {line : List UInt8} (h : 13 ∉ line) (rest : List UInt8) :
    findHeaderEnd (line ++ rest) = (findHeaderEnd rest).map (· + line.length) := by
  induction line with
  | nil => simp
  | cons b line ih =>
    rw [List.mem_cons, not_or] at h
    have hblank : ¬[13, 10, 13, 10].isPrefixOf (b :: (line ++ rest)) = true := by
      rw [List.isPrefixOf_iff_prefix, List.cons_prefix_cons]
      exact fun hp => h.1 hp.1
    rw [List.cons_append, findHeaderEnd, if_neg hblank, ih h.2, Option.map_map]
    congr 1

/-- The end of a line is passed over where a line comes behind it. -/
theorem findHeaderEnd_lineEnd {b : UInt8} (h : b ≠ 13) (rest : List UInt8) :
    findHeaderEnd (13 :: 10 :: b :: rest) = (findHeaderEnd (b :: rest)).map (· + 2) := by
  have hfirst : ¬[13, 10, 13, 10].isPrefixOf (13 :: 10 :: b :: rest) = true := by
    simp [List.isPrefixOf, Ne.symm h]
  have hsecond : ¬[13, 10, 13, 10].isPrefixOf (10 :: b :: rest) = true := by
    simp [List.isPrefixOf]
  rw [findHeaderEnd, if_neg hfirst, findHeaderEnd, if_neg hsecond, Option.map_map]
  rfl

/-- The blank line comes behind the lines of a header. -/
theorem findHeaderEnd_lines {lines : List (List UInt8)} (h : ∀ line ∈ lines, line ≠ [] ∧ 13 ∉ line)
    (hne : lines ≠ []) (rest : List UInt8) :
    findHeaderEnd ([13, 10].intercalate lines ++ [13, 10, 13, 10] ++ rest) =
      some ([13, 10].intercalate lines).length := by
  induction lines with
  | nil => exact absurd rfl hne
  | cons line lines ih =>
    rw [List.forall_mem_cons] at h
    cases lines with
    | nil =>
      rw [List.intercalate_singleton, List.append_assoc, findHeaderEnd_line h.1.2]
      simp [findHeaderEnd]
    | cons next lines =>
      have hnext := h.2 next List.mem_cons_self
      obtain ⟨b, tail, hb⟩ := List.exists_cons_of_ne_nil hnext.1
      have hb13 : b ≠ 13 := by
        rintro rfl
        exact hnext.2 (hb ▸ List.mem_cons_self)
      have hrest := ih h.2 (List.cons_ne_nil _ _)
      obtain ⟨tail', htail⟩ : ∃ tail',
          [13, 10].intercalate (next :: lines) ++ [13, 10, 13, 10] ++ rest = b :: tail' := by
        cases lines with
        | nil => exact ⟨_, by rw [List.intercalate_singleton, hb, List.cons_append, List.cons_append]⟩
        | cons _ _ =>
          exact ⟨_, by rw [List.intercalate_cons_cons, hb]; rfl⟩
      rw [List.intercalate_cons_cons, List.append_assoc, List.append_assoc, List.append_assoc,
        findHeaderEnd_line h.1.2]
      rw [List.append_assoc] at htail hrest
      rw [htail] at hrest ⊢
      rw [List.cons_append, List.cons_append, List.nil_append, findHeaderEnd_lineEnd hb13, hrest,
        Option.map_some, Option.map_some]
      simp only [List.length_append, List.length_cons, List.length_nil]
      congr 1
      omega

/-! ## Reading a whole request -/

/-- The header is read unless the request grows beyond the limit before, however it is cut. -/
theorem readHeader_found {request : List UInt8} {pieces : List (List UInt8)} {i : ℕ}
    (hstart : findHeaderEnd request = none)
    (hfound : findHeaderEnd (request ++ pieces.flatten) = some i) :
    readHeader request pieces = .error requestTooLarge ∧
        maxRequestBytes < (request ++ pieces.flatten).length ∨
      ∃ read rest, readHeader request pieces = .ok (i, read, rest) ∧
        read ++ rest.flatten = request ++ pieces.flatten ∧ i + 4 ≤ read.length := by
  induction pieces generalizing request with
  | nil =>
    rw [List.flatten_nil, List.append_nil, hstart] at hfound
    cases hfound
  | cons piece rest ih =>
    rw [readHeader]
    rw [List.flatten_cons, ← List.append_assoc] at hfound ⊢
    by_cases hlarge : (request ++ piece).length > maxRequestBytes
    · rw [if_pos hlarge]
      refine .inl ⟨rfl, ?_⟩
      rw [List.length_append]
      omega
    · rw [if_neg hlarge]
      cases hhere : findHeaderEnd (request ++ piece) with
      | none => exact ih hhere hfound
      | some j =>
        obtain rfl : j = i := by
          rw [findHeaderEnd_append hhere] at hfound
          exact Option.some.inj hfound
        exact .inr ⟨_, _, rfl, rfl, findHeaderEnd_le hhere⟩

/-- The body is read where it comes whole. -/
theorem readBody_whole {total : ℕ} {request : List UInt8} {pieces : List (List UInt8)}
    (h : (request ++ pieces.flatten).length = total) :
    readBody total request pieces = .ok (request ++ pieces.flatten) := by
  induction pieces generalizing request with
  | nil =>
    rw [List.flatten_nil, List.append_nil] at h ⊢
    rw [readBody, if_pos h.ge, ← h, List.take_length]
  | cons piece rest ih =>
    rw [List.flatten_cons, ← List.append_assoc] at h ⊢
    rw [readBody]
    by_cases hend : total ≤ request.length
    · -- The request was whole already, so that nothing comes any more.
      have hlength := h
      rw [List.length_append, List.length_append] at hlength
      have hpiece : piece = [] := List.length_eq_zero_iff.mp (by omega)
      have hrest : rest.flatten = [] := List.length_eq_zero_iff.mp (by omega)
      rw [if_pos hend, hpiece, hrest, List.append_nil, List.append_nil,
        List.take_of_length_le (by omega)]
    · rw [if_neg hend]
      exact ih h

/-- A request whose header announces its body is read if it is within the limit, however it is
cut. -/
theorem readRequest_eq {header body : String} {pieces : List (List UInt8)}
    (hblank : findHeaderEnd (bytes header ++ [13, 10, 13, 10] ++ bytes body) =
      some (bytes header).length)
    (hbody : requestContentLength header = .ok (len body))
    (hpieces : pieces.flatten = bytes header ++ [13, 10, 13, 10] ++ bytes body)
    (hsize : pieces.flatten.length < 2^64) :
    readRequest pieces =
      if pieces.flatten.length ≤ maxRequestBytes then .ok pieces.flatten
      else .error requestTooLarge := by
  have hlength := congrArg List.length hpieces
  rw [List.length_append, List.length_append, ← len_eq_length body] at hlength
  change _ = (bytes header).length + 4 + len body at hlength
  have hstart : findHeaderEnd [] = none := rfl
  have hfound : findHeaderEnd ([] ++ pieces.flatten) = some (bytes header).length := by
    rw [List.nil_append, hpieces]
    exact hblank
  have hheader := readHeader_found hstart hfound
  rw [List.nil_append] at hheader
  rcases hheader with ⟨hread, hlarge⟩ | ⟨read, rest, hread, hwhole, hle⟩
  · rw [readRequest, hread, if_neg (by omega)]
  · have htake : read.take (bytes header).length = bytes header := by
      have hprefix := congrArg (List.take (bytes header).length) hwhole
      rw [hpieces, List.take_append_of_le_length (by omega), List.append_assoc,
        List.take_left] at hprefix
      exact hprefix
    rw [readRequest, hread]
    dsimp only
    rw [htake, fromUTF8_bytes]
    dsimp only
    rw [hbody]
    dsimp only
    rw [Nat.mod_eq_of_lt (by omega), ← hlength]
    by_cases hlimit : pieces.flatten.length ≤ maxRequestBytes
    · rw [if_neg (by omega), if_pos hlimit, readBody_whole (congrArg List.length hwhole), hwhole]
    · rw [if_pos (by omega), if_neg hlimit]

/-! ## The length of the body -/

/-- The lines of a text that carriage returns and line feeds separate. -/
theorem lines_crlf {ls : List (List Char)} (h : ∀ l ∈ ls, l ≠ [] ∧ '\n' ∉ l) (hne : ls ≠ []) :
    lines (['\r', '\n'].intercalate ls) = ls := by
  induction ls with
  | nil => exact absurd rfl hne
  | cons l rest ih =>
    rw [List.forall_mem_cons] at h
    cases rest with
    | nil =>
      rw [List.intercalate_singleton, lines, List.splitOn_eq_singleton h.1.2]
      simp [h.1.1]
    | cons l' rest =>
      have hfeed : '\n' ∉ l ++ ['\r'] := by
        rw [List.mem_append, not_or]
        exact ⟨h.1.2, by decide⟩
      have hsplit : ['\r', '\n'].intercalate (l :: l' :: rest) =
          (l ++ ['\r']) ++ '\n' :: ['\r', '\n'].intercalate (l' :: rest) := by
        rw [List.intercalate_cons_cons, List.append_assoc, List.append_assoc]
        rfl
      rw [hsplit, lines_cons hfeed, ih h.2 (List.cons_ne_nil _ _), stripCr, if_pos (by simp),
        List.dropLast_concat]

/-- What is kept of a text that is not blank is not empty. -/
theorem trimChars_ne_nil {s : List Char} {c : Char} (hc : c ∈ s) (h : isWhitespace c = false) :
    trimChars s ≠ [] :=
  List.ne_nil_of_mem ((mem_trimChars_iff h).mpr hc)

/-- What is kept of a text is of the text. -/
theorem mem_of_mem_trimChars {s : List Char} {c : Char} (hc : c ∈ trimChars s) : c ∈ s := by
  have hright := (List.dropWhile_sublist isWhitespace).subset (List.mem_reverse.mp hc)
  exact (List.dropWhile_sublist isWhitespace).subset (List.mem_reverse.mp hright)

/-- A blank before a text that neither begins nor ends with one is dropped. -/
theorem trimChars_blank_of_ends {s : List Char} (hfirst : ∀ c ∈ s.head?, isWhitespace c = false)
    (hlast : ∀ c ∈ s.getLast?, isWhitespace c = false) : trimChars (' ' :: s) = s := by
  have hkept {t : List Char} (ht : ∀ c ∈ t.head?, isWhitespace c = false) :
      t.dropWhile isWhitespace = t := by
    cases t with
    | nil => rfl
    | cons c t => rw [List.dropWhile_cons, ht c rfl, if_neg Bool.false_ne_true]
  have hblank : isWhitespace ' ' = true := by decide
  rw [← List.head?_reverse] at hlast
  rw [trimChars, List.dropWhile_cons, hblank, if_pos rfl, hkept hfirst, hkept hlast,
    List.reverse_reverse]

/-- A blank before a text without blanks is dropped. -/
theorem trimChars_blank {s : List Char} (h : ∀ c ∈ s, isWhitespace c = false) :
    trimChars (' ' :: s) = s :=
  trimChars_blank_of_ends (fun c hc => h c (List.mem_of_mem_head? hc))
    fun c hc => h c (List.mem_of_mem_getLast? hc)

/-- The names of the fields that say nothing about the body. -/
def plainNames : List String := ["Host", "Authorization", "Content-Type", "Connection"]

/-- What `request_content_length` looks for in a name. -/
theorem plainNames_checked : ∀ name ∈ plainNames, ':' ∉ name.toList ∧
    name.toList.any (fun c => !isWhitespace c) = true ∧ trimChars name.toList = name.toList ∧
      eqIgnoreAsciiCase name.toList "transfer-encoding".toList = false ∧
        eqIgnoreAsciiCase name.toList "content-length".toList = false := by
  decide +kernel

/-- A field that says nothing about the body is passed over. -/
theorem contentLengthOf_plain {content_length : Option ℕ} {name : String} {value : List Char}
    (hname : name ∈ plainNames) (hvalue : ∀ c ∈ value, isAsciiControl c = false)
    (rest : List (List Char)) :
    contentLengthOf content_length ((name.toList ++ ':' :: value) :: rest) =
      contentLengthOf content_length rest := by
  obtain ⟨hcolon, hvisible, htrim, hencoding, hlength⟩ := plainNames_checked name hname
  obtain ⟨c, hc, hblank⟩ := List.any_eq_true.mp hvisible
  rw [Bool.not_eq_true'] at hblank
  have hline : trimChars (name.toList ++ ':' :: value) ≠ [] :=
    trimChars_ne_nil (List.mem_append_left _ hc) hblank
  have hne : name.toList ≠ [] := List.ne_nil_of_mem hc
  have hcontrol : (trimChars value).any isAsciiControl = false := by
    refine List.any_eq_false.mpr fun d hd => ?_
    rw [hvalue d (mem_of_mem_trimChars hd)]
    exact Bool.false_ne_true
  rw [contentLengthOf, if_neg hline, splitOnce_cons hcolon]
  dsimp only
  rw [htrim, hcontrol, hencoding, hlength, Bool.or_false, if_neg (by simpa using hne),
    if_neg Bool.false_ne_true, if_neg Bool.false_ne_true]

/-- The length of the body is read. -/
theorem contentLengthOf_length {n : ℕ} (hn : n ≤ u64Max) (rest : List (List Char)) :
    contentLengthOf none (("Content-Length".toList ++ ':' :: ' ' :: n.repr.toList) :: rest) =
      contentLengthOf (some n) rest := by
  have hname : ':' ∉ "Content-Length".toList ∧
      trimChars "Content-Length".toList = "Content-Length".toList ∧
        eqIgnoreAsciiCase "Content-Length".toList "transfer-encoding".toList = false ∧
          eqIgnoreAsciiCase "Content-Length".toList "content-length".toList = true := by
    decide +kernel
  obtain ⟨hcolon, htrim, hencoding, hlength⟩ := hname
  have hdigits : ∀ c ∈ n.repr.toList, c.isDigit = true := fun c => isDigit_of_mem_repr
  have hcodes : ∀ c ∈ n.repr.toList, 48 ≤ c.toNat ∧ c.toNat ≤ 57 := by
    intro c hc
    simpa [Char.isDigit, UInt32.le_iff_toNat_le] using hdigits c hc
  have hblanks : ∀ c ∈ n.repr.toList, isWhitespace c = false := by
    intro c hc
    have hcode := hcodes c hc
    simp only [isWhitespace, Bool.or_eq_false_iff, Bool.and_eq_false_iff, decide_eq_false_iff_not,
      beq_eq_false_iff_ne]
    omega
  have hcontrol : n.repr.toList.any isAsciiControl = false := by
    refine List.any_eq_false.mpr fun c hc => ?_
    have hcode := hcodes c hc
    simp only [isAsciiControl, Bool.or_eq_true, decide_eq_true_eq, beq_iff_eq]
    omega
  have hline : trimChars ("Content-Length".toList ++ ':' :: ' ' :: n.repr.toList) ≠ [] :=
    trimChars_ne_nil (c := ':') (by simp) (by decide)
  rw [contentLengthOf, if_neg hline, splitOnce_cons hcolon]
  dsimp only
  rw [htrim, trimChars_blank hblanks, hcontrol, hencoding, hlength, Bool.or_false,
    if_neg (by simp), if_neg Bool.false_ne_true, if_pos rfl, List.all_eq_true.mpr hdigits,
    Bool.not_true, Bool.or_false, if_neg (by simp), parseUnsigned_repr, if_pos hn]
  rfl

/-! ## The bytes of a header -/

/-- The bytes of two texts in a row. -/
theorem bytes_append (s t : String) : bytes (s ++ t) = bytes s ++ bytes t := by
  rw [bytes_eq_flatMap, bytes_eq_flatMap, bytes_eq_flatMap, String.toList_append,
    List.flatMap_append]

/-- A carriage return is the only character with its byte. -/
theorem carriageReturn_of_mem {c : Char} (h : 13 ∈ String.utf8EncodeChar c) : c = '\r' := by
  have hbyte {n : ℕ} (h : (13 : UInt8) = UInt8.ofNat n) : n % 256 = 13 := by
    have hnat := congrArg UInt8.toNat h
    rw [UInt8.toNat_ofNat'] at hnat
    exact hnat.symm
  unfold String.utf8EncodeChar at h
  dsimp only at h
  split_ifs at h with hone htwo hthree
  all_goals simp only [List.mem_cons, List.not_mem_nil, or_false] at h
  · have hcode := hbyte h
    have heq : c.toNat = 13 := by
      show c.val.toNat = 13
      omega
    rw [← Char.ofNat_toNat c, heq]
  · rcases h with h | h <;> have hcode := hbyte h <;> omega
  · rcases h with h | h | h <;> have hcode := hbyte h <;> omega
  · rcases h with h | h | h | h <;> have hcode := hbyte h <;> omega

/-- A text without a carriage return has no byte of one. -/
theorem not_mem_bytes {s : String} (h : '\r' ∉ s.toList) : 13 ∉ bytes s := by
  intro hb
  rw [bytes_eq_flatMap, List.mem_flatMap] at hb
  obtain ⟨c, hc, hb⟩ := hb
  exact h (carriageReturn_of_mem hb ▸ hc)

/-- The bytes of the lines of a header. -/
theorem bytes_intercalate (ls : List String) :
    bytes ("\r\n".intercalate ls) = [13, 10].intercalate (ls.map bytes) := by
  have hend : bytes "\r\n" = [13, 10] := by decide
  induction ls with
  | nil => rfl
  | cons l rest ih =>
    by_cases hne : rest = []
    · rw [hne, String.intercalate_singleton, List.map_singleton, List.intercalate_singleton]
    · have hmap : rest.map bytes ≠ [] := by rwa [Ne, List.map_eq_nil_iff]
      obtain ⟨next, rest', hrest⟩ := List.exists_cons_of_ne_nil hmap
      rw [String.intercalate_cons_of_ne_nil hne, bytes_append, bytes_append, hend, ih,
        List.map_cons, hrest, List.intercalate_cons_cons]

/-- A text of one line, as the lines of a header are. -/
structure HeaderLine (line : String) : Prop where
  ne_empty : line ≠ ""
  no_control : ∀ c ∈ line.toList, isAsciiControl c = false

section Header

variable {header : List String} (hlines : ∀ line ∈ header, HeaderLine line) (hne : header ≠ [])
include hlines hne

/-- The lines of a header are read back. -/
theorem lines_headerLines :
    lines ("\r\n".intercalate header).toList = header.map String.toList := by
  have htexts : ∀ l ∈ header.map String.toList, l ≠ [] ∧ '\n' ∉ l := by
    refine List.forall_mem_map.mpr fun line hline => ⟨?_, fun hc => ?_⟩
    · rw [Ne, String.toList_eq_nil_iff]
      exact (hlines line hline).ne_empty
    · exact absurd ((hlines line hline).no_control _ hc) (by decide)
  have hheader : ("\r\n".intercalate header).toList =
      ['\r', '\n'].intercalate (header.map String.toList) := String.toList_intercalate
  rw [hheader, lines_crlf htexts (by rwa [Ne, List.map_eq_nil_iff])]

/-- The blank line comes behind the lines of a header. -/
theorem findHeaderEnd_headerLines (rest : List UInt8) :
    findHeaderEnd (bytes ("\r\n".intercalate header) ++ [13, 10, 13, 10] ++ rest) =
      some (bytes ("\r\n".intercalate header)).length := by
  have hbytes : ∀ bs ∈ header.map bytes, bs ≠ [] ∧ 13 ∉ bs := by
    refine List.forall_mem_map.mpr fun line hline => ⟨?_, not_mem_bytes fun hc => ?_⟩
    · rw [Ne, ← List.length_eq_zero_iff, ← len_eq_length]
      simpa [len] using (hlines line hline).ne_empty
    · exact absurd ((hlines line hline).no_control _ hc) (by decide)
  rw [bytes_intercalate]
  exact findHeaderEnd_lines hbytes (by rwa [Ne, List.map_eq_nil_iff]) rest

/-- **A request of a header and the body that it announces** is read if it is within the limit, and
refused as too large otherwise, however it is cut. -/
theorem readRequest_lines {body : String} {pieces : List (List UInt8)}
    (hbody : contentLengthOf none ((header.map String.toList).drop 1) = .ok (len body))
    (hpieces : pieces.flatten = bytes ("\r\n".intercalate header ++ "\r\n\r\n" ++ body))
    (hsize : pieces.flatten.length < 2^64) :
    readRequest pieces =
      if pieces.flatten.length ≤ maxRequestBytes then .ok pieces.flatten
      else .error requestTooLarge := by
  have hblank : bytes "\r\n\r\n" = [13, 10, 13, 10] := by decide
  rw [bytes_append, bytes_append, hblank] at hpieces
  refine readRequest_eq (findHeaderEnd_headerLines hlines hne _) ?_ hpieces hsize
  rw [requestContentLength, lines_headerLines hlines hne]
  exact hbody

end Header

end NodeWe.ControlPlane
