import NodeWe.Separators
import NodeWe.Utf8
import NodeWe.ControlPlane.Preview
import NodeWe.NodeRuntime.Agent
import NodeWe.NodeRuntime.SecureOpen

/-!
# Redaction

The agent does not report lines that look like credentials: `redact_sensitive` splits a text into
its lines, replaces the sensitive ones and joins the lines with line feeds. `redactInPlace` replaces
the same lines and leaves all line ends as they are; the two differ where a line ends with a
carriage return and a line feed, and at a line feed that ends the text.
-/

namespace NodeWe.NodeRuntime

open Text UnixPath Utf8 FileTree
open ControlPlane (truncateUtf8)

/-! ## Sensitive lines -/

/-- `str::contains` with a string pattern. -/
def contains (s pat : List Char) : Bool := (splitOnceAt pat s).isSome

/-- What a sensitive line has, in any letter case. -/
def markers : List String := ["TOKEN=", "SECRET=", "PASSWORD=", "API_KEY=", "PRIVATE_KEY="]

/-- Whether a line is redacted. -/
def isSensitive (line : List Char) : Bool :=
  markers.any fun marker => contains (line.map Char.toUpper) marker.toList

/-- What stands for a sensitive line. -/
def redactedLine : List Char := "[REDACTED]".toList

/-- A line, redacted if it is sensitive. -/
def redactLine (line : List Char) : List Char := if isSensitive line then redactedLine else line

/-- The characters of `redact_sensitive`. -/
def redactChars (text : List Char) : List Char := ['\n'].intercalate ((lines text).map redactLine)

/-- `redact_sensitive`. -/
def redactSensitive (text : String) : String := String.ofList (redactChars text.toList)

/-- `execute_task_with_limit` for `file.read`. -/
def fileRead (view : View) (rights : Rights) (program scope_path : String) (output_limit : ℕ) :
    Except String (String × ℤ) := do
  let scope ← Scope.new (fileSystemOf view) scope_path
  let path ← scope.authorize (fileSystemOf view) program .read
  let content ← readScopedFile view rights path
  ensure (content.length ≤ output_limit) "file_output_too_large"
  .ok (truncateUtf8 (redactSensitive (fromUtf8Lossy content)) output_limit, 0)

/-! ## Line ends that are kept -/

/-- A piece in front of a line feed with its line redacted, and the carriage return of its end. -/
def redactPiece (piece : List Char) : List Char :=
  redactLine (stripCr piece) ++ if piece.getLast? = some '\r' then ['\r'] else []

/-- A text with its sensitive lines redacted where they stand. -/
def redactInPlace (text : List Char) : List Char :=
  ['\n'].intercalate ((text.splitOn '\n').dropLast.map redactPiece ++
    [redactLine ((text.splitOn '\n').getLastD [])])

/-- A text whose lines end with line feeds, but for the last one. -/
structure Tidy (text : List Char) : Prop where
  no_crlf : ¬['\r', '\n'] <:+: text
  no_final : text.getLast? ≠ some '\n'

variable {s first rest : List Char}

/-- A text without line feeds is tidy. -/
theorem tidy_of_not_mem (h : '\n' ∉ s) : Tidy s := by
  constructor
  · intro hwithin
    exact h (hwithin.subset (by simp))
  · intro hlast
    exact h (List.mem_of_getLast? hlast)

/-- A text is tidy when its first line ends with a line feed only and a tidy text comes behind. -/
theorem tidy_append_iff (h : '\n' ∉ first) :
    Tidy (first ++ '\n' :: rest) ↔ first.getLast? ≠ some '\r' ∧ rest ≠ [] ∧ Tidy rest := by
  constructor
  · rintro ⟨hcrlf, hfinal⟩
    have hne : rest ≠ [] := by
      rintro rfl
      exact hfinal (by simp)
    refine ⟨fun hlast => hcrlf ?_, hne, fun hwithin => hcrlf ?_, fun hlast => hfinal ?_⟩
    · obtain ⟨front, rfl⟩ := List.getLast?_eq_some_iff.mp hlast
      exact ⟨front, rest, by simp⟩
    · obtain ⟨front, behind, rfl⟩ := hwithin
      exact ⟨first ++ '\n' :: front, behind, by simp⟩
    · obtain ⟨front, rfl⟩ := List.getLast?_eq_some_iff.mp hlast
      rw [List.getLast?_eq_some_iff]
      exact ⟨first ++ '\n' :: front, by simp⟩
  · rintro ⟨hreturn, hne, hcrlf, hfinal⟩
    constructor
    · rintro ⟨front, behind, heq⟩
      -- The first line feed of the text is that behind `first`.
      rcases List.append_eq_append_iff.mp (heq.symm.trans (List.append_assoc _ _ _)) with
        ⟨more, hfront, hmore⟩ | ⟨more, hfirst, hmore⟩
      · cases more with
        | nil => exact absurd (List.head_eq_of_cons_eq hmore) (by decide)
        | cons c more =>
          obtain ⟨rfl, hrest⟩ := List.cons.inj hmore
          exact hcrlf ⟨more, behind, hrest ▸ List.append_assoc _ _ _⟩
      · match more, hmore with
        | [], hmore => exact absurd (List.head_eq_of_cons_eq hmore) (by decide)
        | [c], hmore =>
          obtain rfl : '\r' = c := List.head_eq_of_cons_eq hmore
          exact hreturn (by rw [hfirst, List.getLast?_concat])
        | c :: d :: more, hmore =>
          obtain rfl : '\n' = d := List.head_eq_of_cons_eq (List.tail_eq_of_cons_eq hmore)
          exact h (by rw [hfirst]; simp)
    · obtain ⟨c, hc⟩ := Option.ne_none_iff_exists'.mp (mt List.getLast?_eq_none_iff.mp hne)
      rw [List.getLast?_append_of_ne_nil _ (List.cons_ne_nil _ _), List.getLast?_cons, hc]
      rw [hc] at hfinal
      exact hfinal

/-! ## Line by line -/

/-- An empty line is not sensitive. -/
theorem redactLine_nil : redactLine [] = [] := by
  decide

/-- A text without line feeds is redacted as one line, either way. -/
theorem redact_of_not_mem (h : '\n' ∉ s) :
    redactChars s = redactLine s ∧ redactInPlace s = redactLine s := by
  constructor
  · rw [redactChars, lines_of_not_mem h]
    split_ifs with hempty
    · rw [hempty, redactLine_nil]
      rfl
    · rw [List.map_singleton, List.intercalate_singleton]
  · rw [redactInPlace, List.splitOn_eq_singleton h]
    simp

/-- A text has a line unless it is empty. -/
theorem lines_eq_nil_iff : lines s = [] ↔ s = [] := by
  constructor
  · intro h
    by_contra hne
    by_cases hfeed : '\n' ∈ s
    · obtain ⟨first, rest, rfl, hfirst⟩ := List.eq_append_cons_of_mem hfeed
      rw [lines_cons hfirst] at h
      cases h
    · rw [lines_of_not_mem hfeed, if_neg hne] at h
      cases h
  · rintro rfl
    rfl

/-- `redact_sensitive` joins the first line with what it makes of the rest, if there is one. -/
theorem redactChars_append (h : '\n' ∉ first) :
    redactChars (first ++ '\n' :: rest) =
      redactLine (stripCr first) ++ if rest = [] then [] else '\n' :: redactChars rest := by
  rw [redactChars, lines_cons h, List.map_cons]
  split_ifs with hrest
  · rw [lines_eq_nil_iff.mpr hrest, List.map_nil, List.intercalate_singleton, List.append_nil]
  · obtain ⟨line, others, hlines⟩ := List.exists_cons_of_ne_nil (mt lines_eq_nil_iff.mp hrest)
    rw [redactChars, hlines, List.map_cons, List.intercalate_cons_cons, List.append_assoc]
    rfl

/-- In place, the first line keeps its end. -/
theorem redactInPlace_append (h : '\n' ∉ first) :
    redactInPlace (first ++ '\n' :: rest) = redactPiece first ++ '\n' :: redactInPlace rest := by
  have hne : rest.splitOn '\n' ≠ [] := List.splitOn_ne_nil '\n' rest
  rw [redactInPlace, List.splitOn_append_cons_self_of_not_mem h,
    List.dropLast_cons_of_ne_nil hne, List.map_cons, List.cons_append]
  have hlast : (first :: rest.splitOn '\n').getLastD [] = (rest.splitOn '\n').getLastD [] := by
    obtain ⟨piece, others, hcons⟩ := List.exists_cons_of_ne_nil hne
    rw [hcons]
    rfl
  rw [hlast, List.intercalate_cons_of_ne_nil (by simp), redactInPlace, List.append_assoc]
  rfl

/-- Joining lines does not make a text longer. -/
theorem length_redactChars_le (s : List Char) :
    (redactChars s).length ≤ (redactInPlace s).length := by
  induction s using line_induction with
  | last s h => rw [(redact_of_not_mem h).1, (redact_of_not_mem h).2]
  | line first rest h ih =>
    rw [redactChars_append h, redactInPlace_append h, redactPiece]
    split_ifs <;> simp <;> omega

/-- **Redaction replaces the sensitive lines in place exactly in tidy texts.** -/
theorem redactChars_eq_iff : redactChars s = redactInPlace s ↔ Tidy s := by
  induction s using line_induction with
  | last s h =>
    rw [(redact_of_not_mem h).1, (redact_of_not_mem h).2]
    exact iff_of_true rfl (tidy_of_not_mem h)
  | line first rest h ih =>
    rw [tidy_append_iff h, ← ih, redactChars_append h, redactInPlace_append h, redactPiece]
    have hlength := length_redactChars_le rest
    constructor
    · intro heq
      have hlengths := congrArg List.length heq
      by_cases hrest : rest = []
      · rw [if_pos hrest] at hlengths
        simp only [List.length_append, List.length_nil, List.length_cons] at hlengths
        omega
      · rw [if_neg hrest] at heq hlengths
        by_cases hreturn : first.getLast? = some '\r'
        · rw [if_pos hreturn] at hlengths
          simp only [List.length_append, List.length_nil, List.length_cons] at hlengths
          omega
        · rw [if_neg hreturn, List.append_nil, List.append_cancel_left_eq] at heq
          exact ⟨hreturn, hrest, (List.cons.inj heq).2⟩
    · rintro ⟨hreturn, hrest, heq⟩
      rw [if_neg hreturn, if_neg hrest, heq, List.append_nil]

/-- A line with its carriage return. -/
theorem stripCr_append (piece : List Char) :
    stripCr piece ++ (if piece.getLast? = some '\r' then ['\r'] else []) = piece := by
  unfold stripCr
  split_ifs with hlast
  · exact List.dropLast_append_getLast? '\r' (Option.mem_def.mpr hlast)
  · exact List.append_nil piece

/-- Without a sensitive line, nothing is replaced in place. -/
theorem redactInPlace_of_plain (h : ∀ line ∈ lines s, isSensitive line = false) :
    redactInPlace s = s := by
  have hline {line : List Char} (hplain : isSensitive line = false) : redactLine line = line := by
    rw [redactLine, hplain, if_neg Bool.false_ne_true]
  induction s using line_induction with
  | last s hfeed =>
    rw [(redact_of_not_mem hfeed).2]
    rw [lines_of_not_mem hfeed] at h
    split_ifs at h with hempty
    · rw [hempty, redactLine_nil]
    · exact hline (h s List.mem_cons_self)
  | line first rest hfirst ih =>
    rw [lines_cons hfirst, List.forall_mem_cons] at h
    rw [redactInPlace_append hfirst, redactPiece, hline h.1, stripCr_append, ih h.2]

/-! ## Reading a file -/

section Reading

variable {view : View} {rights : Rights} {program scope_path : String} {output_limit : ℕ}
  {text : String}

/-- A text file within the limits that a task asks for, without a sensitive line. -/
structure PlainFile (view : View) (rights : Rights) (program scope_path : String)
    (output_limit : ℕ) (text : String) : Prop where
  authorized : ∃ scope path, Scope.new (fileSystemOf view) scope_path = .ok scope ∧
    scope.authorize (fileSystemOf view) program .read = .ok path ∧
    readScopedFile view rights path = .ok (bytes text)
  fits : len text ≤ output_limit
  plain : ∀ line ∈ lines text.toList, isSensitive line = false

/-- What is reported of such a file is its redacted text. -/
theorem fileRead_plain (h : PlainFile view rights program scope_path output_limit text) :
    fileRead view rights program scope_path output_limit =
      .ok (truncateUtf8 (redactSensitive text) output_limit, 0) := by
  obtain ⟨scope, path, hscope, hpath, hread⟩ := h.authorized
  have hfits : (bytes text).length ≤ output_limit := h.fits
  rw [fileRead, hscope]
  show (scope.authorize (fileSystemOf view) program .read >>= _) = _
  rw [hpath]
  show (readScopedFile view rights path >>= _) = _
  rw [hread]
  show (ensure _ _ >>= _) = _
  rw [ensure, if_pos hfits, fromUtf8Lossy_bytes]
  rfl

/-- Such a file is reported as it is exactly when it is tidy. -/
theorem fileRead_eq_iff (h : PlainFile view rights program scope_path output_limit text) :
    fileRead view rights program scope_path output_limit = .ok (text, 0) ↔
      Tidy text.toList := by
  have hplace := redactInPlace_of_plain h.plain
  have hlength := length_redactChars_le text.toList
  rw [hplace] at hlength
  rw [fileRead_plain h, ← redactChars_eq_iff, hplace]
  constructor
  · intro heq
    have hkept : truncateUtf8 (redactSensitive text) output_limit = text :=
      (Prod.mk.inj (Except.ok.inj heq)).1
    obtain ⟨rest, hrest⟩ :=
      (ControlPlane.longestPrefix_truncateUtf8 (redactSensitive text) output_limit).boundary
    have hchars : redactChars text.toList = text.toList ++ rest.toList := by
      rw [hkept] at hrest
      rw [← String.toList_append, ← hrest, redactSensitive, String.toList_ofList]
    rw [hchars, List.length_append] at hlength
    have hempty : rest.toList = [] := List.eq_nil_of_length_eq_zero (by omega)
    rw [hchars, hempty, List.append_nil]
  · intro heq
    have htext : redactSensitive text = text := by
      rw [redactSensitive, heq, String.ofList_toList]
    rw [htext, truncateUtf8, if_pos h.fits]

/-- **Redaction leaves everything but the sensitive lines as it is exactly in tidy texts**, and then
a file without a sensitive line is reported with its content and its digest. -/
theorem redaction_in_place_iff [RingDigest] (text : String) :
    (redactSensitive text = String.ofList (redactInPlace text.toList) ↔ Tidy text.toList) ∧
      ∀ view rights program scope_path output_limit,
        PlainFile view rights program scope_path output_limit text →
          ((outcomeOf (fileRead view rights program scope_path output_limit)).output =
              text ∧
            sha256Hex (bytes (outcomeOf
              (fileRead view rights program scope_path output_limit)).output) =
              sha256Hex (bytes text) ↔ Tidy text.toList) := by
  constructor
  · rw [redactSensitive, String.ofList_inj, redactChars_eq_iff]
  · intro view rights program scope_path output_limit h
    have hiff := fileRead_eq_iff h
    have houtput (output : String) : (outcomeOf (.ok (output, 0))).output = output := rfl
    rw [fileRead_plain h] at hiff ⊢
    rw [houtput]
    have hdigest (output : String) : (output = text ∧
        sha256Hex (bytes output) = sha256Hex (bytes text)) ↔
        (Except.ok (output, (0 : ℤ)) : Except String (String × ℤ)) = .ok (text, 0) := by
      rw [Except.ok.injEq, Prod.mk.injEq, and_iff_left rfl]
      exact ⟨And.left, fun heq => ⟨heq, by rw [heq]⟩⟩
    exact (hdigest _).trans hiff

/-- A directory with two files in it. -/
def notesView : View where
  tree := ofEntries [(["srv"], .dir), (["srv", "notes"], .file (bytes "a=1\nb=2")),
    (["srv", "ends"], .file (bytes "a=1\n"))] (by decide +kernel)
  cwd := []
  cwd_dir := rfl
  links := 40

/-- The files are ones that a task may read. -/
theorem plainFile_notes :
    PlainFile notesView allRights "notes" "/srv" 64 "a=1\nb=2" ∧
      PlainFile notesView allRights "ends" "/srv" 64 "a=1\n" :=
  ⟨⟨⟨⟨"/srv"⟩, "/srv/notes", rfl, by decide +kernel, by decide +kernel⟩, by decide,
      by decide +kernel⟩,
    ⟨⟨⟨"/srv"⟩, "/srv/ends", rfl, by decide +kernel, by decide +kernel⟩, by decide,
      by decide +kernel⟩⟩

/-- A file of two lines without a line feed at the end is reported as it is. -/
theorem redaction_in_place_two :
    redactSensitive "a=1\nToken=x" = String.ofList (redactInPlace "a=1\nToken=x".toList) ∧
      (outcomeOf (fileRead notesView allRights "notes" "/srv" 64)).output = "a=1\nb=2" := by
  have htidy : ∀ text ∈ ["a=1\nToken=x", "a=1\nb=2"], Tidy text.toList := by
    intro text htext
    rw [← redactChars_eq_iff]
    revert text
    decide +kernel
  simp only [List.forall_mem_cons] at htidy
  exact ⟨(@redaction_in_place_iff ⟨sha256⟩ "a=1\nToken=x").1.mpr htidy.1,
    ((@redaction_in_place_iff ⟨sha256⟩ "a=1\nb=2").2 _ _ _ _ _
      plainFile_notes.1).mpr htidy.2.1 |>.1⟩

/-- Of other files the last line feed, or a carriage return, is lost. -/
theorem redaction_drops_ends :
    redactSensitive "a=1\n" = "a=1" ∧ String.ofList (redactInPlace "a=1\n".toList) = "a=1\n" ∧
      redactSensitive "a=1\r\nb=2" = "a=1\nb=2" ∧
      PlainFile notesView allRights "ends" "/srv" 64 "a=1\n" ∧
      (outcomeOf (fileRead notesView allRights "ends" "/srv" 64)).output = "a=1" :=
  ⟨by decide +kernel, by decide +kernel, by decide +kernel, plainFile_notes.2, by decide +kernel⟩

end Reading

end NodeWe.NodeRuntime
