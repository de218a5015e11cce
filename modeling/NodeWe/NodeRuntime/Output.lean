import NodeWe.Wire
import NodeWe.NodeRuntime.Execute
import NodeWe.NodeRuntime.Redaction

/-!
# The output of a child

`execute` reads the pipes of its child up to a number of bytes each, reads the bytes as texts, and
redacts and cuts what the two texts make together. `outputText` is what comes of the two streams,
however they arrive. The first cut goes between bytes, so it can leave a character that breaks off;
`BreaksAtThree` is where this is seen in the result.
-/

namespace NodeWe.NodeRuntime

open Text UnixPath Utf8 Wire
open ControlPlane (truncateUtf8 truncateChars LongestPrefix)

/-! ## Reading the pipes -/

/-- The loop of `read_pipe_bounded`, over what the reads return until there is no more: the bytes
that are kept so far, and whether some were left out. -/
def readPipe (limit : ℕ) : List UInt8 × Bool → List (List UInt8) → List UInt8 × Bool
  | (output, truncated), [] => (output, truncated)
  | (output, truncated), read :: rest =>
    if output.length < limit then
      let keep := min (limit - output.length) read.length
      readPipe limit (output ++ read.take keep, truncated || decide (keep < read.length)) rest
    else readPipe limit (output, true) rest

/-- `read_pipe_bounded`, over what each read returns. An empty read is the end, and so is a reader
that answers no more. The result has the reads that are left. -/
def readPipeBounded (limit : ℕ) : List UInt8 × Bool → List (Except String (List UInt8)) →
    Except String ((List UInt8 × Bool) × List (Except String (List UInt8)))
  | (output, truncated), [] => .ok ((output, truncated), [])
  | _, .error error :: _ => .error error
  | (output, truncated), .ok read :: rest =>
    if read.length = 0 then .ok ((output, truncated), rest)
    else if output.length < limit then
      let keep := min (limit - output.length) read.length
      readPipeBounded limit
        (output ++ read.take keep, if keep < read.length then true else truncated) rest
    else readPipeBounded limit (output, true) rest

/-- What a child leaves that ends: its exit code, unless a signal ended it, and what the reads of
its pipes return. -/
structure ChildOutput where
  code : Option ℤ
  stdout : List (List UInt8)
  stderr : List (List UInt8)

/-- The text of `execute`. -/
def outputText (output_limit : ℕ) (child : ChildOutput) : String :=
  truncateUtf8 (redactSensitive
    (fromUtf8Lossy (readPipe output_limit ([], false) child.stdout).1 ++
      fromUtf8Lossy (readPipe output_limit ([], false) child.stderr).1)) output_limit

/-- `execute`. What becomes of the child is outside: an error of it or of its pipes, the timeout, or
its output. -/
def execute (fs : FileSystem) (run : Spawn → ℕ → Except String ChildOutput)
    (command : List String) (scope_path : String) (timeout_ms output_limit : ℕ) :
    Except String (String × ℤ) := do
  let spawn ← executeStart fs command scope_path
  let child ← run spawn timeout_ms
  .ok (outputText output_limit child, child.code.getD 1)

/-- What is kept of a stream: its first bytes, and whether there are more. -/
def keptOf (limit : ℕ) (stream : List UInt8) : List UInt8 × Bool :=
  (stream.take limit, decide (limit < stream.length))

/-- One read that is not empty takes what is kept of the bytes before it to what is kept of the
bytes with it. -/
theorem readPipe_step (limit : ℕ) (seen : List UInt8) {read : List UInt8} (hread : read ≠ [])
    (rest : List (List UInt8)) :
    readPipe limit (keptOf limit seen) (read :: rest) =
      readPipe limit (keptOf limit (seen ++ read)) rest := by
  have hpos := List.length_pos_iff.mpr hread
  rw [keptOf, readPipe]
  split_ifs with hroom
  · -- All that was seen is kept, and there is room for some of the read.
    rw [List.length_take] at hroom
    have hseen : seen.take limit = seen := List.take_of_length_le (by omega)
    have htake : read.take (min (limit - seen.length) read.length) =
        read.take (limit - seen.length) := by
      rw [List.take_eq_take_iff]
      omega
    have hmore : (decide (limit < seen.length) ||
          decide (min (limit - seen.length) read.length < read.length)) =
        decide (limit < (seen ++ read).length) := by
      rw [← Bool.decide_or, decide_eq_decide, List.length_append]
      omega
    dsimp only
    rw [hseen, htake, hmore, keptOf, List.take_append, hseen]
  · -- The limit was reached before, and the read is left out.
    rw [List.length_take, not_lt] at hroom
    have hkept : keptOf limit (seen ++ read) = (seen.take limit, true) := by
      rw [keptOf, List.take_append_of_le_length (by omega), Prod.mk.injEq, decide_eq_true_eq,
        List.length_append]
      exact ⟨rfl, by omega⟩
    rw [hkept]

/-- What is kept of a stream does not depend on how it was read. -/
theorem readPipe_keptOf (limit : ℕ) (seen : List UInt8) {reads : List (List UInt8)}
    (hreads : ∀ read ∈ reads, read ≠ []) :
    readPipe limit (keptOf limit seen) reads = keptOf limit (seen ++ reads.flatten) := by
  induction reads generalizing seen with
  | nil => rw [List.flatten_nil, List.append_nil, keptOf, readPipe]
  | cons read rest ih =>
    obtain ⟨hread, hrest⟩ := List.forall_mem_cons.mp hreads
    rw [readPipe_step limit seen hread, ih _ hrest, List.flatten_cons, List.append_assoc]

/-- So the pipes are read up to the limit, however their streams arrive. -/
theorem readPipe_pieces {limit buffer : ℕ} {stream : List UInt8} {pieces : List (List UInt8)}
    (h : PiecesOf buffer stream pieces) :
    readPipe limit ([], false) pieces = keptOf limit stream := by
  have hpieces : ∀ piece ∈ pieces, piece ≠ [] := fun piece hpiece => (h.sized piece hpiece).1
  have hstart : (([], false) : List UInt8 × Bool) = keptOf limit [] := by
    rw [keptOf, List.take_nil]
    rfl
  rw [hstart, readPipe_keptOf limit [] hpieces, List.nil_append, h.whole]

/-- A flag that is set where bytes are left out. -/
theorem setFlag_eq (truncated : Bool) (keep length : ℕ) :
    (if keep < length then true else truncated) = (truncated || decide (keep < length)) := by
  by_cases h : keep < length
  · rw [if_pos h, decide_eq_true h, Bool.or_true]
  · rw [if_neg h, decide_eq_false h, Bool.or_false]

/-- `read_pipe_bounded` runs its loop up to the end of the stream. -/
theorem readPipeBounded_reads (limit : ℕ) (state : List UInt8 × Bool) {reads : List (List UInt8)}
    (hreads : ∀ read ∈ reads, read ≠ []) (rest : List (Except String (List UInt8))) :
    readPipeBounded limit state (reads.map .ok ++ .ok [] :: rest) =
      .ok (readPipe limit state reads, rest) := by
  induction reads generalizing state with
  | nil => rfl
  | cons read reads ih =>
    obtain ⟨hread, hreads⟩ := List.forall_mem_cons.mp hreads
    obtain ⟨output, truncated⟩ := state
    have hlength : read.length ≠ 0 := fun h => hread (List.length_eq_zero_iff.mp h)
    rw [List.map_cons, List.cons_append, readPipeBounded, if_neg hlength, readPipe]
    split_ifs
    · dsimp only
      rw [ih _ hreads, setFlag_eq]
    · exact ih _ hreads

/-- The text of a child whose streams are known. -/
theorem outputText_eq {limit buffer : ℕ} {child : ChildOutput} {stdout stderr : List UInt8}
    (hstdout : PiecesOf buffer stdout child.stdout)
    (hstderr : PiecesOf buffer stderr child.stderr) :
    outputText limit child = truncateUtf8 (redactSensitive
      (fromUtf8Lossy (stdout.take limit) ++ fromUtf8Lossy (stderr.take limit))) limit := by
  rw [outputText, readPipe_pieces hstdout, readPipe_pieces hstderr, keptOf, keptOf]

/-! ## Sensitive parts -/

/-- A pattern that is in a part of a text is in the text. -/
theorem contains_iff {s pat : List Char} : contains s pat = true ↔ pat <:+: s := by
  rw [contains, Option.isSome_iff_ne_none, ne_eq, splitOnceAt_eq_none_iff, not_not]

/-- What a sensitive line is part of is sensitive. -/
theorem isSensitive_of_part {s t : List Char} (h : s <:+: t) (hs : isSensitive s = true) :
    isSensitive t = true := by
  obtain ⟨marker, hmarker, hs⟩ := List.any_eq_true.mp hs
  refine List.any_eq_true.mpr ⟨marker, hmarker, ?_⟩
  rw [contains_iff] at hs ⊢
  exact hs.trans (h.map Char.toUpper)

/-- A character that no marker has makes no line sensitive. -/
theorem isSensitive_concat {s : List Char} {c : Char}
    (hc : ∀ marker ∈ markers, c.toUpper ∉ marker.toList) (h : isSensitive (s ++ [c]) = true) :
    isSensitive s = true := by
  obtain ⟨marker, hmarker, hs⟩ := List.any_eq_true.mp h
  refine List.any_eq_true.mpr ⟨marker, hmarker, ?_⟩
  rw [contains_iff, List.map_append] at hs
  rw [contains_iff]
  have hplain : ∀ marker ∈ markers, marker.toList ≠ [] := by decide
  have hne := hplain marker hmarker
  have hmem := hc marker hmarker
  rcases List.infix_concat_iff.mp hs with hsuffix | hwithin
  · rcases List.suffix_concat_iff.mp hsuffix with hnil | ⟨front, hfront, -⟩
    · exact absurd hnil hne
    · rw [hfront] at hmem
      exact absurd (List.mem_append_right front List.mem_cons_self) hmem
  · exact hwithin

/-! ## Whole characters -/

/-- Characters for which there is room are kept. -/
theorem truncateChars_append {room : ℕ} {front : List Char}
    (h : (front.map Char.utf8Size).sum ≤ room) (cs : List Char) :
    truncateChars room (front ++ cs) =
      front ++ truncateChars (room - (front.map Char.utf8Size).sum) cs := by
  induction front generalizing room with
  | nil => rfl
  | cons c front ih =>
    rw [List.map_cons, List.sum_cons] at h ⊢
    rw [List.cons_append, truncateChars, if_pos (by omega), ih (by omega), Nat.sub_sub,
      List.cons_append]

/-- The characters in front of one for which there is no room are kept. -/
theorem truncateChars_of_break {room k : ℕ} {front : List Char} {d : Char}
    (h : (front.map Char.utf8Size).sum + k = room) (hk : k < d.utf8Size) (rest : List Char) :
    truncateChars room (front ++ d :: rest) = front := by
  have hroom : room - (front.map Char.utf8Size).sum = k := by omega
  rw [truncateChars_append (by omega), hroom, truncateChars, if_neg (by omega), List.append_nil]

/-- So they are what `truncate_utf8` keeps of the text. -/
theorem truncateUtf8_of_break {room k : ℕ} {front rest : List Char} {d : Char} {s : String}
    (hs : s.toList = front ++ d :: rest) (h : (front.map Char.utf8Size).sum + k = room)
    (hk : k < d.utf8Size) : truncateUtf8 s room = String.ofList front := by
  have hlong : ¬len s ≤ room := by
    rw [← String.ofList_toList (s := s), len_ofList, hs, List.map_append, List.sum_append,
      List.map_cons, List.sum_cons]
    omega
  rw [truncateUtf8, if_neg hlong, hs, truncateChars_of_break h hk]

/-- A child that prints one plain line, and nothing on its other stream. -/
structure PlainOutput (child : ChildOutput) (printed : String) : Prop where
  stdout : PiecesOf 8192 (bytes printed) child.stdout
  stderr : child.stderr = []
  no_return : '\r' ∉ printed.toList
  no_feed : '\n' ∉ printed.toList
  plain : isSensitive printed.toList = false

/-- The limit leaves three bytes of a character of four. -/
def BreaksAtThree (printed : String) (limit : ℕ) : Prop :=
  ∃ front d rest, printed.toList = front ++ d :: rest ∧ d.utf8Size = 4 ∧
    (front.map Char.utf8Size).sum + 3 = limit

/-- Where the limit leaves some bytes of a character, it is seen how many. -/
theorem breaksAtThree_iff {printed : String} {limit k : ℕ} {front rest : List Char} {d : Char}
    (hprinted : printed.toList = front ++ d :: rest) (hk : k < d.utf8Size)
    (hsum : (front.map Char.utf8Size).sum + k = limit) : BreaksAtThree printed limit ↔ k = 3 := by
  have hsize : d.utf8Size ≤ 4 := d.utf8Size_le_four
  constructor
  · rintro ⟨front', d', rest', hprinted', hsize', hsum'⟩
    have hthree : 3 < d'.utf8Size := by omega
    have hsame := truncateChars_of_break hsum' hthree rest'
    rw [← hprinted', hprinted, truncateChars_of_break hsum hk] at hsame
    subst hsame
    omega
  · intro hthree
    exact ⟨front, d, rest, hprinted, by omega, by omega⟩

/-- **The output of a plain child is cut between characters exactly when the limit does not leave
three bytes of a character of four.** -/
theorem longestPrefix_outputText_iff {child : ChildOutput} {printed : String} {limit : ℕ}
    (h : PlainOutput child printed) :
    LongestPrefix printed limit (outputText limit child) ↔ ¬BreaksAtThree printed limit := by
  have hstderr : PiecesOf 8192 ([] : List UInt8) child.stderr := by
    rw [h.stderr]
    exact ⟨rfl, List.forall_mem_nil _⟩
  have hempty : fromUtf8Lossy ([].take limit) = "" := by
    rw [List.take_nil]
    rfl
  rw [outputText_eq h.stdout hstderr, hempty, String.append_empty]
  -- A text that begins as what is printed is not redacted, with or without a replacement character.
  have hredact {front : List Char} (hfront : front <+: printed.toList) (tail : List Char)
      (htail : tail = [] ∨ tail = ['\uFFFD']) : redactChars (front ++ tail) = front ++ tail := by
    have hfeed : '\n' ∉ front ++ tail := by
      rw [List.mem_append, not_or]
      refine ⟨fun hmem => h.no_feed (hfront.subset hmem), ?_⟩
      rcases htail with rfl | rfl <;> decide
    have hplain : ¬isSensitive (front ++ tail) = true := by
      intro hs
      have hsensitive : isSensitive front = true := by
        rcases htail with rfl | rfl
        · rwa [List.append_nil] at hs
        · exact isSensitive_concat (by decide) hs
      have hprinted := isSensitive_of_part hfront.isInfix hsensitive
      rw [h.plain] at hprinted
      cases hprinted
    rw [(redact_of_not_mem hfeed).1, redactLine, if_neg hplain]
  rcases fromUtf8Lossy_take printed limit with ⟨hfits, hread⟩ |
    ⟨front, d, rest, k, hprinted, hk, hsum, hread⟩
  · have hkept : redactSensitive printed = printed := by
      have hchars := hredact List.prefix_rfl [] (.inl rfl)
      rw [List.append_nil] at hchars
      rw [redactSensitive, hchars, String.ofList_toList]
    rw [hread, hkept]
    refine iff_of_true (ControlPlane.longestPrefix_truncateUtf8 printed limit) ?_
    rintro ⟨front, d, rest, hprinted, hsize, hsum⟩
    rw [← String.ofList_toList (s := printed), len_ofList, hprinted, List.map_append,
      List.sum_append, List.map_cons, List.sum_cons] at hfits
    omega
  · have hfront : front <+: printed.toList := hprinted ▸ List.prefix_append front (d :: rest)
    have hlongest := ControlPlane.longestPrefix_truncateUtf8 printed limit
    rw [truncateUtf8_of_break hprinted hsum hk] at hlongest
    have hkept (tail : List Char) (htail : tail = [] ∨ tail = ['\uFFFD'])
        (hlossy : (fromUtf8Lossy ((bytes printed).take limit)).toList = front ++ tail) :
        redactSensitive (fromUtf8Lossy ((bytes printed).take limit)) =
          String.ofList (front ++ tail) := by
      rw [redactSensitive, hlossy, hredact hfront tail htail]
    have hreplacement : '\uFFFD'.utf8Size = 3 := by decide
    rw [breaksAtThree_iff hprinted hk hsum]
    by_cases hzero : k = 0
    · rw [if_pos hzero] at hread
      have hfits : len (String.ofList (front ++ [])) ≤ limit := by
        rw [len_ofList, List.append_nil]
        omega
      rw [hkept [] (.inl rfl) hread, truncateUtf8, if_pos hfits, List.append_nil]
      exact iff_of_true hlongest (by omega)
    · rw [if_neg hzero] at hread
      rw [hkept ['\uFFFD'] (.inr rfl) hread]
      by_cases hthree : k = 3
      · -- Three bytes are room for the replacement character.
        have hfits : len (String.ofList (front ++ ['\uFFFD'])) ≤ limit := by
          rw [len_ofList, List.map_append, List.sum_append, List.map_singleton,
            List.sum_singleton]
          omega
        rw [truncateUtf8, if_pos hfits]
        refine iff_of_false ?_ (not_not.mpr hthree)
        intro hprefix
        obtain ⟨more, hmore⟩ := hprefix.boundary
        rw [← String.toList_inj, String.toList_append, String.toList_ofList, hprinted,
          List.append_assoc, List.append_cancel_left_eq] at hmore
        obtain ⟨rfl, -⟩ := List.cons.inj hmore
        omega
      · have hsize : d.utf8Size ≤ 4 := d.utf8Size_le_four
        have hshort : k < '\uFFFD'.utf8Size := by omega
        rw [truncateUtf8_of_break String.toList_ofList hsum hshort]
        exact iff_of_true hlongest hthree

/-- What `execute` returns of a child that it starts. -/
theorem execute_eq {fs : FileSystem} {run : Spawn → ℕ → Except String ChildOutput}
    {command : List String} {scope_path : String} {timeout_ms output_limit : ℕ} {spawn : Spawn}
    {child : ChildOutput} (hstart : executeStart fs command scope_path = .ok spawn)
    (hrun : run spawn timeout_ms = .ok child) :
    execute fs run command scope_path timeout_ms output_limit =
      .ok (outputText output_limit child, child.code.getD 1) := by
  rw [execute, hstart]
  show (run spawn timeout_ms >>= _) = _
  rw [hrun]
  rfl

/-- **`execute` cuts the output of a plain child between characters exactly when the limit does not
leave three bytes of a character of four.** -/
theorem execute_whole_characters_iff {fs : FileSystem}
    {run : Spawn → ℕ → Except String ChildOutput} {command : List String} {scope_path : String}
    {timeout_ms output_limit : ℕ} {spawn : Spawn} {child : ChildOutput} {printed : String}
    (hstart : executeStart fs command scope_path = .ok spawn)
    (hrun : run spawn timeout_ms = .ok child) (h : PlainOutput child printed) :
    (∃ output code,
        execute fs run command scope_path timeout_ms output_limit = .ok (output, code) ∧
          LongestPrefix printed output_limit output) ↔ ¬BreaksAtThree printed output_limit := by
  rw [← longestPrefix_outputText_iff h, execute_eq hstart hrun]
  constructor
  · rintro ⟨output, code, heq, hprefix⟩
    rwa [(Prod.mk.inj (Except.ok.inj heq)).1]
  · intro hprefix
    exact ⟨_, _, rfl, hprefix⟩

section Example

/-- A file system with a directory and a program. -/
def printFs : FileSystem where
  isDir := fun path => path = "/srv"
  isFile := fun path => path = "/usr/bin/printf"
  pathExists := fun _ => true
  canonicalize := fun path => some (if path = "/srv/." then "/srv" else path)
  symlinkMetadata := fun _ => some false

/-- A child that prints a letter and a character of four bytes, in two writes. -/
def clefChild : ChildOutput := ⟨some 0, [[0x61, 0xF0], [0x9D, 0x84, 0x9E]], []⟩

/-- The child is started. -/
theorem printf_starts :
    executeStart printFs ["printf", "a𝄞"] "/srv" = .ok ⟨"/usr/bin/printf", ["a𝄞"], "/srv"⟩ := by
  rfl

/-- Its output is one plain line. -/
theorem plainOutput_clef : PlainOutput clefChild "a𝄞" := by
  refine ⟨⟨?_, ?_⟩, rfl, ?_, ?_, ?_⟩ <;> decide +kernel

/-- Under a limit of two bytes the letter is returned. -/
theorem whole_characters_clef : ∃ output code,
    execute printFs (fun _ _ => .ok clefChild) ["printf", "a𝄞"] "/srv" 1000 2 = .ok (output, code) ∧
      LongestPrefix "a𝄞" 2 output := by
  have hchars : "a𝄞".toList = ['a'] ++ '𝄞' :: [] := rfl
  have hbreak : BreaksAtThree "a𝄞" 2 ↔ 1 = 3 := breaksAtThree_iff hchars (by decide) (by decide)
  exact (execute_whole_characters_iff printf_starts rfl plainOutput_clef).mpr
    (hbreak.not.mpr (by decide))

/-- Under a limit of four bytes a replacement character is returned. -/
theorem replacement_clef :
    execute printFs (fun _ _ => .ok clefChild) ["printf", "a𝄞"] "/srv" 1000 4 =
        .ok ("a\uFFFD", 0) ∧
      PlainOutput clefChild "a𝄞" ∧ ¬LongestPrefix "a𝄞" 4 "a\uFFFD" := by
  have htext : outputText 4 clefChild = "a\uFFFD" := by
    decide +kernel
  refine ⟨?_, plainOutput_clef, fun hprefix => ?_⟩
  · rw [execute_eq printf_starts rfl, htext]
    rfl
  · obtain ⟨rest, hrest⟩ := hprefix.boundary
    have hchars : "a𝄞".toList = 'a' :: '\uFFFD' :: rest.toList := by
      rw [hrest, String.toList_append]
      rfl
    obtain ⟨hclef, -⟩ := List.cons.inj (List.tail_eq_of_cons_eq hchars)
    exact absurd hclef (by decide)

end Example

end NodeWe.NodeRuntime
