import NodeWe.Text

/-!
# Splitting texts at separators

More of the splitting that the Rust standard library does, on texts as lists of characters: at a
separator of several characters (`str::split_once` and `str::split` with a string), and at white
space (`str::split_whitespace`). `lines_append_crlf` says how the lines of a text are those of its
parts, where a carriage return and a line feed stand between these.
-/

namespace NodeWe.Text

/-! ## A separator of several characters -/

/-- `str::split_once` with a string: the text before its first occurrence and the text after. -/
def splitOnceAt (pat : List Char) : List Char → Option (List Char × List Char)
  | [] => if pat = [] then some ([], []) else none
  | c :: cs =>
    if pat.isPrefixOf (c :: cs) then some ([], (c :: cs).drop pat.length)
    else (splitOnceAt pat cs).map fun (a, b) => (c :: a, b)

/-- The second piece of `str::split` with a string, where there is one. -/
def secondOfSplit (pat s : List Char) : Option (List Char) :=
  (splitOnceAt pat s).map fun (_, rest) => ((splitOnceAt pat rest).map Prod.fst).getD rest

variable {pat s a b : List Char}

/-- A separator that is found stands between the two parts. -/
theorem splitOnceAt_eq_some (h : splitOnceAt pat s = some (a, b)) : s = a ++ pat ++ b := by
  induction s generalizing a with
  | nil =>
    rw [splitOnceAt] at h
    split_ifs at h with hpat
    obtain ⟨rfl, rfl⟩ := Prod.mk.inj (Option.some.inj h)
    rw [hpat]
    rfl
  | cons c cs ih =>
    rw [splitOnceAt] at h
    split_ifs at h with hpat
    · obtain ⟨rfl, rfl⟩ := Prod.mk.inj (Option.some.inj h)
      obtain ⟨rest, hrest⟩ := List.isPrefixOf_iff_prefix.mp hpat
      rw [← hrest, List.drop_left, List.nil_append]
    · obtain ⟨⟨first, rest⟩, hfound, hparts⟩ := Option.map_eq_some_iff.mp h
      obtain ⟨rfl, rfl⟩ := Prod.mk.inj hparts
      rw [List.cons_append, List.cons_append, ← ih hfound]

/-- A separator that is there is found, at its first place. -/
theorem splitOnceAt_append (pat a b : List Char) :
    ∃ a' b', splitOnceAt pat (a ++ pat ++ b) = some (a', b') ∧ a'.length ≤ a.length := by
  induction a with
  | nil =>
    rw [List.nil_append]
    cases hs : pat ++ b with
    | nil => exact ⟨[], [], by rw [splitOnceAt, if_pos (List.append_eq_nil_iff.mp hs).1], le_rfl⟩
    | cons c cs =>
      have hpat : pat.isPrefixOf (c :: cs) = true := by
        rw [← hs, List.isPrefixOf_iff_prefix]
        exact List.prefix_append pat b
      exact ⟨[], _, by rw [splitOnceAt, if_pos hpat], le_rfl⟩
  | cons c cs ih =>
    obtain ⟨a', b', hfound, hlength⟩ := ih
    rw [List.cons_append, List.cons_append, splitOnceAt]
    by_cases hpat : pat.isPrefixOf (c :: (cs ++ pat ++ b)) = true
    · exact ⟨[], _, if_pos hpat, Nat.zero_le _⟩
    · refine ⟨c :: a', b', ?_, Nat.succ_le_succ hlength⟩
      rw [if_neg hpat, hfound]
      rfl

/-- A separator is found when it is there. -/
theorem splitOnceAt_eq_none_iff : splitOnceAt pat s = none ↔ ¬pat <:+: s := by
  constructor
  · rintro h ⟨a, b, rfl⟩
    obtain ⟨a', b', hfound, -⟩ := splitOnceAt_append pat a b
    rw [h] at hfound
    cases hfound
  · intro h
    rw [Option.eq_none_iff_forall_ne_some]
    rintro ⟨a, b⟩ hfound
    exact h ⟨a, b, (splitOnceAt_eq_some hfound).symm⟩

/-- A piece is the whole rest of the text when the separator does not come again. -/
theorem secondOfSplit_eq_iff (hpat : pat ≠ []) (h : splitOnceAt pat s = some (a, b)) :
    secondOfSplit pat s = some b ↔ ¬pat <:+: b := by
  have hpiece : secondOfSplit pat s = some (((splitOnceAt pat b).map Prod.fst).getD b) := by
    rw [secondOfSplit, h]
    rfl
  rw [hpiece, Option.some.injEq, ← splitOnceAt_eq_none_iff]
  cases hagain : splitOnceAt pat b with
  | none => exact iff_of_true rfl rfl
  | some parts =>
    obtain ⟨first, rest⟩ := parts
    have hlength := congrArg List.length (splitOnceAt_eq_some hagain)
    have hpos := List.length_pos_iff.mpr hpat
    rw [List.length_append, List.length_append] at hlength
    refine iff_of_false ?_ (by simp)
    intro heq
    obtain rfl : first = b := heq
    omega

/-! ## White space -/

/-- `str::split_whitespace`. -/
def splitWhitespace (s : List Char) : List (List Char) :=
  (s.splitOnP isWhitespace).filter (· ≠ [])

/-- The first piece ends with the first white space. -/
theorem splitWhitespace_cons {word : List Char} {c : Char} (hne : word ≠ [])
    (hword : ∀ d ∈ word, isWhitespace d = false) (hc : isWhitespace c = true) (rest : List Char) :
    splitWhitespace (word ++ c :: rest) = word :: splitWhitespace rest := by
  have hfirst : (word ++ c :: rest).splitOnP isWhitespace =
      word :: rest.splitOnP isWhitespace :=
    List.splitOnP_append_cons_of_forall_mem hword c hc rest
  rw [splitWhitespace, hfirst, List.filter_cons, if_pos (by simpa using hne)]
  rfl

/-- A text without white space is left as it is. -/
theorem trimChars_of_forall (h : ∀ c ∈ s, isWhitespace c = false) : trimChars s = s := by
  have hkept {t : List Char} (ht : ∀ c ∈ t, isWhitespace c = false) :
      t.dropWhile isWhitespace = t := by
    cases t with
    | nil => rfl
    | cons c t => rw [List.dropWhile_cons, ht c List.mem_cons_self, if_neg Bool.false_ne_true]
  have hreverse : ∀ c ∈ s.reverse, isWhitespace c = false := fun c hc =>
    h c (List.mem_reverse.mp hc)
  rw [trimChars, hkept h, hkept hreverse, List.reverse_reverse]

/-- A character that is no white space is not trimmed away. -/
theorem mem_trimChars_iff {c : Char} (h : isWhitespace c = false) : c ∈ trimChars s ↔ c ∈ s := by
  have hdrop {t : List Char} : c ∈ t.dropWhile isWhitespace ↔ c ∈ t := by
    refine ⟨fun hmem => (List.dropWhile_sublist _).subset hmem, fun hmem => ?_⟩
    rw [← List.takeWhile_append_dropWhile (p := isWhitespace) (l := t)] at hmem
    refine (List.mem_append.mp hmem).resolve_left fun htake => ?_
    rw [List.mem_takeWhile_imp htake] at h
    cases h
  rw [trimChars, List.mem_reverse, hdrop, List.mem_reverse, hdrop]

/-! ## Joined texts -/

/-- The characters of a joined text are those of its pieces and the separator. -/
theorem mem_intercalate {sep c : Char} {pieces : List (List Char)}
    (h : c ∈ [sep].intercalate pieces) : c = sep ∨ ∃ piece ∈ pieces, c ∈ piece := by
  induction pieces with
  | nil => exact absurd h List.not_mem_nil
  | cons piece rest ih =>
    cases rest with
    | nil =>
      rw [List.intercalate_singleton] at h
      exact .inr ⟨piece, List.mem_singleton_self piece, h⟩
    | cons next rest =>
      rw [List.intercalate_cons_cons, List.mem_append, List.mem_append] at h
      rcases h with (h | h) | h
      · exact .inr ⟨piece, List.mem_cons_self, h⟩
      · exact .inl (List.mem_singleton.mp h)
      · rcases ih h with rfl | ⟨piece', hpiece', hc⟩
        · exact .inl rfl
        · exact .inr ⟨piece', List.mem_cons_of_mem piece hpiece', hc⟩

/-- A piece is part of the joined text. -/
theorem sublist_intercalate {sep : Char} {piece : List Char} {pieces : List (List Char)}
    (h : piece ∈ pieces) : List.Sublist piece ([sep].intercalate pieces) := by
  induction pieces with
  | nil => exact absurd h List.not_mem_nil
  | cons first rest ih =>
    cases rest with
    | nil =>
      rw [List.mem_singleton.mp h, List.intercalate_singleton]
    | cons next rest =>
      rw [List.intercalate_cons_cons, List.append_assoc]
      rcases List.mem_cons.mp h with rfl | h
      · exact List.sublist_append_left _ _
      · exact ((ih h).trans (List.sublist_append_right _ _)).trans
          (List.sublist_append_right _ _)

/-- A piece of a split text is part of the text. -/
theorem sublist_of_mem_splitOn {sep : Char} {piece : List Char}
    (h : piece ∈ s.splitOn sep) : List.Sublist piece s := by
  have hpiece : List.Sublist piece ([sep].intercalate (s.splitOn sep)) := sublist_intercalate h
  rwa [List.intercalate_splitOn] at hpiece

/-! ## Lines -/

/-- A text is taken line by line: what has no line feed, or a line in front of a text. -/
theorem line_induction {P : List Char → Prop} (last : ∀ s, '\n' ∉ s → P s)
    (line : ∀ first rest, '\n' ∉ first → P rest → P (first ++ '\n' :: rest)) (s : List Char) :
    P s := by
  induction hn : s.length using Nat.strong_induction_on generalizing s with
  | _ n ih =>
    by_cases hfeed : '\n' ∈ s
    · obtain ⟨first, rest, rfl, hfirst⟩ := List.eq_append_cons_of_mem hfeed
      have hshorter : rest.length < n := by
        rw [← hn, List.length_append, List.length_cons]
        omega
      exact line first rest hfirst (ih rest.length hshorter rest rfl)
    · exact last s hfeed

/-- A line is what stands in it, less a carriage return at its end. -/
theorem stripCr_sublist (line : List Char) : List.Sublist (stripCr line) line := by
  unfold stripCr
  split_ifs
  · exact List.dropLast_sublist line
  · exact List.Sublist.refl line

/-- A text without line feeds is one line, unless it is empty. -/
theorem lines_of_not_mem (h : '\n' ∉ s) : lines s = if s = [] then [] else [s] := by
  rw [lines, List.splitOn_eq_singleton h]
  simp

/-- The lines of a text in front of a line feed are the pieces between its line feeds. -/
theorem lines_append_feed (s rest : List Char) :
    lines (s ++ '\n' :: rest) = (s.splitOn '\n').map stripCr ++ lines rest := by
  have hrest : rest.splitOn '\n' ≠ [] := List.splitOn_ne_nil '\n' rest
  have hpieces : (s ++ '\n' :: rest).splitOn '\n' = s.splitOn '\n' ++ rest.splitOn '\n' :=
    List.splitOn_append_cons_self s rest
  obtain ⟨last, hlast⟩ := Option.ne_none_iff_exists'.mp (mt List.getLast?_eq_none_iff.mp hrest)
  unfold lines
  rw [hpieces]
  simp [hrest, hlast, List.dropLast_append_of_ne_nil]

/-- The lines of a text in front of a line end, behind which more comes: there may be an empty line
more than the text has by itself. -/
theorem lines_append_crlf (s rest : List Char) :
    ∃ blank, (blank = [] ∨ blank = [[]]) ∧
      lines (s ++ '\r' :: '\n' :: rest) = lines s ++ blank ++ lines rest := by
  induction s using line_induction with
  | last s hfeed =>
    have hlast : '\n' ∉ s ++ ['\r'] := by
      rw [List.mem_append, not_or]
      exact ⟨hfeed, by decide⟩
    have hline : lines (s ++ '\r' :: '\n' :: rest) = s :: lines rest := by
      have hsplit : s ++ '\r' :: '\n' :: rest = (s ++ ['\r']) ++ '\n' :: rest := by
        rw [List.append_assoc]
        rfl
      rw [hsplit, lines_cons hlast, stripCr, if_pos (by simp), List.dropLast_concat]
    rw [hline, lines_of_not_mem hfeed]
    split_ifs with hempty
    · exact ⟨[[]], .inr rfl, by rw [hempty]; rfl⟩
    · exact ⟨[], .inl rfl, rfl⟩
  | line first others hfirst ih =>
    obtain ⟨blank, hblank, hlines⟩ := ih
    refine ⟨blank, hblank, ?_⟩
    rw [List.append_assoc, List.cons_append, lines_cons hfirst, hlines, lines_cons hfirst]
    rfl

end NodeWe.Text
