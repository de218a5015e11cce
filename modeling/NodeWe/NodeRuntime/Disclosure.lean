import Mathlib.Data.List.DropRight
import NodeWe.NodeRuntime.Output

/-!
# What redaction leaves

`execute` cuts the streams of its child first and redacts the lines of what is left, so a sensitive
line whose marker is cut off is a line like others. What is returned has no part of the sensitive
lines of the complete output when the cuts are clean (`CutsClean`): none of them is in a sensitive
line in front of the end of its marker, and what a cut joins or adds is no part of a sensitive line.
-/

namespace NodeWe.NodeRuntime

open Text UnixPath Utf8 Wire
open ControlPlane (truncateUtf8 truncateChars)

/-! ## Lines at a cut -/

/-- What a line has in front of a cut. -/
def lineFront (front : List Char) : List Char := front.rtakeWhile (· != '\n')

/-- What it has behind the cut. -/
def lineBack (back : List Char) : List Char := back.takeWhile (· != '\n')

/-- The line at a cut, with the carriage return of its end. -/
def lineAt (front back : List Char) : List Char := lineFront front ++ lineBack back

variable {s t front back : List Char}

/-- A part of a line has no line feed. -/
theorem feed_not_mem_lineBack (back : List Char) : '\n' ∉ lineBack back := fun h =>
  absurd (List.mem_takeWhile_imp h) (by decide)

/-- A part of a line has no line feed. -/
theorem feed_not_mem_lineFront (front : List Char) : '\n' ∉ lineFront front := fun h =>
  absurd (List.mem_rtakeWhile_imp h) (by decide)

/-- Without a line feed, the line goes on behind the text. -/
theorem lineBack_append (h : '\n' ∉ s) (t : List Char) : lineBack (s ++ t) = s ++ lineBack t := by
  refine List.takeWhile_append_of_pos fun c hc => ?_
  rw [bne_iff_ne]
  rintro rfl
  exact h hc

/-- It ends at the first line feed. -/
theorem lineBack_feed (h : '\n' ∉ s) (t : List Char) : lineBack (s ++ '\n' :: t) = s := by
  rw [lineBack_append h, lineBack, List.takeWhile_cons_of_neg (by decide), List.append_nil]

/-- Without a line feed, the line begins in front of the text. -/
theorem lineFront_append (s : List Char) (h : '\n' ∉ t) :
    lineFront (s ++ t) = lineFront s ++ t := by
  have hback := lineBack_append (fun hmem => h (List.mem_reverse.mp hmem)) s.reverse
  rw [← List.reverse_append] at hback
  have hreverse : (t.reverse ++ lineBack s.reverse).reverse = lineFront s ++ t := by
    rw [List.reverse_append, List.reverse_reverse]
    rfl
  exact (congrArg List.reverse hback).trans hreverse

/-- A text without a line feed is one line. -/
theorem lineBack_of_not_mem (h : '\n' ∉ back) : lineBack back = back := by
  have hback := lineBack_append h []
  rw [List.append_nil] at hback
  exact hback.trans (List.append_nil back)

/-- A text is one line, or has a first one. -/
theorem lineBack_cases (back : List Char) :
    '\n' ∉ back ∧ lineBack back = back ∨ ∃ rest, back = lineBack back ++ '\n' :: rest := by
  by_cases hfeed : '\n' ∈ back
  · obtain ⟨first, rest, rfl, hfirst⟩ := List.eq_append_cons_of_mem hfeed
    exact .inr ⟨rest, by rw [lineBack_feed hfirst]⟩
  · exact .inl ⟨hfeed, lineBack_of_not_mem hfeed⟩

/-- A text whose first line is empty begins with a line feed, if it has one. -/
theorem head?_of_lineBack (h : lineBack back = []) (hfeed : '\n' ∈ back) :
    back.head? = some '\n' := by
  rcases lineBack_cases back with ⟨hnone, -⟩ | ⟨rest, hrest⟩
  · exact absurd hfeed hnone
  · rw [hrest, h]
    rfl

/-- The line at the end of a text begins behind the last line feed. -/
theorem lineFront_feed (s t : List Char) : lineFront (s ++ '\n' :: t) = lineFront t := by
  have hreverse : (s ++ '\n' :: t).reverse = t.reverse ++ '\n' :: s.reverse := by simp
  have hback : lineBack (t.reverse ++ '\n' :: s.reverse) = lineBack t.reverse := by
    rcases lineBack_cases t.reverse with ⟨hnone, hwhole⟩ | ⟨rest, hrest⟩
    · rw [lineBack_feed hnone, hwhole]
    · calc lineBack (t.reverse ++ '\n' :: s.reverse)
        _ = lineBack (lineBack t.reverse ++ '\n' :: (rest ++ '\n' :: s.reverse)) := by
          rw [← List.cons_append, ← List.append_assoc, ← hrest]
        _ = lineBack t.reverse := lineBack_feed (feed_not_mem_lineBack _) _
  exact congrArg List.reverse ((congrArg lineBack hreverse).trans hback)

/-- A text is one line, or has a last one. -/
theorem lineFront_cases (front : List Char) :
    lineFront front = front ∨ ∃ rest, front = rest ++ '\n' :: lineFront front := by
  rcases lineBack_cases front.reverse with ⟨-, hwhole⟩ | ⟨rest, hrest⟩
  · exact .inl ((congrArg List.reverse hwhole).trans front.reverse_reverse)
  · refine .inr ⟨rest.reverse, ?_⟩
    have hfront := congrArg List.reverse hrest
    rw [List.reverse_reverse, List.reverse_append, List.reverse_cons, List.append_assoc] at hfront
    exact hfront

/-- The lines in front of a cut are there whatever is behind it. -/
theorem lines_front (front : List Char) :
    ∃ closed, ∀ back, lines (front ++ back) = closed ++ lines (lineFront front ++ back) := by
  rcases lineFront_cases front with hwhole | ⟨rest, hrest⟩
  · exact ⟨[], fun back => by rw [hwhole, List.nil_append]⟩
  · refine ⟨(rest.splitOn '\n').map stripCr, fun back => ?_⟩
    calc lines (front ++ back) = lines (rest ++ '\n' :: (lineFront front ++ back)) := by
          rw [← List.cons_append, ← List.append_assoc, ← hrest]
      _ = (rest.splitOn '\n').map stripCr ++ lines (lineFront front ++ back) :=
        lines_append_feed rest _

/-- A carriage return is taken from the end. -/
theorem stripCr_append_of_ne_nil (s : List Char) (h : t ≠ []) :
    stripCr (s ++ t) = s ++ stripCr t := by
  unfold stripCr
  rw [List.getLast?_append_of_ne_nil s h, List.dropLast_append_of_ne_nil h]
  split_ifs <;> rfl

/-- What is left of a line is its beginning. -/
theorem stripCr_begins (line : List Char) : stripCr line <+: line := by
  unfold stripCr
  split_ifs
  · exact List.dropLast_prefix line
  · exact List.prefix_rfl

/-- The line at a cut is a line of the text. -/
theorem mem_lines_lineAt (hne : lineAt front back ≠ []) :
    ('\n' ∉ back → lineAt front back ∈ lines (front ++ back)) ∧
      ('\n' ∈ back → stripCr (lineAt front back) ∈ lines (front ++ back)) := by
  obtain ⟨closed, hclosed⟩ := lines_front front
  rw [hclosed]
  constructor
  · intro hfeed
    have hline : '\n' ∉ lineAt front back := by
      rw [lineAt, List.mem_append, not_or]
      exact ⟨feed_not_mem_lineFront front, feed_not_mem_lineBack back⟩
    have hat : lineFront front ++ back = lineAt front back := by
      rw [lineAt, lineBack_of_not_mem hfeed]
    rw [hat, lines_of_not_mem hline, if_neg hne]
    exact List.mem_append_right _ (List.mem_singleton_self _)
  · intro hfeed
    rcases lineBack_cases back with ⟨hnone, -⟩ | ⟨rest, hrest⟩
    · exact absurd hfeed hnone
    · have hline : '\n' ∉ lineFront front ++ lineBack back := by
        rw [List.mem_append, not_or]
        exact ⟨feed_not_mem_lineFront front, feed_not_mem_lineBack back⟩
      have hlines : lines (lineFront front ++ back) =
          stripCr (lineAt front back) :: lines rest := by
        rw [lineAt, ← lines_cons hline, List.append_assoc, ← hrest]
      rw [hlines]
      exact List.mem_append_right _ List.mem_cons_self

/-! ## Secrets -/

/-- A part of sensitive lines that no other line has. -/
structure Secret (text part : List Char) : Prop where
  ne_nil : part ≠ []
  sensitive : ∃ line ∈ lines text, isSensitive line = true ∧ part <:+: line
  only : ∀ line ∈ lines text, part <:+: line → isSensitive line = true

/-- A piece that has no secret of a text. -/
def Harmless (text piece : List Char) : Prop := ∀ part, Secret text part → ¬part <:+: piece

/-- A character that no sensitive line has. -/
def Foreign (text : List Char) (c : Char) : Prop :=
  ∀ line ∈ lines text, isSensitive line = true → c ∉ line

variable {text piece part : List Char} {c : Char}

/-- Nothing has no secret. -/
theorem Harmless.nil : Harmless text [] := fun _ hsecret hpart =>
  hsecret.ne_nil (List.infix_nil.mp hpart)

/-- A line that is not sensitive has none. -/
theorem Harmless.of_mem (hmem : piece ∈ lines text) (hplain : isSensitive piece = false) :
    Harmless text piece := by
  intro part hsecret hpart
  have hsensitive := hsecret.only piece hmem hpart
  rw [hplain] at hsensitive
  cases hsensitive

/-- What is part of a piece without a secret has none. -/
theorem Harmless.of_part (h : Harmless text s) (hpart : piece <:+: s) : Harmless text piece :=
  fun part hsecret hwithin => h part hsecret (hwithin.trans hpart)

/-- Two pieces without a secret have none together, where the two characters at the seam stand side
by side in no sensitive line. -/
theorem Harmless.append (hs : Harmless text s) (ht : Harmless text t)
    (hseam : ∀ x ∈ s.getLast?, ∀ y ∈ t.head?, ∀ line ∈ lines text, isSensitive line = true →
      ¬[x, y] <:+: line) : Harmless text (s ++ t) := by
  intro part hsecret hpart
  rcases List.infix_append_iff_ne_nil.mp hpart with
    hwithin | hwithin | ⟨l₁, l₂, hne, hne', rfl, hsuf, hpre⟩
  · exact hs part hsecret hwithin
  · exact ht part hsecret hwithin
  · -- The part goes over the seam.
    obtain ⟨line, hline, hsensitive, hwithin⟩ := hsecret.sensitive
    obtain ⟨front, x, rfl⟩ := List.eq_nil_or_concat' l₁ |>.resolve_left hne
    obtain ⟨y, rest, rfl⟩ := List.exists_cons_of_ne_nil hne'
    have hlast : x ∈ s.getLast? := by
      obtain ⟨before, rfl⟩ := hsuf
      rw [← List.append_assoc, List.getLast?_concat]
      rfl
    have hhead : y ∈ t.head? := by
      obtain ⟨after, rfl⟩ := hpre
      rfl
    refine hseam x hlast y hhead line hline hsensitive (List.IsInfix.trans ?_ hwithin)
    exact ⟨front, rest, by simp⟩

/-- A character that no sensitive line has adds no secret. -/
theorem Harmless.concat (hs : Harmless text s) (hc : Foreign text c) :
    Harmless text (s ++ [c]) := by
  refine hs.append ?_ ?_
  · intro part hsecret hpart
    obtain ⟨line, hline, hsensitive, hwithin⟩ := hsecret.sensitive
    obtain ⟨d, rest, rfl⟩ := List.exists_cons_of_ne_nil hsecret.ne_nil
    obtain rfl : d = c := List.mem_singleton.mp (hpart.subset List.mem_cons_self)
    exact hc line hline hsensitive (hwithin.subset List.mem_cons_self)
  · intro x _ y hy line hline hsensitive hwithin
    obtain rfl := Option.some.inj hy
    exact hc line hline hsensitive (hwithin.subset (by simp))

/-- A carriage return makes no line sensitive. -/
theorem isSensitive_stripCr (line : List Char) : isSensitive (stripCr line) = isSensitive line := by
  rw [Bool.eq_iff_iff]
  refine ⟨isSensitive_of_part (stripCr_begins line).isInfix, fun h => ?_⟩
  rw [← stripCr_append line] at h
  split_ifs at h
  · exact isSensitive_concat (by decide) h
  · rwa [List.append_nil] at h

/-- A part of a plain line at a cut has no secret. Only where the part ends with the carriage return
of the line end it has a character more than the line. -/
theorem Harmless.of_lineAt (hat : lineAt front back = s ++ piece ++ t)
    (hplain : isSensitive (lineAt front back) = false)
    (hreturn : t = [] → '\n' ∈ back → piece.getLast? = some '\r' → Foreign (front ++ back) '\r') :
    Harmless (front ++ back) piece := by
  by_cases hempty : piece = []
  · rw [hempty]
    exact .nil
  have hne : lineAt front back ≠ [] := by
    rw [hat]
    simp [hempty]
  by_cases hfeed : '\n' ∈ back
  · have hline := Harmless.of_mem ((mem_lines_lineAt hne).2 hfeed)
      ((isSensitive_stripCr _).trans hplain)
    rw [hat] at hline
    by_cases htail : t = []
    · rw [htail, List.append_nil, stripCr_append_of_ne_nil s hempty] at hline
      have hstripped := hline.of_part (List.suffix_append s _).isInfix
      rw [← stripCr_append piece]
      split_ifs with hlast
      · exact hstripped.concat (hreturn htail hfeed hlast)
      · rwa [List.append_nil]
    · rw [stripCr_append_of_ne_nil _ htail] at hline
      exact hline.of_part ⟨s, stripCr t, rfl⟩
  · have hline := Harmless.of_mem ((mem_lines_lineAt hne).1 hfeed) hplain
    exact hline.of_part ⟨s, t, hat.symm⟩

/-! ## Clean cuts -/

/-- A cut of a text is not in a sensitive line in front of the end of its marker, and it parts no
line end, unless no sensitive line has a carriage return. -/
structure CleanCut (front back : List Char) : Prop where
  marked : lineFront front = [] ∨ isSensitive (lineAt front back) = false ∨
    isSensitive (lineFront front) = true
  returned : front.getLast? = some '\r' → back.head? = some '\n' → Foreign (front ++ back) '\r'

/-- What a cut adds to a text: nothing, or a replacement character that no sensitive line has. -/
def PlainTail (text tail : List Char) : Prop :=
  tail = [] ∨ tail = ['\uFFFD'] ∧ Foreign text '\uFFFD'

/-- Such an addition is on one line. -/
theorem PlainTail.feed_not_mem {tail : List Char} (h : PlainTail text tail) : '\n' ∉ tail := by
  rcases h with rfl | ⟨rfl, -⟩
  · exact List.not_mem_nil
  · decide

/-- It adds no secret. -/
theorem PlainTail.harmless {tail : List Char} (h : PlainTail text tail) (hs : Harmless text s) :
    Harmless text (s ++ tail) := by
  rcases h with rfl | ⟨rfl, hforeign⟩
  · rwa [List.append_nil]
  · exact hs.concat hforeign

/-- What a clean cut leaves of a line is sensitive, or has no secret. -/
theorem CleanCut.harmless (h : CleanCut front back) {tail : List Char}
    (htail : PlainTail (front ++ back) tail)
    (hplain : isSensitive (lineFront front ++ tail) = false) :
    Harmless (front ++ back) (lineFront front ++ tail) := by
  refine htail.harmless ?_
  rcases h.marked with hempty | hat | hmarked
  · rw [hempty]
    exact .nil
  · have hwhole : lineAt front back = [] ++ lineFront front ++ lineBack back := rfl
    refine Harmless.of_lineAt hwhole hat fun hnone hfeed hlast =>
      h.returned ?_ (head?_of_lineBack hnone hfeed)
    obtain ⟨before, hbefore⟩ : lineFront front <:+ front := List.rtakeWhile_suffix _ _
    have hne : lineFront front ≠ [] := fun hempty => by rw [hempty] at hlast; cases hlast
    rw [← hbefore, List.getLast?_append_of_ne_nil before hne]
    exact hlast
  · have hwhole := isSensitive_of_part (List.prefix_append (lineFront front) tail).isInfix hmarked
    rw [hplain] at hwhole
    cases hwhole

/-- What is joined where a cut takes away the end of one text and the next one begins is clean:
nothing is joined to the line, the line is sensitive, or the next text begins in a line that is not,
and no sensitive line has the two characters at the seam side by side. -/
def CleanSeam (first second front back : List Char) : Prop :=
  lineBack back = [] ∨ isSensitive (lineAt front back) = true ∨
    isSensitive (lineAt first second) = false ∧
      ∀ x ∈ (lineFront front).getLast?, ∀ y ∈ (lineBack back).head?,
        ∀ line ∈ lines (first ++ second), isSensitive line = true → ¬[x, y] <:+: line

/-- What is joined at a clean seam has no secret, if what is in front of it has none, and what comes
behind it has none where it is part of a plain line. -/
theorem CleanSeam.harmless {first second : List Char} (h : CleanSeam first second front back)
    (hfront : Harmless (first ++ second) (lineFront front))
    (hplain : isSensitive (lineAt front back) = false) (hpiece : piece <+: lineBack back)
    (hback : isSensitive (lineAt first second) = false → Harmless (first ++ second) piece) :
    Harmless (first ++ second) (lineFront front ++ piece) := by
  rcases h with hnone | hsensitive | ⟨hwhole, hpair⟩
  · rw [hnone, List.prefix_nil] at hpiece
    rwa [hpiece, List.append_nil]
  · rw [hplain] at hsensitive
    cases hsensitive
  · refine hfront.append (hback hwhole) fun x hx y hy => hpair x hx y ?_
    obtain ⟨rest, hrest⟩ := hpiece
    rw [← hrest, List.head?_append, hy]
    rfl

/-- Two texts are cut and joined: what is in front of each cut and behind it, and what it adds.
Nothing is cut of the first text, or its cut and its seam are clean, and so is the cut of the second
one. -/
structure CleanJoin (text front back tail front' back' tail' : List Char) : Prop where
  whole : text = front ++ back ++ (front' ++ back')
  added : PlainTail text tail
  added' : PlainTail text tail'
  first : back = [] ∧ tail = [] ∨ CleanCut front (back ++ (front' ++ back')) ∧
    CleanSeam (front ++ back) (front' ++ back') (front ++ tail) (front' ++ tail')
  second : CleanCut (front ++ back ++ front') back'

namespace CleanJoin

variable {tail front' back' tail' joined rest line : List Char}

/-- A part of a plain line is plain. -/
theorem plain_of_begins (hplain : isSensitive t = false) (h : s <+: t) : isSensitive s = false := by
  rw [Bool.eq_false_iff] at hplain ⊢
  exact fun hsensitive => hplain (isSensitive_of_part h.isInfix hsensitive)

/-- What the first cut leaves of its line. -/
theorem first_harmless (h : CleanJoin text front back tail front' back' tail')
    (hcut : CleanCut front (back ++ (front' ++ back')))
    (hplain : isSensitive (lineFront (front ++ tail)) = false) :
    Harmless text (lineFront (front ++ tail)) := by
  rw [lineFront_append front h.added.feed_not_mem] at hplain ⊢
  rw [h.whole, List.append_assoc]
  refine hcut.harmless ?_ hplain
  rw [← List.append_assoc, ← h.whole]
  exact h.added

/-- What the second cut leaves of its line. -/
theorem second_harmless (h : CleanJoin text front back tail front' back' tail')
    (hplain : isSensitive (lineFront (front ++ back ++ front') ++ tail') = false) :
    Harmless text (lineFront (front ++ back ++ front') ++ tail') := by
  have hsplit : text = front ++ back ++ front' ++ back' := by
    rw [h.whole, List.append_assoc _ front']
  rw [hsplit]
  exact h.second.harmless (hsplit ▸ h.added') hplain

/-- A second text of one line is joined to the first one. -/
theorem last_harmless (h : CleanJoin text front back tail front' back' tail')
    (hnone : '\n' ∉ front')
    (hplain : isSensitive (lineFront (front ++ tail) ++ (front' ++ tail')) = false) :
    Harmless text (lineFront (front ++ tail) ++ (front' ++ tail')) := by
  rcases h.first with ⟨rfl, rfl⟩ | ⟨hcut, hseam⟩
  · -- Nothing is cut of the first text, so that the line is cut once.
    rw [← List.append_assoc, ← lineFront_append _ hnone] at hplain ⊢
    exact h.second_harmless hplain
  have hback : lineBack (front' ++ tail') = front' ++ tail' := by
    rw [lineBack_append hnone, lineBack_of_not_mem h.added'.feed_not_mem]
  have hfirst := h.first_harmless hcut (plain_of_begins hplain (List.prefix_append _ _))
  rw [h.whole] at hfirst ⊢
  refine hseam.harmless hfirst (by rwa [lineAt, hback]) (by rw [hback]) fun hat => ?_
  rw [← h.whole]
  refine h.added'.harmless ?_
  -- What the second text has in front of its cut is part of a plain line.
  have hpart : lineAt (front ++ back) (front' ++ back') =
      lineFront (front ++ back) ++ front' ++ lineBack back' := by
    rw [lineAt, lineBack_append hnone, List.append_assoc]
  have hreturned := Harmless.of_lineAt hpart hat
  rw [← h.whole] at hreturned
  refine hreturned fun hnil hmem hlast => ?_
  have hforeign := h.second.returned
  rw [List.append_assoc _ front', ← h.whole] at hforeign
  refine hforeign ?_ (head?_of_lineBack hnil ?_)
  · have hne : front' ≠ [] := fun hempty => by rw [hempty] at hlast; cases hlast
    rwa [List.getLast?_append_of_ne_nil _ hne]
  · exact (List.mem_append.mp hmem).resolve_left hnone

/-- The first line of a second text of several lines is joined to the first text. -/
theorem joined_harmless
    (h : CleanJoin text front back tail (joined ++ '\n' :: rest) back' tail')
    (hjoined : '\n' ∉ joined) (hplain : isSensitive (lineFront (front ++ tail) ++ joined) = false) :
    Harmless text (stripCr (lineFront (front ++ tail) ++ joined)) := by
  rcases h.first with ⟨rfl, rfl⟩ | ⟨hcut, hseam⟩
  · -- Nothing is cut of the first text, and the line is one of the whole texts.
    have hline : '\n' ∉ lineFront (front ++ []) ++ joined := by
      rw [List.mem_append, not_or]
      exact ⟨feed_not_mem_lineFront _, hjoined⟩
    obtain ⟨closed, hclosed⟩ := lines_front (front ++ [])
    have hsplit : text = front ++ [] ++ (joined ++ '\n' :: (rest ++ back')) := by
      rw [h.whole, List.append_assoc joined, List.cons_append]
    refine .of_mem ?_ ((isSensitive_stripCr _).trans hplain)
    rw [hsplit, hclosed, ← List.append_assoc, lines_cons hline]
    exact List.mem_append_right _ List.mem_cons_self
  have hfront := h.first_harmless hcut (plain_of_begins hplain (List.prefix_append _ _))
  by_cases hempty : joined = []
  · rw [hempty, List.append_nil]
    exact hfront.of_part (stripCr_begins _).isInfix
  have hback : lineBack (joined ++ '\n' :: rest ++ tail') = joined := by
    rw [List.append_assoc, List.cons_append, lineBack_feed hjoined]
  rw [stripCr_append_of_ne_nil _ hempty]
  rw [h.whole] at hfront ⊢
  refine hseam.harmless hfront (by rwa [lineAt, hback])
    (by rw [hback]; exact stripCr_begins joined) fun hat => ?_
  rw [← h.whole]
  -- It ends a line of the whole texts.
  have hwhole : lineAt (front ++ back) (joined ++ '\n' :: rest ++ back') =
      lineFront (front ++ back) ++ joined := by
    rw [lineAt, List.append_assoc, List.cons_append, lineBack_feed hjoined]
  have hne : lineAt (front ++ back) (joined ++ '\n' :: rest ++ back') ≠ [] := by
    rw [hwhole]
    simp [hempty]
  have hmem := (mem_lines_lineAt hne).2 (by simp)
  rw [← h.whole] at hmem
  have hline := Harmless.of_mem hmem ((isSensitive_stripCr _).trans hat)
  rw [hwhole, stripCr_append_of_ne_nil _ hempty] at hline
  exact hline.of_part (List.suffix_append _ _).isInfix

/-- The lines behind it. -/
theorem behind_harmless
    (h : CleanJoin text front back tail (joined ++ '\n' :: rest) back' tail')
    (hline : line ∈ lines (rest ++ tail')) (hplain : isSensitive line = false) :
    Harmless text line := by
  obtain ⟨closed, hclosed⟩ := lines_front rest
  rw [hclosed] at hline
  rcases List.mem_append.mp hline with hline | hline
  · -- A line in front of the second cut.
    have hsplit : text = (front ++ back ++ joined) ++ '\n' :: (rest ++ back') := by
      rw [h.whole]
      simp
    refine .of_mem ?_ hplain
    rw [hsplit, lines_append_feed, hclosed]
    exact List.mem_append_right _ (List.mem_append_left _ hline)
  · have hlast : lineFront (front ++ back ++ (joined ++ '\n' :: rest)) = lineFront rest := by
      rw [← List.append_assoc, lineFront_feed]
    have hend : '\n' ∉ lineFront rest ++ tail' := by
      rw [List.mem_append, not_or]
      exact ⟨feed_not_mem_lineFront rest, h.added'.feed_not_mem⟩
    rw [lines_of_not_mem hend] at hline
    split_ifs at hline
    · cases hline
    obtain rfl := List.mem_singleton.mp hline
    have hharmless := h.second_harmless
    rw [hlast] at hharmless
    exact hharmless hplain

/-- **What clean cuts leave of the lines is sensitive, or has no secret of the whole texts.** -/
theorem harmless (h : CleanJoin text front back tail front' back' tail') :
    ∀ line ∈ lines (front ++ tail ++ (front' ++ tail')), isSensitive line = false →
      Harmless text line := by
  obtain ⟨closed, hclosed⟩ := lines_front front
  intro line hline hplain
  rw [List.append_assoc front tail, hclosed, ← List.append_assoc,
    ← lineFront_append front h.added.feed_not_mem] at hline
  rcases List.mem_append.mp hline with hline | hline
  · -- A line in front of the first cut.
    refine .of_mem ?_ hplain
    rw [h.whole, List.append_assoc, hclosed]
    exact List.mem_append_left _ hline
  rcases lineBack_cases front' with ⟨hnone, -⟩ | ⟨rest, hrest⟩
  · have hall : '\n' ∉ lineFront (front ++ tail) ++ (front' ++ tail') := by
      rw [List.mem_append, List.mem_append, not_or, not_or]
      exact ⟨feed_not_mem_lineFront _, hnone, h.added'.feed_not_mem⟩
    rw [lines_of_not_mem hall] at hline
    split_ifs at hline
    · cases hline
    obtain rfl := List.mem_singleton.mp hline
    exact h.last_harmless hnone hplain
  · have hjoined : '\n' ∉ lineBack front' := feed_not_mem_lineBack front'
    generalize lineBack front' = joined at hrest hjoined
    subst hrest
    have hall : '\n' ∉ lineFront (front ++ tail) ++ joined := by
      rw [List.mem_append, not_or]
      exact ⟨feed_not_mem_lineFront _, hjoined⟩
    rw [List.append_assoc joined, List.cons_append, ← List.append_assoc, lines_cons hall] at hline
    rcases List.mem_cons.mp hline with rfl | hline
    · exact h.joined_harmless hjoined ((isSensitive_stripCr _).symm.trans hplain)
    · exact h.behind_harmless hline hplain

end CleanJoin

/-! ## The streams of a child -/

/-- A stream as a text. -/
def textOf (stream : List UInt8) : List Char := (fromUtf8Lossy stream).toList

/-- What is kept of it. -/
def keptText (limit : ℕ) (stream : List UInt8) : List Char := textOf (stream.take limit)

/-- Its characters in front of the cut. One that breaks off is replaced in what is kept, and does
not count. -/
def frontText (limit : ℕ) (stream : List UInt8) : List Char :=
  if keptText limit stream <+: textOf stream then keptText limit stream
  else (keptText limit stream).dropLast

/-- Its characters behind the cut. -/
def backText (limit : ℕ) (stream : List UInt8) : List Char :=
  (textOf stream).drop (frontText limit stream).length

/-- The complete output of a child. -/
def completeOutput (stdout stderr : List UInt8) : List Char := textOf stdout ++ textOf stderr

/-- What is kept of it before redaction. -/
def keptOutput (limit : ℕ) (stdout stderr : List UInt8) : List Char :=
  keptText limit stdout ++ keptText limit stderr

/-- The cuts of the streams are clean, in the lines of the complete output. Where a character breaks
off, no sensitive line has the replacement character, and where stdout is cut, what stderr joins is
clean. -/
structure CutsClean (limit : ℕ) (stdout stderr : List UInt8) : Prop where
  out : limit < stdout.length →
    CleanCut (frontText limit stdout) (backText limit stdout ++ textOf stderr)
  joined : limit < stdout.length →
    CleanSeam (textOf stdout) (textOf stderr) (keptText limit stdout) (keptText limit stderr)
  err : CleanCut (textOf stdout ++ frontText limit stderr) (backText limit stderr)
  replaced : ∀ stream ∈ [stdout, stderr], keptText limit stream ≠ frontText limit stream →
    Foreign (completeOutput stdout stderr) '\uFFFD'

/-- A line of a text that `redact_sensitive` replaces. -/
def Redacted (text : List Char) (i : ℕ) : Prop :=
  ∃ line, (lines text)[i]? = some line ∧ isSensitive line = true

/-- A returned text discloses nothing: its lines are those that stand for redacted ones, or have no
secret of the complete output, and none of them has a marker. -/
structure Undisclosed (limit : ℕ) (stdout stderr : List UInt8) (returned : String) : Prop where
  placeholder : ∀ (i : ℕ) (line : List Char), (returned.toList.splitOn '\n')[i]? = some line →
    Redacted (keptOutput limit stdout stderr) i → line <+: redactedLine
  harmless : ∀ (i : ℕ) (line : List Char), (returned.toList.splitOn '\n')[i]? = some line →
    ¬Redacted (keptOutput limit stdout stderr) i → Harmless (completeOutput stdout stderr) line
  marked : ∀ line ∈ returned.toList.splitOn '\n', isSensitive line = false

variable {limit : ℕ} {stdout stderr : List UInt8}

/-- A stream is what is in front of the cut and behind it, and what is kept is what is in front, but
for a replacement character. -/
theorem textOf_eq (limit : ℕ) (stream : List UInt8) :
    textOf stream = frontText limit stream ++ backText limit stream ∧
      ∃ tail, keptText limit stream = frontText limit stream ++ tail ∧
        (tail = [] ∨ tail = ['\uFFFD'] ∧ keptText limit stream ≠ frontText limit stream) := by
  obtain ⟨front, back, hread, hkept⟩ : ∃ front back, textOf stream = front ++ back ∧
      (keptText limit stream = front ∨ keptText limit stream = front ++ ['\uFFFD']) :=
    fromUtf8Lossy_front stream limit
  unfold backText frontText
  split_ifs with hprefix
  · exact ⟨List.prefix_append_drop hprefix, [], (List.append_nil _).symm, .inl rfl⟩
  · have hlast : keptText limit stream = front ++ ['\uFFFD'] := by
      refine hkept.resolve_left fun hsame => hprefix ?_
      rw [hsame, hread]
      exact List.prefix_append front back
    have hne : keptText limit stream ≠ front := by
      rw [hlast]
      simp
    rw [hlast] at hne ⊢
    rw [List.dropLast_concat]
    exact ⟨by rw [hread, List.drop_left], ['\uFFFD'], rfl, .inr ⟨rfl, hne⟩⟩

/-- Nothing is cut of a stream within the limit. -/
theorem textOf_fits {stream : List UInt8} (h : stream.length ≤ limit) :
    keptText limit stream = textOf stream ∧ frontText limit stream = textOf stream ∧
      backText limit stream = [] := by
  have hkept : keptText limit stream = textOf stream := by
    rw [keptText, List.take_of_length_le h]
  have hfront : frontText limit stream = textOf stream := by
    rw [frontText, hkept, if_pos List.prefix_rfl]
  exact ⟨hkept, hfront, by rw [backText, hfront, List.drop_length]⟩

/-- The lines that clean cuts leave are sensitive, or have no secret. -/
theorem CutsClean.harmless (h : CutsClean limit stdout stderr) :
    ∀ line ∈ lines (keptOutput limit stdout stderr), isSensitive line = false →
      Harmless (completeOutput stdout stderr) line := by
  obtain ⟨hout, tail, hkept, htail⟩ := textOf_eq limit stdout
  obtain ⟨herr, tail', hkept', htail'⟩ := textOf_eq limit stderr
  have hplain {stream : List UInt8} {tail : List Char} (hstream : stream ∈ [stdout, stderr])
      (htail : tail = [] ∨ tail = ['\uFFFD'] ∧ keptText limit stream ≠ frontText limit stream) :
      PlainTail (completeOutput stdout stderr) tail :=
    htail.imp_right fun hreplaced => ⟨hreplaced.1, h.replaced stream hstream hreplaced.2⟩
  have hcomplete : completeOutput stdout stderr = frontText limit stdout ++ backText limit stdout ++
      (frontText limit stderr ++ backText limit stderr) := by
    rw [completeOutput, ← hout, ← herr]
  rw [keptOutput, hkept, hkept']
  refine CleanJoin.harmless ⟨hcomplete, hplain (by simp) htail, hplain (by simp) htail', ?_,
    hout ▸ h.err⟩
  by_cases hcut : limit < stdout.length
  · rw [← hout, ← herr, ← hkept, ← hkept']
    exact .inr ⟨h.out hcut, h.joined hcut⟩
  · obtain ⟨hall, hfront, hback⟩ := textOf_fits (not_lt.mp hcut)
    refine .inl ⟨hback, ?_⟩
    rwa [hall, hfront, List.self_eq_append_right] at hkept

/-! ## What is returned -/

/-- What stands for a sensitive line is not sensitive. -/
theorem isSensitive_redactLine (line : List Char) : isSensitive (redactLine line) = false := by
  unfold redactLine
  split_ifs with h
  · decide
  · exact Bool.eq_false_iff.mpr h

/-- A line has no line feed. -/
theorem feed_not_mem_line {line : List Char} (h : line ∈ lines s) : '\n' ∉ line := by
  induction s using line_induction with
  | last s hfeed =>
    rw [lines_of_not_mem hfeed] at h
    split_ifs at h
    · cases h
    · rwa [List.mem_singleton.mp h]
  | line first rest hfirst ih =>
    rw [lines_cons hfirst] at h
    rcases List.mem_cons.mp h with rfl | h
    · exact fun hmem => hfirst ((stripCr_begins first).subset hmem)
    · exact ih h

/-- The beginning of joined lines has their beginnings, in order. -/
theorem prefix_of_joined {ls : List (List Char)} (hls : ∀ l ∈ ls, '\n' ∉ l)
    (hs : s <+: ['\n'].intercalate ls) {i : ℕ} {line : List Char}
    (hline : (s.splitOn '\n')[i]? = some line) : line <+: (ls[i]?).getD [] := by
  induction ls generalizing s i with
  | nil =>
    obtain rfl := List.prefix_nil.mp hs
    obtain rfl : line = [] := by
      have hmem := List.mem_of_getElem? hline
      rwa [List.splitOn_nil, List.mem_singleton] at hmem
    exact List.nil_prefix
  | cons l rest ih =>
    obtain ⟨hl, hrest⟩ := List.forall_mem_cons.mp hls
    obtain ⟨more, hmore⟩ := hs
    have hjoined : ['\n'].intercalate (l :: rest) =
        l ++ if rest = [] then [] else '\n' :: ['\n'].intercalate rest := by
      split_ifs with hempty
      · rw [hempty, List.intercalate_singleton, List.append_nil]
      · rw [List.intercalate_cons_of_ne_nil hempty, List.append_assoc]
        rfl
    rw [hjoined] at hmore
    by_cases hfeed : '\n' ∈ s
    · -- The first line is whole, and the beginning of the others is behind it.
      obtain ⟨first, others, rfl, hfirst⟩ := List.eq_append_cons_of_mem hfeed
      rw [List.append_assoc, List.cons_append] at hmore
      split_ifs at hmore with hempty
      · rw [List.append_nil] at hmore
        exact absurd (hmore ▸ List.mem_append_right first List.mem_cons_self) hl
      · obtain rfl : first = l := by
          rw [← lineBack_feed hfirst (others ++ more), hmore, lineBack_feed hl]
        rw [List.append_cancel_left_eq, List.cons_inj_right] at hmore
        rw [List.splitOn_append_cons_self_of_not_mem hfirst] at hline
        cases i with
        | zero =>
          obtain rfl := Option.some.inj hline
          exact List.prefix_rfl
        | succ i => exact ih hrest ⟨more, hmore⟩ hline
    · -- The text ends within the first line.
      rw [List.splitOn_eq_singleton hfeed] at hline
      obtain ⟨rfl, rfl⟩ : i = 0 ∧ line = s := by
        cases i with
        | zero => exact ⟨rfl, (Option.some.inj hline).symm⟩
        | succ i => cases hline
      have hback := congrArg lineBack hmore
      have htail : lineBack (if rest = [] then [] else '\n' :: ['\n'].intercalate rest) = [] := by
        split_ifs <;> rfl
      rw [lineBack_append hfeed, lineBack_append hl, htail, List.append_nil] at hback
      exact ⟨lineBack more, hback⟩

/-- The output of a child is undisclosed when the cuts of its streams are clean. -/
theorem undisclosed_outputText {child : ChildOutput} {buffer : ℕ}
    (hclean : CutsClean limit stdout stderr) (hstdout : PiecesOf buffer stdout child.stdout)
    (hstderr : PiecesOf buffer stderr child.stderr) :
    Undisclosed limit stdout stderr (outputText limit child) := by
  -- What is returned is the beginning of the redacted lines of what is kept.
  have hbegins : (outputText limit child).toList <+:
      ['\n'].intercalate ((lines (keptOutput limit stdout stderr)).map redactLine) := by
    obtain ⟨rest, hrest⟩ := (ControlPlane.longestPrefix_truncateUtf8 (redactSensitive
      (fromUtf8Lossy (stdout.take limit) ++ fromUtf8Lossy (stderr.take limit))) limit).boundary
    refine ⟨rest.toList, ?_⟩
    rw [outputText_eq hstdout hstderr, ← String.toList_append, ← hrest, redactSensitive,
      String.toList_ofList, String.toList_append]
    rfl
  have hfeeds : ∀ l ∈ (lines (keptOutput limit stdout stderr)).map redactLine, '\n' ∉ l := by
    intro l hl
    obtain ⟨line, hline, rfl⟩ := List.mem_map.mp hl
    unfold redactLine
    split_ifs
    · decide
    · exact feed_not_mem_line hline
  have hlines {i : ℕ} {line : List Char}
      (hline : ((outputText limit child).toList.splitOn '\n')[i]? = some line) :
      line = [] ∨ ∃ kept, (lines (keptOutput limit stdout stderr))[i]? = some kept ∧
        line <+: redactLine kept := by
    have hprefix := prefix_of_joined hfeeds hbegins hline
    rw [List.getElem?_map] at hprefix
    cases hkept : (lines (keptOutput limit stdout stderr))[i]? with
    | none =>
      rw [hkept] at hprefix
      exact .inl (List.prefix_nil.mp hprefix)
    | some kept =>
      rw [hkept] at hprefix
      exact .inr ⟨kept, rfl, hprefix⟩
  constructor
  · rintro i line hline ⟨kept, hkept, hsensitive⟩
    rcases hlines hline with rfl | ⟨kept', hkept', hprefix⟩
    · exact List.nil_prefix
    · rw [hkept, Option.some.injEq] at hkept'
      rwa [← hkept', redactLine, if_pos hsensitive] at hprefix
  · intro i line hline hredacted
    rcases hlines hline with rfl | ⟨kept, hkept, hprefix⟩
    · exact .nil
    · have hplain : ¬isSensitive kept = true := fun h => hredacted ⟨kept, hkept, h⟩
      rw [redactLine, if_neg hplain] at hprefix
      exact (hclean.harmless kept (List.mem_of_getElem? hkept)
        (Bool.eq_false_iff.mpr hplain)).of_part hprefix.isInfix
  · intro line hline
    obtain ⟨i, hi⟩ := List.getElem?_of_mem hline
    rw [Bool.eq_false_iff]
    intro hsensitive
    rcases hlines hi with rfl | ⟨kept, hkept, hprefix⟩
    · exact absurd hsensitive (by decide)
    · have hwhole := isSensitive_of_part hprefix.isInfix hsensitive
      rw [isSensitive_redactLine] at hwhole
      cases hwhole

/-- **What `execute` returns discloses nothing of the sensitive lines when its cuts are clean.** -/
theorem execute_undisclosed {fs : FileSystem} {run : Spawn → ℕ → Except String ChildOutput}
    {command : List String} {scope_path : String} {timeout_ms output_limit : ℕ} {spawn : Spawn}
    {child : ChildOutput} (hstart : executeStart fs command scope_path = .ok spawn)
    (hrun : run spawn timeout_ms = .ok child) (hstdout : PiecesOf 8192 stdout child.stdout)
    (hstderr : PiecesOf 8192 stderr child.stderr) (hclean : CutsClean output_limit stdout stderr) :
    ∃ output code,
      execute fs run command scope_path timeout_ms output_limit = .ok (output, code) ∧
        Undisclosed output_limit stdout stderr output :=
  ⟨_, _, execute_eq hstart hrun, undisclosed_outputText hclean hstdout hstderr⟩

/-- Streams within the limit are not cut. -/
theorem cutsClean_of_fits (hstdout : stdout.length ≤ limit) (hstderr : stderr.length ≤ limit) :
    CutsClean limit stdout stderr := by
  obtain ⟨hkept, hfront, -⟩ := textOf_fits hstdout
  obtain ⟨hkept', hfront', hback'⟩ := textOf_fits hstderr
  have huncut : ¬limit < stdout.length := not_lt.mpr hstdout
  refine ⟨fun hcut => absurd hcut huncut, fun hcut => absurd hcut huncut, ?_, ?_⟩
  · rw [hfront', hback']
    refine ⟨?_, fun _ hhead => by cases hhead⟩
    rw [lineAt, show lineBack [] = [] from rfl, List.append_nil]
    exact .inr (Bool.eq_false_or_eq_true _).symm
  · simp only [List.forall_mem_cons, List.not_mem_nil, false_imp_iff, implies_true, and_true]
    exact ⟨fun hne => absurd (hkept.trans hfront.symm) hne,
      fun hne => absurd (hkept'.trans hfront'.symm) hne⟩

section Example

/-- A child that prints a sensitive line and a plain one. -/
def tokenChild : ChildOutput := ⟨some 0, [bytes "hunter2 Token=1\nplain text"], []⟩

/-- The streams of that child. -/
theorem tokenChild_streams :
    PiecesOf 8192 (bytes "hunter2 Token=1\nplain text") tokenChild.stdout ∧
      PiecesOf 8192 [] tokenChild.stderr := by
  refine ⟨⟨?_, ?_⟩, rfl, List.forall_mem_nil _⟩ <;> decide +kernel

/-- Cut in the plain line, or not at all, the sensitive one is redacted. -/
theorem undisclosed_token :
    (∃ output code,
      execute printFs (fun _ _ => .ok tokenChild) ["printf", "a𝄞"] "/srv" 1000 20 =
          .ok (output, code) ∧
        Undisclosed 20 (bytes "hunter2 Token=1\nplain text") [] output) ∧
      ∃ output code,
        execute printFs (fun _ _ => .ok tokenChild) ["printf", "a𝄞"] "/srv" 1000 26 =
            .ok (output, code) ∧
          Undisclosed 26 (bytes "hunter2 Token=1\nplain text") [] output := by
  have hcuts : isSensitive (lineAt (frontText 20 (bytes "hunter2 Token=1\nplain text"))
        (backText 20 (bytes "hunter2 Token=1\nplain text") ++ textOf [])) = false ∧
      isSensitive (lineAt (textOf (bytes "hunter2 Token=1\nplain text") ++ frontText 20 [])
        (backText 20 [])) = false ∧
      (frontText 20 (bytes "hunter2 Token=1\nplain text")).getLast? = some 'i' ∧
      backText 20 [] = [] ∧ lineBack (keptText 20 []) = [] ∧
      (∀ stream ∈ [bytes "hunter2 Token=1\nplain text", []],
        keptText 20 stream = frontText 20 stream) ∧
      (bytes "hunter2 Token=1\nplain text").length = 26 := by
    decide +kernel
  obtain ⟨hout, herr, hlast, hback, hjoined, hkept, hlength⟩ := hcuts
  refine ⟨?_, execute_undisclosed printf_starts rfl tokenChild_streams.1 tokenChild_streams.2
    (cutsClean_of_fits hlength.le (Nat.zero_le _))⟩
  refine execute_undisclosed printf_starts rfl tokenChild_streams.1 tokenChild_streams.2
    ⟨fun _ => ⟨.inr (.inl hout), fun hreturn => ?_⟩, fun _ => .inl hjoined,
      ⟨.inr (.inl herr), fun _ hfeed => ?_⟩,
      fun stream hstream hne => absurd (hkept stream hstream) hne⟩
  · rw [hlast] at hreturn
    exact absurd hreturn (by decide)
  · rw [hback] at hfeed
    cases hfeed

/-- Cut in front of its marker, it is returned. -/
theorem disclosed_token :
    execute printFs (fun _ _ => .ok tokenChild) ["printf", "a𝄞"] "/srv" 1000 8 =
        .ok ("hunter2 ", 0) ∧
      redactChars (completeOutput (bytes "hunter2 Token=1\nplain text") []) =
        "[REDACTED]\nplain text".toList ∧
      ¬Undisclosed 8 (bytes "hunter2 Token=1\nplain text") [] "hunter2 " := by
  have htexts : outputText 8 tokenChild = "hunter2 " ∧
      redactChars (completeOutput (bytes "hunter2 Token=1\nplain text") []) =
        "[REDACTED]\nplain text".toList ∧
      lines (completeOutput (bytes "hunter2 Token=1\nplain text") []) =
        ["hunter2 Token=1".toList, "plain text".toList] ∧
      lines (keptOutput 8 (bytes "hunter2 Token=1\nplain text") []) = ["hunter2 ".toList] ∧
      isSensitive "hunter2 Token=1".toList = true ∧ isSensitive "hunter2 ".toList = false ∧
      "hunter2 ".toList.splitOn '\n' = ["hunter2 ".toList] ∧ 'h' ∉ "plain text".toList := by
    decide +kernel
  obtain ⟨htext, hredacted, hlines, hkept, hsensitive, hplain, hpieces, hletter⟩ := htexts
  refine ⟨?_, hredacted, fun hnone => ?_⟩
  · rw [execute_eq printf_starts rfl, htext]
    rfl
  have hline := hnone.harmless 0 "hunter2 ".toList (by rw [hpieces]; rfl) ?_
  · refine hline "hunter2".toList ⟨by decide, ?_, ?_⟩ ⟨[], [' '], rfl⟩
    · rw [hlines]
      exact ⟨_, List.mem_cons_self, hsensitive, [], " Token=1".toList, rfl⟩
    · rw [hlines]
      intro line hline hpart
      rcases List.mem_pair.mp hline with rfl | rfl
      · exact hsensitive
      · exact absurd (hpart.subset (by decide)) hletter
  · rintro ⟨line, hline, hmarked⟩
    rw [hkept] at hline
    rw [← Option.some.inj hline, hplain] at hmarked
    cases hmarked

end Example

end NodeWe.NodeRuntime
