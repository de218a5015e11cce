import NodeWe.Cli.Group
import NodeWe.Separators

/-!
# The registry of nodes

The command line keeps its nodes in a file of one line for each of them. A command that pairs or
revokes a node reads the whole file and writes it again, so what it leaves of the other nodes is
what `read_nodes` makes of the text of `write_nodes`. The writer replaces tabs in names by spaces,
and nothing else: `readBack` is what is read of one entry, whatever its name is.
-/

namespace NodeWe.Cli

open Text UnixPath NodeRuntime

/-- `str::replace` of one character by a space. -/
def spaced (sep : Char) (s : String) : String :=
  String.ofList (s.toList.map fun c => if c = sep then ' ' else c)

/-- A host on which a file holds a text. -/
structure Holds (host : Host) (path contents : String) : Prop where
  exists_file : host.fs.pathExists path = true
  reads : host.read_to_string path = .ok contents

/-! ## Nodes -/

/-- The line of an entry in `write_nodes`. -/
def nodeLine (entry : NodeEntry) : String :=
  spaced '\t' entry.id ++ "\t" ++ spaced '\t' entry.name ++ "\t" ++
    (if entry.online then "online" else "revoked") ++ "\t" ++ ",".intercalate entry.labels ++ "\n"

/-- The text that `write_nodes` writes. -/
def nodesText (entries : List NodeEntry) : String := String.join (entries.map nodeLine)

/-- The entries that `node pair` and `node enroll` write. -/
def pairedEntries (host : Host) (args : List String) : Except String (List NodeEntry) := do
  let dir ← stateDir host
  let id := (option args "--id").getD (nowId host "node")
  let name := (option args "--name").getD id
  let labels ← parseLabels ((option args "--labels").getD "")
  let _ ← NodeId.new id
  let entries ← readNodes host (join dir "nodes.tsv")
  ensure (entries.all fun entry => entry.id ≠ id) "node already exists"
  .ok (entries ++ [⟨id, name, true, labels⟩])

/-- An entry after its revocation, if it is the one that is revoked. -/
def revoked (id : String) (entry : NodeEntry) : NodeEntry :=
  if entry.id = id then { entry with online := false } else entry

/-- The entries that `node revoke` writes. -/
def revokedEntries (host : Host) (args : List String) : Except String (List NodeEntry) := do
  let dir ← stateDir host
  let id ← okOr args[1]? "usage: nodewe node revoke <node-id>"
  let entries ← readNodes host (join dir "nodes.tsv")
  ensure (entries.any fun entry => entry.id = id) "node not found"
  .ok (entries.map (revoked id))

/-! ## Separators -/

/-- A text without the separator is left as it is. -/
theorem spaced_of_not_mem {sep : Char} {s : String} (h : sep ∉ s.toList) : spaced sep s = s := by
  have hmap : s.toList.map (fun c => if c = sep then ' ' else c) = s.toList.map id :=
    List.map_congr_left fun c hc => if_neg fun hsep : c = sep => h (hsep ▸ hc)
  rw [spaced, hmap, List.map_id, String.ofList_toList]

/-- The separator is replaced everywhere. -/
theorem not_mem_spaced {sep : Char} (hsep : sep ≠ ' ') (s : String) :
    sep ∉ (spaced sep s).toList := by
  rw [spaced, String.toList_ofList, List.mem_map]
  rintro ⟨c, -, hc⟩
  split_ifs at hc with h
  · exact hsep hc.symm
  · exact h hc

/-- Other characters are kept. -/
theorem mem_spaced_iff {sep c : Char} (hsep : c ≠ sep) (hblank : c ≠ ' ') (s : String) :
    c ∈ (spaced sep s).toList ↔ c ∈ s.toList := by
  rw [spaced, String.toList_ofList, List.mem_map]
  constructor
  · rintro ⟨d, hd, hc⟩
    split_ifs at hc with h
    · exact absurd hc.symm hblank
    · rwa [← hc]
  · intro hc
    exact ⟨c, hc, if_neg hsep⟩

/-- An accepted identifier has printable characters only. -/
theorem graphic_of_accepted {id : String} (h : nodeIdAccepts id = true) :
    id ≠ "" ∧ ∀ c ∈ id.toList, isAsciiGraphic c = true := by
  unfold nodeIdAccepts at h
  simp only [Bool.and_eq_true, decide_eq_true_eq, List.all_eq_true] at h
  exact ⟨h.1.1, fun c hc => (h.2 c hc).1⟩

/-- The separators of the files are not printable characters. -/
theorem not_mem_of_graphic {s : List Char} (h : ∀ c ∈ s, isAsciiGraphic c = true) {c : Char}
    (hc : isAsciiGraphic c = false) : c ∉ s := by
  intro hmem
  rw [h c hmem] at hc
  cases hc

/-- A line that does not end with a carriage return is kept. -/
theorem stripCr_of_not_mem {line : List Char} (front : List Char) {sep : Char} {rest : List Char}
    (hline : line = front ++ sep :: rest) (hsep : sep ≠ '\r') (hrest : '\r' ∉ rest) :
    stripCr line = line := by
  have hlast : line.getLast? ≠ some '\r' := by
    intro hlast
    rw [hline, List.getLast?_append_of_ne_nil _ (List.cons_ne_nil _ _)] at hlast
    have hmem := List.mem_of_getLast? hlast
    rcases List.mem_cons.mp hmem with h | h
    · exact hsep h.symm
    · exact hrest h
  rw [stripCr, if_neg hlast]

/-! ## Labels -/

/-- A label that `parse_labels` keeps. -/
structure SafeLabel (label : String) : Prop where
  ne_empty : label ≠ ""
  len_le : len label ≤ 64
  safe : ∀ c ∈ label.toList, (c.isAlphanum || ['_', '-', '.', ':'].contains c) = true

/-- A character of a label is printable, and no comma. -/
theorem graphic_of_safe {c : Char} (h : (c.isAlphanum || ['_', '-', '.', ':'].contains c) = true) :
    isAsciiGraphic c = true ∧ c ≠ ',' := by
  simp only [Char.isAlphanum, Char.isAlpha, Char.isUpper, Char.isLower, Char.isDigit,
    Bool.or_eq_true, Bool.and_eq_true, decide_eq_true_eq, List.contains_cons, List.contains_nil,
    beq_iff_eq, Bool.or_false, UInt32.le_iff_toNat_le] at h
  have hnat : c.toNat = c.val.toNat := rfl
  constructor
  · simp only [isAsciiGraphic, Bool.and_eq_true, decide_eq_true_eq]
    rcases h with ((h | h) | h) | h | h | h | h <;>
      first | (subst h; decide) | (simp at h; omega)
  · rintro rfl
    simp at h

/-- A printable character is no white space. -/
theorem not_whitespace_of_graphic {c : Char} (h : isAsciiGraphic c = true) :
    isWhitespace c = false := by
  simp only [isAsciiGraphic, Bool.and_eq_true, decide_eq_true_eq] at h
  simp only [isWhitespace, Bool.or_eq_false_iff, Bool.and_eq_false_iff, decide_eq_false_iff_not,
    beq_eq_false_iff_ne]
  omega

/-- A safe label is kept as it is, unless it is there already. -/
theorem collectLabels_cons {label : String} (h : SafeLabel label) {labels : List String}
    (hnew : label ∉ labels) (rest : List (List Char)) :
    collectLabels labels (label.toList :: rest) = collectLabels (labels ++ [label]) rest := by
  have hblank : ∀ c ∈ label.toList, isWhitespace c = false := fun c hc =>
    not_whitespace_of_graphic (graphic_of_safe (h.safe c hc)).1
  have hrefused : ¬(64 < len label || !label.toList.all fun c =>
      c.isAlphanum || ['_', '-', '.', ':'].contains c) = true := by
    rw [List.all_eq_true.mpr h.safe]
    simpa using h.len_le
  have hold : ¬labels.contains label = true := by simpa using hnew
  rw [collectLabels, trimChars_of_forall hblank, String.ofList_toList, if_neg h.ne_empty, if_neg hrefused,
    if_neg hold]

/-- Safe labels are collected in their order. -/
theorem collectLabels_map {labels more : List String} (hsafe : ∀ label ∈ more, SafeLabel label)
    (hnodup : (labels ++ more).Nodup) :
    collectLabels labels (more.map String.toList) = some (labels ++ more) := by
  induction more generalizing labels with
  | nil => rw [List.append_nil]; rfl
  | cons label rest ih =>
    rw [List.forall_mem_cons] at hsafe
    have hsplit : labels ++ label :: rest = (labels ++ [label]) ++ rest := by simp
    have hnew : label ∉ labels := fun hmem =>
      (List.nodup_append.mp hnodup).2.2 label hmem label List.mem_cons_self rfl
    rw [List.map_cons, collectLabels_cons hsafe.1 hnew, hsplit]
    exact ih hsafe.2 (hsplit ▸ hnodup)

/-- What is collected are safe labels, each once. -/
theorem collectLabels_safe {labels result : List String} {pieces : List (List Char)}
    (h : collectLabels labels pieces = some result) (hsafe : ∀ label ∈ labels, SafeLabel label)
    (hnodup : labels.Nodup) : (∀ label ∈ result, SafeLabel label) ∧ result.Nodup := by
  induction pieces generalizing labels with
  | nil =>
    obtain rfl := Option.some.inj h
    exact ⟨hsafe, hnodup⟩
  | cons piece rest ih =>
    rw [collectLabels] at h
    split_ifs at h with hempty hrefused hold
    · exact ih h hsafe hnodup
    · exact ih h hsafe hnodup
    · rw [Bool.or_eq_true, not_or, decide_eq_true_eq, Nat.not_lt, Bool.not_eq_true,
        Bool.not_eq_false', List.all_eq_true] at hrefused
      refine ih h ?_ ?_
      · intro label hlabel
        rcases List.mem_append.mp hlabel with hlabel | hlabel
        · exact hsafe label hlabel
        · rw [List.mem_singleton.mp hlabel]
          exact ⟨hempty, hrefused.1, hrefused.2⟩
      · rw [List.nodup_append]
        refine ⟨hnodup, List.nodup_singleton _, ?_⟩
        intro label hlabel other hother
        rw [List.mem_singleton.mp hother]
        rintro rfl
        exact hold (by simpa using hlabel)

/-- The labels that `parse_labels` returns are safe, each once. -/
theorem parseLabels_safe {value : String} {labels : List String}
    (h : parseLabels value = .ok labels) :
    (∀ label ∈ labels, SafeLabel label) ∧ labels.Nodup :=
  collectLabels_safe (okOr_eq_ok.mp h) (List.forall_mem_nil _) List.nodup_nil

/-- Labels that were returned once are returned again for their text. -/
theorem parseLabels_intercalate {value : String} {labels : List String}
    (h : parseLabels value = .ok labels) :
    parseLabels (",".intercalate labels) = .ok labels := by
  obtain ⟨hsafe, hnodup⟩ := parseLabels_safe h
  rw [parseLabels, okOr_eq_ok, String.toList_intercalate]
  by_cases hnone : labels = []
  · rw [hnone]
    rfl
  · have hcommas : ∀ piece ∈ labels.map String.toList, ',' ∉ piece := by
      intro piece hpiece hcomma
      obtain ⟨label, hlabel, rfl⟩ := List.mem_map.mp hpiece
      exact (graphic_of_safe ((hsafe label hlabel).safe _ hcomma)).2 rfl
    have hsplit : ([','].intercalate (labels.map String.toList)).splitOn ',' =
        labels.map String.toList :=
      List.splitOn_intercalate ',' hcommas (by simpa using hnone)
    have hcomma : ",".toList = [','] := rfl
    rw [hcomma, hsplit]
    exact collectLabels_map hsafe hnodup

/-! ## What is read of an entry -/

/-- An entry that the command line can build. -/
structure Buildable (entry : NodeEntry) : Prop where
  accepted : nodeIdAccepts entry.id = true
  labels : ∃ value, parseLabels value = .ok entry.labels

/-- The state of an entry, as it is written. -/
def onlineText (online : Bool) : String := if online then "online" else "revoked"

/-- What `read_nodes` makes of the line of an entry. A line feed in the name ends the line there,
and what stands behind the last one is read as a line of three fields. -/
def readBack (entry : NodeEntry) : NodeEntry :=
  if '\n' ∈ entry.name.toList then
    ⟨String.ofList (((spaced '\t' entry.name).toList.splitOn '\n').getLastD []),
      onlineText entry.online, decide (",".intercalate entry.labels = "online"), []⟩
  else { entry with name := spaced '\t' entry.name }

/-- The fields of an entry behind its name. -/
def stateFields (entry : NodeEntry) : List (List Char) :=
  [(onlineText entry.online).toList, (",".intercalate entry.labels).toList]

/-- The characters of a line are its fields, separated by tabs, and a line feed. -/
theorem toList_nodeLine (entry : NodeEntry) :
    (nodeLine entry).toList =
      ['\t'].intercalate ((spaced '\t' entry.id).toList :: (spaced '\t' entry.name).toList ::
        stateFields entry) ++ ['\n'] := by
  have htab : "\t".toList = ['\t'] := rfl
  have hfeed : "\n".toList = ['\n'] := rfl
  rw [nodeLine, stateFields, onlineText]
  simp only [String.toList_append, htab, hfeed, List.intercalate_cons_cons,
    List.intercalate_singleton, List.append_assoc]

variable {entry : NodeEntry}

/-- The labels of an entry have no separator of the file. -/
theorem Buildable.not_mem_labels (h : Buildable entry) {c : Char} (hc : isAsciiGraphic c = false) :
    c ∉ (",".intercalate entry.labels).toList := by
  obtain ⟨value, hvalue⟩ := h.labels
  intro hmem
  rw [String.toList_intercalate] at hmem
  rcases mem_intercalate hmem with rfl | ⟨piece, hpiece, hmem⟩
  · exact absurd hc (by decide)
  · obtain ⟨label, hlabel, rfl⟩ := List.mem_map.mp hpiece
    rw [(graphic_of_safe (((parseLabels_safe hvalue).1 label hlabel).safe c hmem)).1] at hc
    cases hc

/-- The fields behind the name have no separator of the file. -/
theorem Buildable.not_mem_stateFields (h : Buildable entry) {c : Char}
    (hc : c = '\t' ∨ c = '\n' ∨ c = '\r') : ∀ field ∈ stateFields entry, c ∉ field := by
  have hgraphic : isAsciiGraphic c = false := by
    rcases hc with rfl | rfl | rfl <;> decide
  have honline : ∀ online, c ∉ (onlineText online).toList := by
    intro online
    rcases hc with rfl | rfl | rfl <;> cases online <;> decide
  rw [stateFields, List.forall_mem_cons, List.forall_mem_singleton]
  exact ⟨honline entry.online, h.not_mem_labels hgraphic⟩

/-- An identifier is written as it is. -/
theorem Buildable.spaced_id (h : Buildable entry) : spaced '\t' entry.id = entry.id :=
  spaced_of_not_mem (not_mem_of_graphic (graphic_of_accepted h.accepted).2 (by decide))

/-- The entry of a line with too few tabs is none. -/
theorem nodeEntryOf_none {line : List Char} (h : line.count '\t' ≤ 1) :
    nodeEntryOf line = none := by
  by_cases htab : '\t' ∈ line
  · obtain ⟨first, rest, rfl, hfirst⟩ := List.eq_append_cons_of_mem htab
    have hrest : '\t' ∉ rest := by
      rw [← List.count_eq_zero]
      rw [List.count_append, List.count_cons_self] at h
      omega
    have htabs : ∀ field ∈ [first, rest], '\t' ∉ field := by simp [hfirst, hrest]
    have hjoin : first ++ '\t' :: rest = ['\t'].intercalate [first, rest] := by
      rw [List.intercalate_cons_cons, List.intercalate_singleton, List.append_assoc]
      rfl
    have hfields : splitN '\t' 4 (['\t'].intercalate [first, rest]) = [first, rest] :=
      splitN_intercalate htabs (by simp) (by simp)
    rw [nodeEntryOf, hjoin, hfields]
    rfl
  · have hfields : splitN '\t' 4 line = [line] := by rw [splitN, splitOnce_none htab]
    rw [nodeEntryOf, hfields]
    rfl

/-- The line of an entry whose name is on one line. -/
theorem nodeEntryOf_line (h : Buildable entry) (hname : '\n' ∉ entry.name.toList) :
    nodeEntryOf (['\t'].intercalate ((spaced '\t' entry.id).toList ::
      (spaced '\t' entry.name).toList :: stateFields entry)) = some (readBack entry) := by
  obtain ⟨value, hvalue⟩ := h.labels
  have htabs : ∀ field ∈ (spaced '\t' entry.id).toList :: (spaced '\t' entry.name).toList ::
      stateFields entry, '\t' ∉ field := by
    rw [List.forall_mem_cons, List.forall_mem_cons]
    exact ⟨not_mem_spaced (by decide) _, not_mem_spaced (by decide) _,
      h.not_mem_stateFields (.inl rfl)⟩
  have hfields := splitN_intercalate htabs (List.cons_ne_nil _ _) (le_refl 4)
  have honline : decide (onlineText entry.online = "online") = entry.online := by
    cases entry.online <;> decide
  rw [nodeEntryOf, hfields, stateFields]
  simp only [List.map_cons, List.map_nil, String.ofList_toList, List.headD_cons]
  rw [parseLabels_intercalate hvalue, honline, readBack, if_neg hname, h.spaced_id]

/-- What stands behind a line feed in the name is read as an entry. -/
theorem nodeEntryOf_rest (h : Buildable entry) {piece : List Char} (hpiece : '\t' ∉ piece) :
    nodeEntryOf (['\t'].intercalate (piece :: stateFields entry)) =
      some ⟨String.ofList piece, onlineText entry.online,
        decide (",".intercalate entry.labels = "online"), []⟩ := by
  have htabs : ∀ field ∈ piece :: stateFields entry, '\t' ∉ field := by
    rw [List.forall_mem_cons]
    exact ⟨hpiece, h.not_mem_stateFields (.inl rfl)⟩
  have hfields : splitN '\t' 4 _ = _ :=
    splitN_intercalate htabs (List.cons_ne_nil _ _) (Nat.le_succ 3)
  rw [nodeEntryOf, hfields, stateFields]
  simp only [List.map_cons, List.map_nil, String.ofList_toList, List.headD_nil]
  rfl

/-- A line that ends with the fields of the state is read whole, without its line feed. -/
theorem filterMap_fields (h : Buildable entry) {fields : List (List Char)}
    (hfields : ∀ field ∈ fields, '\n' ∉ field) (rest : List Char) :
    (lines (['\t'].intercalate (fields ++ stateFields entry) ++ '\n' :: rest)).filterMap
        nodeEntryOf =
      (nodeEntryOf (['\t'].intercalate (fields ++ stateFields entry))).toList ++
        (lines rest).filterMap nodeEntryOf := by
  -- The labels end the line, so that no carriage return is taken off it.
  have hlast : ∃ front, ['\t'].intercalate (fields ++ stateFields entry) =
      front ++ '\t' :: (",".intercalate entry.labels).toList := by
    clear hfields
    induction fields with
    | nil => exact ⟨(onlineText entry.online).toList, by simp [stateFields]⟩
    | cons field rest ih =>
      obtain ⟨front, hfront⟩ := ih
      refine ⟨field ++ '\t' :: front, ?_⟩
      have hne : rest ++ stateFields entry ≠ [] := by simp [stateFields]
      obtain ⟨next, others, hcons⟩ := List.exists_cons_of_ne_nil hne
      rw [hcons] at hfront
      rw [List.cons_append, hcons, List.intercalate_cons_cons, hfront, List.append_assoc,
        List.append_assoc]
      rfl
  obtain ⟨front, hfront⟩ := hlast
  have hreturn : stripCr (['\t'].intercalate (fields ++ stateFields entry)) =
      ['\t'].intercalate (fields ++ stateFields entry) :=
    stripCr_of_not_mem front hfront (by decide) (h.not_mem_labels (by decide))
  have hfeed : '\n' ∉ ['\t'].intercalate (fields ++ stateFields entry) := by
    intro hmem
    rcases mem_intercalate hmem with heq | ⟨field, hfield, hmem⟩
    · exact absurd heq (by decide)
    · rcases List.mem_append.mp hfield with hfield | hfield
      · exact hfields field hfield hmem
      · exact h.not_mem_stateFields (.inr (.inl rfl)) field hfield hmem
  rw [lines_append_feed, List.splitOn_eq_singleton hfeed, List.map_singleton, hreturn,
    List.filterMap_append]
  cases hentry : nodeEntryOf (['\t'].intercalate (fields ++ stateFields entry)) with
  | none => simp [hentry]
  | some entry' => simp [hentry]

/-- The lines in front of the last line feed of a name are no entries. -/
theorem filterMap_front {id front : List Char} (hid : '\t' ∉ id) (hfront : '\t' ∉ front)
    (rest : List Char) :
    (lines ((id ++ '\t' :: front) ++ '\n' :: rest)).filterMap nodeEntryOf =
      (lines rest).filterMap nodeEntryOf := by
  have hnone : (((id ++ '\t' :: front).splitOn '\n').map stripCr).filterMap nodeEntryOf = [] := by
    rw [List.filterMap_eq_nil_iff]
    intro line hline
    obtain ⟨piece, hpiece, rfl⟩ := List.mem_map.mp hline
    have hpart : List.Sublist (stripCr piece) (id ++ '\t' :: front) :=
      (stripCr_sublist piece).trans (sublist_of_mem_splitOn hpiece)
    have hcount : (id ++ '\t' :: front).count '\t' = 1 := by
      rw [List.count_append, List.count_cons_self, List.count_eq_zero.mpr hid,
        List.count_eq_zero.mpr hfront]
    exact nodeEntryOf_none (hcount ▸ hpart.count_le '\t')
  rw [lines_append_feed, List.filterMap_append, hnone, List.nil_append]

/-- **Each entry is read as one entry.** -/
theorem filterMap_nodeLine (h : Buildable entry) (rest : List Char) :
    (lines ((nodeLine entry).toList ++ rest)).filterMap nodeEntryOf =
      readBack entry :: (lines rest).filterMap nodeEntryOf := by
  rw [toList_nodeLine, List.append_assoc, List.singleton_append]
  have hid : ∀ {c : Char}, isAsciiGraphic c = false → c ∉ (spaced '\t' entry.id).toList := by
    intro c hc
    rw [h.spaced_id]
    exact not_mem_of_graphic (graphic_of_accepted h.accepted).2 hc
  have hfeed : '\n' ∈ (spaced '\t' entry.name).toList ↔ '\n' ∈ entry.name.toList :=
    mem_spaced_iff (by decide) (by decide) _
  -- A line feed in the name cuts the entry's line: the front has too few fields and is skipped, the
  -- rest behind the last line feed is read as an entry of its own.
  by_cases hname : '\n' ∈ entry.name.toList
  · obtain ⟨last, others, hsplit, hlast⟩ :=
      List.eq_append_cons_of_mem (List.mem_reverse.mpr (hfeed.mpr hname))
    have hparts : (spaced '\t' entry.name).toList = others.reverse ++ '\n' :: last.reverse := by
      rw [← List.reverse_reverse (spaced '\t' entry.name).toList, hsplit]
      simp
    have htab : '\t' ∉ others.reverse ++ '\n' :: last.reverse :=
      hparts ▸ not_mem_spaced (by decide) _
    rw [List.mem_append, List.mem_cons, not_or, not_or] at htab
    have hjoin : ['\t'].intercalate ((spaced '\t' entry.id).toList ::
          (others.reverse ++ '\n' :: last.reverse) :: stateFields entry) =
        ((spaced '\t' entry.id).toList ++ '\t' :: others.reverse) ++
          '\n' :: ['\t'].intercalate ([last.reverse] ++ stateFields entry) := by
      simp [stateFields]
    have hpiece : '\n' ∉ last.reverse := fun hmem => hlast (List.mem_reverse.mp hmem)
    have hback : readBack entry = ⟨String.ofList last.reverse, onlineText entry.online,
        decide (",".intercalate entry.labels = "online"), []⟩ := by
      rw [readBack, if_pos hname, hparts, List.splitOn_append_cons_self,
        List.splitOn_eq_singleton hpiece]
      simp
    rw [hparts, hjoin, List.append_assoc, List.cons_append,
      filterMap_front (hid (by decide)) htab.1,
      filterMap_fields h (by simpa using hpiece), List.singleton_append,
      nodeEntryOf_rest h htab.2.2, hback]
    rfl
  · have hfields : ∀ field ∈ [(spaced '\t' entry.id).toList, (spaced '\t' entry.name).toList],
        '\n' ∉ field := by
      rw [List.forall_mem_cons, List.forall_mem_singleton]
      exact ⟨hid (by decide), fun hmem => hname (hfeed.mp hmem)⟩
    have hread := filterMap_fields h hfields rest
    rw [List.cons_append, List.singleton_append, nodeEntryOf_line h hname] at hread
    exact hread

/-- What is read of the text of some entries. -/
theorem filterMap_nodesText {entries : List NodeEntry} (h : ∀ entry ∈ entries, Buildable entry) :
    (lines (nodesText entries).toList).filterMap nodeEntryOf = entries.map readBack := by
  rw [nodesText, String.toList_join]
  induction entries with
  | nil => rfl
  | cons entry rest ih =>
    rw [List.forall_mem_cons] at h
    rw [List.map_cons, List.flatMap_cons, filterMap_nodeLine h.1, ih h.2, List.map_cons]

/-- `read_nodes` behind `write_nodes`. -/
theorem readNodes_nodesText {host : Host} {path : String} {entries : List NodeEntry}
    (h : ∀ entry ∈ entries, Buildable entry) (hfile : Holds host path (nodesText entries)) :
    readNodes host path = .ok (entries.map readBack) := by
  rw [readNodes, if_pos hfile.exists_file, hfile.reads, ← filterMap_nodesText h]
  rfl

/-! ## The registry of nodes -/

/-- A name up to the white space in it. -/
def whitened (name : String) : List Char :=
  name.toList.map fun c => if isWhitespace c then ' ' else c

/-- Two entries are the same up to white space in the name. -/
structure SameEntry (entry other : NodeEntry) : Prop where
  id : entry.id = other.id
  name : whitened entry.name = whitened other.name
  online : entry.online = other.online
  labels : entry.labels = other.labels

/-- Being the same goes on. -/
theorem SameEntry.trans {first second third : NodeEntry} (h : SameEntry first second)
    (h' : SameEntry second third) : SameEntry first third :=
  ⟨h.id.trans h'.id, h.name.trans h'.name, h.online.trans h'.online, h.labels.trans h'.labels⟩

/-- The registry keeps some entries: what is written of them is read back, and neither pairing nor
revoking a node changes another one. -/
structure RegistryKept (entries : List NodeEntry) : Prop where
  reads : ∀ host path, Holds host path (nodesText entries) →
    ∃ back, readNodes host path = .ok back ∧ List.Forall₂ SameEntry entries back
  pairs : ∀ host later args dir written, stateDir host = .ok dir →
    Holds host (join dir "nodes.tsv") (nodesText entries) → pairedEntries host args = .ok written →
    Holds later (join dir "nodes.tsv") (nodesText written) →
    ∃ back last, readNodes later (join dir "nodes.tsv") = .ok (back ++ [last]) ∧
      List.Forall₂ SameEntry entries back
  revokes : ∀ host later args dir id written, stateDir host = .ok dir →
    Holds host (join dir "nodes.tsv") (nodesText entries) → args[1]? = some id →
    revokedEntries host args = .ok written →
    Holds later (join dir "nodes.tsv") (nodesText written) →
    ∃ back, readNodes later (join dir "nodes.tsv") = .ok back ∧
      List.Forall₂ (fun entry other => SameEntry (revoked id entry) other) entries back

/-- Replacing tabs changes white space only. -/
theorem whitened_spaced (name : String) : whitened (spaced '\t' name) = whitened name := by
  rw [whitened, whitened, spaced, String.toList_ofList, List.map_map]
  refine List.map_congr_left fun c _ => ?_
  show (if isWhitespace (if c = '\t' then ' ' else c) then ' ' else (if c = '\t' then ' ' else c)) =
    _
  by_cases htab : c = '\t'
  · rw [htab]
    decide
  · rw [if_neg htab]

/-- An entry is read back when its name is on one line. -/
theorem sameEntry_readBack_iff : SameEntry entry (readBack entry) ↔ '\n' ∉ entry.name.toList := by
  constructor
  · intro hsame hname
    have hblank : ' ' ∈ whitened entry.name := List.mem_map.mpr ⟨'\n', hname, by decide⟩
    have hstate : ∀ online, ' ' ∉ whitened (onlineText online) := by
      intro online
      cases online <;> decide
    rw [hsame.name, readBack, if_pos hname] at hblank
    exact hstate entry.online hblank
  · intro hname
    rw [readBack, if_neg hname]
    exact ⟨rfl, (whitened_spaced entry.name).symm, rfl, rfl⟩

/-- What is read back of an entry with its name on one line can be built, and its name is on one
line. -/
theorem readBack_buildable (h : Buildable entry) (hname : '\n' ∉ entry.name.toList) :
    Buildable (readBack entry) ∧ '\n' ∉ (readBack entry).name.toList := by
  rw [readBack, if_neg hname]
  exact ⟨⟨h.accepted, h.labels⟩,
    fun hmem => hname ((mem_spaced_iff (by decide) (by decide) _).mp hmem)⟩

variable {host : Host} {args : List String} {dir id : String} {entries written : List NodeEntry}

/-- Pairing a node puts an entry behind those that are read. -/
theorem pairedEntries_ok (h : pairedEntries host args = .ok written)
    (hdir : stateDir host = .ok dir) :
    ∃ entries new, readNodes host (join dir "nodes.tsv") = .ok entries ∧ Buildable new ∧
      written = entries ++ [new] := by
  simp only [pairedEntries, bind_eq_ok_iff] at h
  obtain ⟨dir', hdir', labels, hlabels, node, hnode, entries, hread, -, -, h⟩ := h
  obtain rfl := Except.ok.inj (hdir.symm.trans hdir')
  refine ⟨entries, _, hread, ⟨?_, _, hlabels⟩, (Except.ok.inj h).symm⟩
  rw [NodeId.new] at hnode
  split_ifs at hnode with haccepted
  exact haccepted

/-- Revoking a node goes over the entries that are read. -/
theorem revokedEntries_ok (h : revokedEntries host args = .ok written)
    (hdir : stateDir host = .ok dir) (hid : args[1]? = some id) :
    ∃ entries, readNodes host (join dir "nodes.tsv") = .ok entries ∧
      written = entries.map (revoked id) := by
  simp only [revokedEntries, bind_eq_ok_iff, okOr_eq_ok] at h
  obtain ⟨dir', hdir', id', hid', entries, hread, -, -, h⟩ := h
  obtain rfl := Except.ok.inj (hdir.symm.trans hdir')
  obtain rfl := Option.some.inj (hid.symm.trans hid')
  exact ⟨entries, hread, (Except.ok.inj h).symm⟩

/-- A revocation leaves what can be built as it can be, and the name. -/
theorem revoked_buildable (id : String) (h : Buildable entry) :
    Buildable (revoked id entry) ∧ (revoked id entry).name = entry.name := by
  unfold revoked
  split_ifs
  · exact ⟨⟨h.accepted, h.labels⟩, rfl⟩
  · exact ⟨h, rfl⟩

/-- A revocation goes by the identifier. -/
theorem SameEntry.revoked {other : NodeEntry} (h : SameEntry entry other) (id : String) :
    SameEntry (revoked id entry) (revoked id other) := by
  unfold Cli.revoked
  rw [h.id]
  split_ifs
  · exact ⟨rfl, h.name, rfl, h.labels⟩
  · exact h

/-- A host on which every file holds a text. -/
def filedHost (contents : String) : Host :=
  { plainHost with read_to_string := fun _ => .ok contents }

/-- **The registry keeps the nodes whose names are on one line**, and no others. -/
theorem registry_kept_iff (h : ∀ entry ∈ entries, Buildable entry) :
    RegistryKept entries ↔ ∀ entry ∈ entries, '\n' ∉ entry.name.toList := by
  have hsame : List.Forall₂ SameEntry entries (entries.map readBack) ↔
      ∀ entry ∈ entries, '\n' ∉ entry.name.toList := by
    rw [List.forall₂_map_right_iff, List.forall₂_same]
    exact forall₂_congr fun entry _ => sameEntry_readBack_iff
  constructor
  · intro hkept
    have hholds : Holds (filedHost (nodesText entries)) "nodes.tsv" (nodesText entries) := ⟨rfl, rfl⟩
    obtain ⟨back, hread, hback⟩ := hkept.reads _ _ hholds
    rw [readNodes_nodesText h hholds] at hread
    obtain rfl := Except.ok.inj hread
    exact hsame.mp hback
  · intro hnames
    have hbuilt : ∀ entry ∈ entries.map readBack, Buildable entry ∧ '\n' ∉ entry.name.toList := by
      rw [List.forall_mem_map]
      exact fun entry hentry => readBack_buildable (h entry hentry) (hnames entry hentry)
    refine ⟨?_, ?_, ?_⟩
    · intro host path hholds
      exact ⟨_, readNodes_nodesText h hholds, hsame.mpr hnames⟩
    · intro host later args dir written hdir hholds hpaired hlater
      obtain ⟨found, new, hfound, hnew, rfl⟩ := pairedEntries_ok hpaired hdir
      rw [readNodes_nodesText h hholds] at hfound
      obtain rfl := Except.ok.inj hfound
      have hall : ∀ entry ∈ entries.map readBack ++ [new], Buildable entry := by
        rw [List.forall_mem_append, List.forall_mem_singleton]
        exact ⟨fun entry hentry => (hbuilt entry hentry).1, hnew⟩
      refine ⟨(entries.map readBack).map readBack, readBack new, ?_, ?_⟩
      · rw [readNodes_nodesText hall hlater, List.map_append, List.map_singleton]
      -- Two readings lie between the registry and what the later host reads.
      · rw [List.map_map, List.forall₂_map_right_iff, List.forall₂_same]
        intro entry hentry
        simp only [Function.comp_apply]
        have hfirst : SameEntry entry (readBack entry) :=
          sameEntry_readBack_iff.mpr (hnames entry hentry)
        have hsecond : SameEntry (readBack entry) (readBack (readBack entry)) :=
          sameEntry_readBack_iff.mpr (hbuilt _ (List.mem_map_of_mem hentry)).2
        exact hfirst.trans hsecond
    · intro host later args dir id written hdir hholds hid hrevoked hlater
      obtain ⟨found, hfound, rfl⟩ := revokedEntries_ok hrevoked hdir hid
      rw [readNodes_nodesText h hholds] at hfound
      obtain rfl := Except.ok.inj hfound
      have hall : ∀ entry ∈ (entries.map readBack).map (revoked id), Buildable entry := by
        rw [List.forall_mem_map]
        exact fun entry hentry => (revoked_buildable id (hbuilt entry hentry).1).1
      refine ⟨_, readNodes_nodesText hall hlater, ?_⟩
      rw [List.map_map, List.map_map, List.forall₂_map_right_iff, List.forall₂_same]
      intro entry hentry
      simp only [Function.comp_apply]
      have hback := hbuilt _ (List.mem_map_of_mem hentry)
      have hline : '\n' ∉ (revoked id (readBack entry)).name.toList := by
        rw [(revoked_buildable id hback.1).2]
        exact hback.2
      have hrevoke : SameEntry (revoked id entry) (revoked id (readBack entry)) :=
        (sameEntry_readBack_iff.mpr (hnames entry hentry)).revoked id
      have hsecond : SameEntry (revoked id (readBack entry))
          (readBack (revoked id (readBack entry))) := sameEntry_readBack_iff.mpr hline
      exact hrevoke.trans hsecond

/-- A node that the registry keeps. -/
theorem registry_kept_plain : RegistryKept [⟨"n1", "Build\tbox", true, ["gpu"]⟩] := by
  refine (registry_kept_iff ?_).mpr ?_
  · rw [List.forall_mem_singleton]
    exact ⟨by decide, "gpu", by decide⟩
  · decide

/-- Of a node whose name has a line feed, another one is read. -/
theorem registry_altered :
    Buildable ⟨"n1", "build\nbox", true, ["gpu"]⟩ ∧
      nodesText [⟨"n1", "build\nbox", true, ["gpu"]⟩] = "n1\tbuild\nbox\tonline\tgpu\n" ∧
      readNodes (filedHost "n1\tbuild\nbox\tonline\tgpu\n") "nodes.tsv" =
        .ok [⟨"box", "online", false, []⟩] ∧
      ¬RegistryKept [⟨"n1", "build\nbox", true, ["gpu"]⟩] := by
  have htext : nodesText [⟨"n1", "build\nbox", true, ["gpu"]⟩] =
      "n1\tbuild\nbox\tonline\tgpu\n" := by
    decide +kernel
  have hread : readNodes (filedHost "n1\tbuild\nbox\tonline\tgpu\n") "nodes.tsv" =
      .ok [⟨"box", "online", false, []⟩] := by
    decide +kernel
  refine ⟨⟨by decide, "gpu", by decide⟩, htext, hread, fun hkept => ?_⟩
  obtain ⟨back, hback, hsame⟩ :=
    hkept.reads (filedHost "n1\tbuild\nbox\tonline\tgpu\n") "nodes.tsv"
      ⟨rfl, by rw [htext]; rfl⟩
  rw [hread] at hback
  obtain rfl := Except.ok.inj hback
  rw [List.forall₂_cons] at hsame
  exact absurd hsame.1.id (by decide)

end NodeWe.Cli
