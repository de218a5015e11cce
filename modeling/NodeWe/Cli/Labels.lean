import NodeWe.Cli.GroupRegistry
import NodeWe.NodeRuntime.Agent

/-!
# Labels of nodes

Three programs check the labels of a node. Each takes a list apart at its commas, trims the labels
and skips the empty ones, and looks at their length and their characters. The control plane and the
agent allow a plus sign where the command line allows a colon, so `same_syntax_iff` comes down to
these two characters.
-/

namespace NodeWe.Cli

open Text

/-! ## One label -/

/-- The labels in a list of labels. -/
def labelItems (value : String) : List (List Char) :=
  ((value.toList.splitOn ',').map trimChars).filter (· ≠ [])

/-- A label of at most 64 bytes, of letters, digits, and the characters `_`, `-`, `.` and one
other. -/
def Allowed (other : Char) (item : List Char) : Prop :=
  len (String.ofList item) ≤ 64 ∧
    ∀ c ∈ item, (c.isAlphanum || ['_', '-', '.', other].contains c) = true

/-- The characters that one of the programs allows. -/
def isLabelChar (c : Char) : Bool := c.isAlphanum || ['_', '-', '.', ':', '+'].contains c

/-- A label of at most 64 bytes, of such characters. -/
def Plausible (item : List Char) : Prop :=
  len (String.ofList item) ≤ 64 ∧ ∀ c ∈ item, isLabelChar c = true

variable {value : String} {item : List Char} {c : Char}

section Alphabets

variable {kept dropped : Char} (hpair : kept = ':' ∧ dropped = '+' ∨ kept = '+' ∧ dropped = ':')
include hpair

/-- What one of the two alphabets has is in the larger one, and not the character that only the
other has. -/
theorem allowedChar_iff : (c.isAlphanum || ['_', '-', '.', kept].contains c) = true ↔
    isLabelChar c = true ∧ c ≠ dropped := by
  rw [isLabelChar]
  simp only [Bool.or_eq_true, List.contains_iff_mem, List.mem_cons, List.not_mem_nil, or_false]
  constructor
  · intro h
    constructor
    · rcases hpair with ⟨rfl, -⟩ | ⟨rfl, -⟩ <;> tauto
    · rintro rfl
      revert h
      rcases hpair with ⟨rfl, rfl⟩ | ⟨rfl, rfl⟩ <;> decide
  · rintro ⟨h, hne⟩
    rcases hpair with ⟨rfl, rfl⟩ | ⟨rfl, rfl⟩ <;> tauto

/-- So a label is allowed when it is plausible and does not have that character. -/
theorem allowed_iff : Allowed kept item ↔ Plausible item ∧ dropped ∉ item := by
  rw [Allowed, Plausible, and_assoc, and_congr_right_iff]
  intro _
  simp only [allowedChar_iff hpair, imp_and, forall_and, and_congr_right_iff]
  exact fun _ => ⟨fun h hmem => h dropped hmem rfl, fun h c hc heq => h (heq ▸ hc)⟩

end Alphabets

/-- A character of a label has one byte. -/
theorem size_of_label (h : isLabelChar c = true) : c.utf8Size = 1 := by
  by_cases hplus : c = '+'
  · rw [hplus]
    rfl
  · have hsafe := (allowedChar_iff (.inl ⟨rfl, rfl⟩)).mpr ⟨h, hplus⟩
    have hgraphic := (graphic_of_safe hsafe).1
    rw [isAsciiGraphic, Bool.and_eq_true, decide_eq_true_eq, decide_eq_true_eq] at hgraphic
    rw [Char.utf8Size_eq_one_iff, UInt32.le_iff_toNat_le]
    have hcode : c.toNat = c.val.toNat := rfl
    have hbound : (127 : UInt32).toNat = 127 := rfl
    omega

/-- So such a label has as many bytes as characters. -/
theorem len_of_label (h : ∀ c ∈ item, isLabelChar c = true) :
    len (String.ofList item) = item.length := by
  have hsizes : ∀ c ∈ item, c.utf8Size = 1 := fun c hc => size_of_label (h c hc)
  rw [len_ofList, List.map_congr_left hsizes, List.map_const', List.sum_replicate, smul_eq_mul,
    mul_one]

/-- A label of the command line is one that `parse_labels` keeps. -/
theorem safeLabel_of_allowed (hne : item ≠ []) (h : Allowed ':' item) :
    SafeLabel (String.ofList item) where
  ne_empty := by rwa [Ne, String.ofList_eq_empty_iff]
  len_le := h.1
  safe := by
    rw [String.toList_ofList]
    exact h.2

/-! ## A list of labels -/

/-- `parse_labels` accepts the lists of its labels. -/
theorem collectLabels_isSome_iff {labels : List String} {pieces : List (List Char)} :
    (collectLabels labels pieces).isSome = true ↔
      ∀ item ∈ (pieces.map trimChars).filter (· ≠ []), Allowed ':' item := by
  induction pieces generalizing labels with
  | nil => exact iff_of_true rfl (List.forall_mem_nil _)
  | cons piece rest ih =>
    have hempty : String.ofList (trimChars piece) = "" ↔ trimChars piece = [] :=
      String.ofList_eq_empty_iff
    rw [collectLabels, List.map_cons, List.filter_cons]
    by_cases hnone : trimChars piece = []
    · rw [if_pos (hempty.mpr hnone), if_neg (by simp [hnone]), ih]
    · have hallowed : (64 < len (String.ofList (trimChars piece)) ||
          !(String.ofList (trimChars piece)).toList.all fun c =>
            c.isAlphanum || ['_', '-', '.', ':'].contains c) = true ↔
          ¬Allowed ':' (trimChars piece) := by
        rw [Allowed, Bool.or_eq_true, decide_eq_true_eq, Bool.not_eq_true', ← Bool.not_eq_true,
          List.all_eq_true, String.toList_ofList, not_and_or, Nat.not_le]
      have hkept : decide (trimChars piece ≠ []) = true := decide_eq_true hnone
      rw [if_neg (mt hempty.mp hnone), hkept, if_pos rfl, List.forall_mem_cons]
      by_cases hok : Allowed ':' (trimChars piece)
      · rw [if_neg (fun h => hallowed.mp h hok), ih, and_iff_right hok]
      · rw [if_pos (hallowed.mpr hok)]
        exact iff_of_false Bool.false_ne_true fun h => hok h.1

/-- The command line accepts a list of labels that it allows. -/
theorem parseLabels_ok_iff : (∃ labels, parseLabels value = .ok labels) ↔
    ∀ item ∈ labelItems value, Allowed ':' item := by
  simp only [parseLabels, okOr_eq_ok]
  rw [← Option.isSome_iff_exists, collectLabels_isSome_iff, labelItems]

/-- The agent accepts a list of labels that it allows. -/
theorem agent_validLabels_iff : NodeRuntime.validLabels value = true ↔
    ∀ item ∈ labelItems value, Allowed '+' item := by
  rw [NodeRuntime.validLabels, labelItems, List.filter_map, List.forall_mem_map, List.all_eq_true]
  refine forall₂_congr fun piece _ => ?_
  rw [Bool.and_eq_true, decide_eq_true_eq, List.all_eq_true, Allowed]

/-- So does the control plane, which counts characters in place of bytes once it knows them. -/
theorem controlPlane_validLabels_iff : ControlPlane.validLabels value = true ↔
    ∀ item ∈ labelItems value, Allowed '+' item := by
  rw [ControlPlane.validLabels, List.all_eq_true]
  refine forall₂_congr fun item _ => ?_
  rw [Bool.and_eq_true, decide_eq_true_eq, List.all_eq_true, Allowed, and_congr_left_iff]
  intro hall
  rw [len_of_label fun c hc => ((allowedChar_iff (.inr ⟨rfl, rfl⟩)).mp (hall c hc)).1]

/-- A character that is neither white space nor a comma is in a list when it is in a label. -/
theorem mem_labelItems_iff (value : String) (hblank : isWhitespace c = false) (hcomma : c ≠ ',') :
    (∃ item ∈ labelItems value, c ∈ item) ↔ c ∈ value.toList := by
  constructor
  · rintro ⟨item, hitem, hc⟩
    obtain ⟨piece, hpiece, rfl⟩ := List.mem_map.mp (List.mem_of_mem_filter hitem)
    exact (sublist_of_mem_splitOn hpiece).subset ((mem_trimChars_iff hblank).mp hc)
  · intro hc
    have hwhole : [','].intercalate (value.toList.splitOn ',') = value.toList :=
      List.intercalate_splitOn ','
    rw [← hwhole] at hc
    obtain ⟨piece, hpiece, hc⟩ := (mem_intercalate hc).resolve_left hcomma
    have htrim : c ∈ trimChars piece := (mem_trimChars_iff hblank).mpr hc
    refine ⟨trimChars piece, List.mem_filter.mpr ⟨List.mem_map_of_mem hpiece, ?_⟩, htrim⟩
    exact decide_eq_true (List.ne_nil_of_mem htrim)

/-- The characters that only one kind of programs allows are in a list when they are in a label. -/
theorem forall_not_mem_iff (value : String) (hpair : c = ':' ∨ c = '+') :
    (∀ item ∈ labelItems value, c ∉ item) ↔ c ∉ value.toList := by
  have hblank : isWhitespace c = false := by rcases hpair with rfl | rfl <;> rfl
  have hcomma : c ≠ ',' := by rcases hpair with rfl | rfl <;> decide
  rw [← mem_labelItems_iff value hblank hcomma]
  simp only [not_exists, not_and]

/-! ## The three programs -/

/-- What it takes for the programs to agree on a list of labels. -/
structure SameSyntax (value : String) : Prop where
  /-- The command line accepts the list when the control plane does. -/
  cli : (∃ labels, parseLabels value = .ok labels) ↔ ControlPlane.validLabels value = true
  /-- The agent accepts the list when the control plane does. -/
  agent : NodeRuntime.validLabels value = true ↔ ControlPlane.validLabels value = true
  /-- A label that the control plane stores selects the nodes that have it. -/
  selectable : ControlPlane.validLabels value = true → ∀ item ∈ labelItems value,
    ∀ entries : List NodeEntry, ∀ entry ∈ entries, String.ofList item ∈ entry.labels →
      ∃ selected, selectGroupNodes entries none (some (String.ofList item)) = .ok selected ∧
        entry.id ∈ selected

/-- A label that the command line allows is parsed as itself. -/
theorem parseLabels_single (hne : item ≠ []) (h : Allowed ':' item) :
    parseLabels (String.ofList item) = .ok [String.ofList item] := by
  have hsafe := safeLabel_of_allowed hne h
  have hcomma : ',' ∉ item := fun hmem => (graphic_of_safe (h.2 ',' hmem)).2 rfl
  have hcollect := collectLabels_cons hsafe List.not_mem_nil []
  rw [String.toList_ofList] at hcollect
  rw [parseLabels, okOr_eq_ok, String.toList_ofList, List.splitOn_eq_singleton hcomma, hcollect]
  rfl

/-- So it can be used to select nodes. -/
theorem selectGroupNodes_label (hne : item ≠ []) (h : Allowed ':' item)
    {entries : List NodeEntry} {entry : NodeEntry} (hentry : entry ∈ entries)
    (hlabel : String.ofList item ∈ entry.labels) :
    ∃ selected, selectGroupNodes entries none (some (String.ofList item)) = .ok selected ∧
      entry.id ∈ selected := by
  have hsingle : ((parseLabels (String.ofList item)).toOption.bind List.head?) =
      some (String.ofList item) := by
    rw [parseLabels_single hne h]
    rfl
  have hselected : entry.id ∈ (entries.filter fun entry =>
      decide (some (String.ofList item) = none ∨
        ∃ value ∈ entry.labels, some value = some (String.ofList item))).map NodeEntry.id := by
    refine List.mem_map_of_mem (List.mem_filter.mpr ⟨hentry, decide_eq_true ?_⟩)
    exact .inr ⟨_, hlabel, rfl⟩
  refine ⟨_, ?_, hselected⟩
  -- No node is named, so that the filter on the names keeps all of them.
  have hall (explicit : List String) : (entries.filter fun entry =>
      decide ((none : Option String) = none ∨ explicit.contains entry.id = true)) = entries :=
    List.filter_eq_self.mpr fun _ _ => decide_eq_true (.inl rfl)
  have hnonempty := List.ne_nil_of_mem hselected
  have hpass {p : Prop} [Decidable p] {error : String} (h : p) : ensure p error = .ok () :=
    ensure_eq_ok.mpr h
  unfold selectGroupNodes
  dsimp only
  rw [hpass (.inr (Option.some_ne_none _)), hpass (.inl rfl), hpass (by rfl), hpass hsingle, hall,
    hpass hnonempty]
  rfl

/-- **The programs agree on a list of labels** that none of them accepts, or that has both of the
characters on which they differ, or neither. -/
theorem same_syntax_iff (value : String) : SameSyntax value ↔
    (∃ item ∈ labelItems value, ¬Plausible item) ∨
      (':' ∈ value.toList ↔ '+' ∈ value.toList) := by
  have hcolon := forall_not_mem_iff value (.inl rfl)
  have hplus := forall_not_mem_iff value (.inr rfl)
  have hline : (∃ labels, parseLabels value = .ok labels) ↔
      (∀ item ∈ labelItems value, Plausible item) ∧ '+' ∉ value.toList := by
    rw [parseLabels_ok_iff, ← hplus, ← forall₂_and]
    exact forall₂_congr fun item _ => allowed_iff (.inl ⟨rfl, rfl⟩)
  have hothers : (∀ item ∈ labelItems value, Allowed '+' item) ↔
      (∀ item ∈ labelItems value, Plausible item) ∧ ':' ∉ value.toList := by
    rw [← hcolon, ← forall₂_and]
    exact forall₂_congr fun item _ => allowed_iff (.inr ⟨rfl, rfl⟩)
  constructor
  · intro h
    have hcli := h.cli
    rw [hline, controlPlane_validLabels_iff, hothers] at hcli
    by_cases hall : ∀ item ∈ labelItems value, Plausible item
    · rw [and_iff_right hall, and_iff_right hall, not_iff_not] at hcli
      exact .inr hcli.symm
    · simp only [not_forall, exists_prop] at hall
      exact .inl hall
  · intro h
    have hcli : (∃ labels, parseLabels value = .ok labels) ↔
        ControlPlane.validLabels value = true := by
      rw [hline, controlPlane_validLabels_iff, hothers]
      rcases h with ⟨item, hitem, hnot⟩ | hboth
      · exact iff_of_false (fun h => hnot (h.1 item hitem)) fun h => hnot (h.1 item hitem)
      · rw [hboth]
    refine ⟨hcli, agent_validLabels_iff.trans controlPlane_validLabels_iff.symm, ?_⟩
    -- A stored label was accepted by the control plane, so that the command line accepts it too.
    intro hvalid item hitem entries entry hentry hlabel
    have hallowed := parseLabels_ok_iff.mp (hcli.mpr hvalid) item hitem
    have hne : item ≠ [] := of_decide_eq_true (List.mem_filter.mp hitem).2
    exact selectGroupNodes_label hne hallowed hentry hlabel

/-- The list that the control plane's own test accepts is refused by the command line, and a list
with a colon is accepted by the command line only. -/
theorem labels_differ :
    ControlPlane.validLabels "gpu,lab-1,arm64+cuda" = true ∧
      NodeRuntime.validLabels "gpu,lab-1,arm64+cuda" = true ∧
      parseLabels "gpu,lab-1,arm64+cuda" =
        .error "labels must be comma-separated safe identifiers" ∧
      selectGroupNodes [⟨"n1", "n1", true, ["arm64+cuda"]⟩] none (some "arm64+cuda") =
        .error "--label must be a single safe label" ∧
      parseLabels "zone:a" = .ok ["zone:a"] ∧ ControlPlane.validLabels "zone:a" = false ∧
      ¬SameSyntax "gpu,lab-1,arm64+cuda" ∧ ¬SameSyntax "zone:a" := by
  have hserver : ControlPlane.validLabels "gpu,lab-1,arm64+cuda" = true := by decide +kernel
  have hrefused : parseLabels "gpu,lab-1,arm64+cuda" =
      .error "labels must be comma-separated safe identifiers" := by decide +kernel
  have hline : parseLabels "zone:a" = .ok ["zone:a"] := by decide +kernel
  have hserver' : ControlPlane.validLabels "zone:a" = false := by decide +kernel
  refine ⟨hserver, by decide +kernel, hrefused, by decide +kernel, hline, hserver', ?_, ?_⟩
  · intro h
    obtain ⟨labels, hlabels⟩ := h.cli.mpr hserver
    rw [hrefused] at hlabels
    cases hlabels
  · intro h
    have hvalid := h.cli.mp ⟨_, hline⟩
    rw [hserver'] at hvalid
    cases hvalid

end NodeWe.Cli
