import NodeWe.Cli.Registry

/-!
# The file of groups

`nodewe group create` materialises a group: it selects nodes of the registry and writes their
identifiers into the line of the group, separated by commas, and `group run` reads them there. The
writer replaces the separators of the file in an identifier by spaces, and `NodeId::new` lets
identifiers have commas.
-/

namespace NodeWe.Cli

open Text UnixPath NodeRuntime

/-! ## Selecting and writing -/

/-- The identifiers that `--nodes` of a group lists. -/
def explicitNodes (value : String) : List String :=
  ((value.toList.splitOn ',').map trimChars |>.filter (· ≠ [])).map String.ofList

/-- `select_group_nodes`. -/
def selectGroupNodes (entries : List NodeEntry) (explicit_nodes label : Option String) :
    Except String (List String) := do
  ensure (explicit_nodes ≠ none ∨ label ≠ none) "group requires --nodes and/or --label"
  let explicit := (explicit_nodes.map explicitNodes).getD []
  ensure (explicit_nodes = none ∨ explicit ≠ []) "--nodes must contain at least one node id"
  ensure (explicit.all nodeIdAccepts) "invalid node id in group"
  match label with
  | none => .ok ()
  | some label =>
    ensure (((parseLabels label).toOption.bind List.head?) = some label)
      "--label must be a single safe label"
  let selected := ((entries.filter fun entry =>
      explicit_nodes = none ∨ explicit.contains entry.id).filter fun entry =>
      label = none ∨ ∃ value ∈ entry.labels, some value = label).map NodeEntry.id
  ensure (selected ≠ []) "group selector matched no nodes"
  .ok selected

/-- A member of a group in `write_groups`. -/
def plainMember (node : String) : String :=
  String.ofList (node.toList.map fun c => if [',', '\t', '\n'].contains c then ' ' else c)

/-- The line of a group in `write_groups`. -/
def groupLine (group : String × List String) : String :=
  spaced '\t' group.1 ++ "\t" ++ ",".intercalate (group.2.map plainMember) ++ "\n"

/-- The text that `write_groups` writes. -/
def groupsText (groups : List (String × List String)) : String := String.join (groups.map groupLine)

/-! ## What is read of a group -/

/-- A group whose identifier and members are accepted. -/
structure AcceptedGroup (group : String × List String) : Prop where
  id : nodeIdAccepts group.1 = true
  members : ∀ node ∈ group.2, nodeIdAccepts node = true

/-- What `read_groups` makes of the line of a group. -/
def readBackGroup (group : String × List String) : String × List String :=
  (group.1, group.2.map plainMember)

variable {group : String × List String} {groups : List (String × List String)}

/-- A list is mapped to itself when each of its items is. -/
theorem map_eq_self_iff {α : Type} {f : α → α} {l : List α} :
    l.map f = l ↔ ∀ a ∈ l, f a = a := by
  have hid : l.map f = l ↔ l.map f = l.map fun a => a := by rw [List.map_id']
  rw [hid, List.map_inj_left]

/-- The separators of the file are replaced in a member. -/
theorem not_mem_plainMember {c : Char} (hc : c = ',' ∨ c = '\t' ∨ c = '\n') (node : String) :
    c ∉ (plainMember node).toList := by
  rw [plainMember, String.toList_ofList, List.mem_map]
  rintro ⟨d, -, hd⟩
  split_ifs at hd with h
  · rw [← hd] at hc
    revert hc
    decide
  · rw [hd] at h
    exact h (by rcases hc with rfl | rfl | rfl <;> decide)

/-- An accepted member is written as it is exactly when it has no comma. -/
theorem plainMember_eq_iff {node : String} (h : nodeIdAccepts node = true) :
    plainMember node = node ↔ ',' ∉ node.toList := by
  constructor
  · intro heq
    rw [← heq]
    exact not_mem_plainMember (.inl rfl) node
  · intro hcomma
    have hkept : ∀ c ∈ node.toList, [',', '\t', '\n'].contains c = false := by
      intro c hc
      have hgraphic := (graphic_of_accepted h).2 c hc
      simp only [List.contains_cons, List.contains_nil, Bool.or_eq_false_iff, beq_eq_false_iff_ne]
      refine ⟨?_, ?_, ?_, trivial⟩
      · rintro rfl
        exact hcomma hc
      · rintro rfl
        revert hgraphic
        decide
      · rintro rfl
        revert hgraphic
        decide
    have hmap : node.toList.map (fun c => if [',', '\t', '\n'].contains c then ' ' else c) =
        node.toList.map id :=
      List.map_congr_left fun c hc => if_neg (by rw [hkept c hc]; exact Bool.false_ne_true)
    rw [plainMember, hmap, List.map_id, String.ofList_toList]

/-- A character of a written member is a space or one of the member. -/
theorem mem_plainMember {node : String} {c : Char} (h : c ∈ (plainMember node).toList) :
    c = ' ' ∨ c ∈ node.toList := by
  rw [plainMember, String.toList_ofList, List.mem_map] at h
  obtain ⟨d, hd, hc⟩ := h
  split_ifs at hc
  · exact .inl hc.symm
  · exact .inr (hc ▸ hd)

/-- A written member is not empty. -/
theorem plainMember_ne_empty {node : String} (h : node ≠ "") : (plainMember node).toList ≠ [] := by
  rw [plainMember, String.toList_ofList, Ne, List.map_eq_nil_iff, String.toList_eq_nil_iff]
  exact h

/-- The members of a group, as they are written. -/
def memberChars (group : String × List String) : List Char :=
  [','].intercalate ((group.2.map plainMember).map String.toList)

/-- The line of a group is its identifier, a tab, its members and a line feed. -/
theorem toList_groupLine (h : AcceptedGroup group) :
    (groupLine group).toList = (group.1.toList ++ '\t' :: memberChars group) ++ ['\n'] := by
  have htab : '\t' ∉ group.1.toList :=
    not_mem_of_graphic (graphic_of_accepted h.id).2 (by decide)
  have hcomma : ",".toList = [','] := rfl
  rw [groupLine, spaced_of_not_mem htab, String.toList_append, String.toList_append,
    String.toList_append, String.toList_intercalate, hcomma, memberChars, List.append_assoc]
  simp

/-- The members have no line end of the file. -/
theorem AcceptedGroup.not_mem_memberChars (h : AcceptedGroup group) {c : Char}
    (hc : c = '\n' ∨ c = '\r') : c ∉ memberChars group := by
  have hgraphic : isAsciiGraphic c = false := by
    rcases hc with rfl | rfl <;> decide
  intro hmem
  rcases mem_intercalate hmem with rfl | ⟨piece, hpiece, hmem⟩
  · exact absurd hc (by decide)
  · obtain ⟨member, hmember, rfl⟩ := List.mem_map.mp hpiece
    obtain ⟨node, hnode, rfl⟩ := List.mem_map.mp hmember
    rcases mem_plainMember hmem with rfl | hmem
    · exact absurd hc (by decide)
    · exact not_mem_of_graphic (graphic_of_accepted (h.members node hnode)).2 hgraphic hmem

/-- The members are the pieces between the commas. -/
theorem AcceptedGroup.splitOn_memberChars (h : AcceptedGroup group) :
    (((memberChars group).splitOn ',').filter (· ≠ [])).map String.ofList =
      group.2.map plainMember := by
  by_cases hnone : group.2 = []
  · rw [memberChars, hnone]
    rfl
  · have hcommas : ∀ piece ∈ (group.2.map plainMember).map String.toList, ',' ∉ piece := by
      rw [List.forall_mem_map, List.forall_mem_map]
      exact fun node _ => not_mem_plainMember (.inl rfl) node
    have hsplit : (memberChars group).splitOn ',' = (group.2.map plainMember).map String.toList :=
      List.splitOn_intercalate ',' hcommas (by simpa using hnone)
    have hkept : ((group.2.map plainMember).map String.toList).filter (· ≠ []) =
        (group.2.map plainMember).map String.toList := by
      rw [List.filter_eq_self, List.forall_mem_map, List.forall_mem_map]
      intro node hnode
      exact decide_eq_true (plainMember_ne_empty (graphic_of_accepted (h.members node hnode)).1)
    rw [hsplit, hkept, List.map_map, map_eq_self_iff]
    exact fun node _ => String.ofList_toList

/-- **Each group is read as one group.** -/
theorem filterMap_groupLine (h : AcceptedGroup group) (rest : List Char) :
    (lines ((groupLine group).toList ++ rest)).filterMap groupOf =
      readBackGroup group :: (lines rest).filterMap groupOf := by
  have hid := graphic_of_accepted h.id
  have htab : '\t' ∉ group.1.toList := not_mem_of_graphic hid.2 (by decide)
  have hfeed : '\n' ∉ group.1.toList ++ '\t' :: memberChars group := by
    rw [List.mem_append, List.mem_cons, not_or, not_or]
    exact ⟨not_mem_of_graphic hid.2 (by decide), by decide, h.not_mem_memberChars (.inl rfl)⟩
  have hreturn : stripCr (group.1.toList ++ '\t' :: memberChars group) =
      group.1.toList ++ '\t' :: memberChars group :=
    stripCr_of_not_mem group.1.toList rfl (by decide) (h.not_mem_memberChars (.inr rfl))
  have hgroup : groupOf (group.1.toList ++ '\t' :: memberChars group) =
      some (readBackGroup group) := by
    rw [groupOf, splitOnce_cons htab, Option.map_some, readBackGroup, ← h.splitOn_memberChars]
    dsimp only
    rw [String.ofList_toList]
  rw [toList_groupLine h, List.append_assoc, List.singleton_append, lines_append_feed,
    List.splitOn_eq_singleton hfeed, List.map_singleton, hreturn, List.singleton_append,
    List.filterMap_cons_some hgroup]

/-- `read_groups` behind `write_groups`. -/
theorem readGroups_groupsText {host : Host} {path : String}
    (h : ∀ group ∈ groups, AcceptedGroup group) (hfile : Holds host path (groupsText groups)) :
    readGroups host path = .ok (groups.map readBackGroup) := by
  have htext : (lines (groupsText groups).toList).filterMap groupOf =
      groups.map readBackGroup := by
    rw [groupsText, String.toList_join]
    clear hfile
    induction groups with
    | nil => rfl
    | cons group rest ih =>
      rw [List.forall_mem_cons] at h
      rw [List.map_cons, List.flatMap_cons, filterMap_groupLine h.1, ih h.2, List.map_cons]
  rw [readGroups, if_pos hfile.exists_file, hfile.reads, ← htext]
  rfl

/-! ## The groups that are kept -/

/-- The file keeps some groups: they are read as they were written, and a group run runs on the
members of its group. -/
structure GroupsKept (groups : List (String × List String)) : Prop where
  reads : ∀ host path, Holds host path (groupsText groups) → readGroups host path = .ok groups
  runs : ∀ host args dir plan, stateDir host = .ok dir →
    Holds host (join dir "groups.tsv") (groupsText groups) → planGroupRun host args = .ok plan →
    groups.find? (fun group => group.1 = plan.group_id) = some (plan.group_id, plan.nodes)

/-- A group run runs on the nodes of a group of the file. -/
theorem planGroupRun_find {host : Host} {args : List String} {plan : GroupRun} {dir : String}
    (h : planGroupRun host args = .ok plan) (hdir : stateDir host = .ok dir) :
    ∃ groups, readGroups host (join dir "groups.tsv") = .ok groups ∧
      groups.find? (fun group => group.1 = plan.group_id) = some (plan.group_id, plan.nodes) := by
  simp only [planGroupRun, bind_eq_ok_iff, okOr_eq_ok] at h
  obtain ⟨group_id, -, scope_path, -, -, -, command, -, -, -, dir', hdir', groups, hread, group,
    hfound, -, -, h⟩ := h
  obtain rfl := Except.ok.inj (hdir.symm.trans hdir')
  obtain rfl := Except.ok.inj h
  refine ⟨groups, hread, ?_⟩
  have hid : group.1 = group_id := by simpa using List.find?_some hfound
  rw [hfound, ← hid]

/-- **The file keeps the groups whose members have no comma**, and no others. -/
theorem groups_kept_iff (h : ∀ group ∈ groups, AcceptedGroup group) :
    GroupsKept groups ↔ ∀ group ∈ groups, ∀ node ∈ group.2, ',' ∉ node.toList := by
  -- Only the members can change on the way through the file: the group's own name is checked.
  have hsame : groups.map readBackGroup = groups ↔
      ∀ group ∈ groups, ∀ node ∈ group.2, ',' ∉ node.toList := by
    rw [map_eq_self_iff]
    refine forall₂_congr fun group hgroup => ?_
    rw [readBackGroup, Prod.ext_iff, and_iff_right rfl, map_eq_self_iff]
    exact forall₂_congr fun node hnode => plainMember_eq_iff ((h group hgroup).members node hnode)
  constructor
  · intro hkept
    have hholds : Holds (filedHost (groupsText groups)) "groups.tsv" (groupsText groups) :=
      ⟨rfl, rfl⟩
    have hread := hkept.reads _ _ hholds
    rw [readGroups_groupsText h hholds] at hread
    exact hsame.mp (Except.ok.inj hread)
  · intro hcommas
    have hreads {host : Host} {path : String} (hholds : Holds host path (groupsText groups)) :
        readGroups host path = .ok groups := by
      rw [readGroups_groupsText h hholds, hsame.mpr hcommas]
    refine ⟨fun host path hholds => hreads hholds, ?_⟩
    intro host args dir plan hdir hholds hplan
    obtain ⟨found, hfound, hnodes⟩ := planGroupRun_find hplan hdir
    rw [hreads hholds] at hfound
    obtain rfl := Except.ok.inj hfound
    exact hnodes

/-- A group that the file keeps. -/
theorem groups_kept_plain : GroupsKept [("g1", ["n1", "n2"])] := by
  refine (groups_kept_iff ?_).mpr ?_
  · rw [List.forall_mem_singleton]
    exact ⟨by decide, by decide⟩
  · decide

/-- A node whose identifier has a comma is selected by its label, and another member is read: the
identifier with a blank in place of the comma. -/
theorem group_redirected :
    selectGroupNodes [⟨"n1,n2", "n1,n2", true, ["gpu"]⟩] none (some "gpu") = .ok ["n1,n2"] ∧
      AcceptedGroup ("g1", ["n1,n2"]) ∧
      readGroups (filedHost (groupsText [("g1", ["n1,n2"])])) "groups.tsv" =
        .ok [("g1", ["n1 n2"])] ∧
      ¬GroupsKept [("g1", ["n1,n2"])] := by
  have hread : readGroups (filedHost (groupsText [("g1", ["n1,n2"])])) "groups.tsv" =
      .ok [("g1", ["n1 n2"])] := by
    decide +kernel
  refine ⟨by decide +kernel, ⟨by decide, by decide⟩, hread, fun hkept => ?_⟩
  have hkept' := hkept.reads (filedHost (groupsText [("g1", ["n1,n2"])])) "groups.tsv" ⟨rfl, rfl⟩
  rw [hread] at hkept'
  exact absurd (Except.ok.inj hkept') (by decide)

end NodeWe.Cli
