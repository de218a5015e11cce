import NodeWe.ControlPlane.Policy
import NodeWe.UnixPath

/-!
# Paths that the policy allows

`policy_allows_path` compares texts: it takes one `./` off the path and off the entry, and asks
whether what is left of the path is the entry or goes on behind it with a slash. `path_sound` says
what this means for the directories: below any root, the path leads to where the entry leads or
further down.
-/

namespace NodeWe.ControlPlane

open Text UnixPath

/-! ## Segments -/

/-- Splitting at either of two separators is splitting at one, and what is left at the other. -/
theorem splitOnP_or {α : Type*} (p q : α → Bool) (l : List α) :
    l.splitOnP (fun a => p a || q a) = (l.splitOnP p).flatMap (List.splitOnP q) := by
  induction l with
  | nil => rfl
  | cons a l ih =>
    -- The first piece of what follows takes the character in, unless it separates.
    obtain ⟨piece, pieces, hpieces⟩ := List.exists_cons_of_ne_nil (List.splitOnP_ne_nil p l)
    obtain ⟨first, rest, hfirst⟩ := List.exists_cons_of_ne_nil (List.splitOnP_ne_nil q piece)
    rw [hpieces, List.flatMap_cons, hfirst] at ih
    rw [List.splitOnP_cons_eq_if_modifyHead, List.splitOnP_cons_eq_if_modifyHead, ih, hpieces]
    cases hp : p a with
    | true => simp [List.splitOnP_nil, hfirst]
    | false =>
      cases hq : q a <;> simp [List.splitOnP_cons_eq_if_modifyHead, hq, hfirst]

/-- A segment between slashes that has no backslash is one between either. -/
theorem mem_splitOnP_of_mem_splitOn {text segment : List Char} (h : segment ∈ text.splitOn '/')
    (hback : '\\' ∉ segment) : segment ∈ text.splitOnP fun c => c == '/' || c == '\\' := by
  rw [splitOnP_or, List.mem_flatMap]
  refine ⟨segment, h, ?_⟩
  have hsingle : segment.splitOnP (· == '\\') = [segment] :=
    List.splitOnP_eq_singleton fun c hc => beq_eq_false_iff_ne.mpr (ne_of_mem_of_not_mem hc hback)
  rw [hsingle]
  exact List.mem_singleton_self _

/-- The segments of a path between slashes, less the dots. -/
def dotFree (path : String) : List (List Char) :=
  (path.toList.splitOn '/').filter fun segment => segment ≠ ['.']

/-- A leading `./` is a dot. -/
theorem dotFree_stripPrefix (path : String) :
    dotFree ((stripPrefix path "./").getD path) = dotFree path := by
  cases hstrip : stripPrefix path "./" with
  | none => rfl
  | some rest =>
    have hpath : path.toList = ['.'] ++ '/' :: rest.toList := eq_append_of_stripPrefix hstrip
    rw [Option.getD_some, dotFree, dotFree, hpath, List.splitOn_append_cons_self,
      List.filter_append]
    rfl

/-- The components of a path whose segments are neither empty nor lead upwards. -/
theorem names_eq {path : String}
    (h : ∀ segment ∈ dotFree path, segment ≠ [] ∧ segment ≠ ['.', '.']) :
    names path.toList = (dotFree path).map fun segment => .normal (String.ofList segment) := by
  unfold names
  unfold dotFree at h ⊢
  generalize path.toList.splitOn '/' = segments at h ⊢
  induction segments with
  | nil => rfl
  | cons segment segments ih =>
    by_cases hdot : segment = ['.']
    · rw [hdot, List.filter_cons_of_neg (by simp)] at h ⊢
      rw [List.filterMap_cons_none rfl]
      exact ih h
    · rw [List.filter_cons_of_pos (by simpa using hdot)] at h ⊢
      obtain ⟨⟨hempty, hdots⟩, hsegments⟩ := List.forall_mem_cons.mp h
      have hpiece : Component.ofPiece segment = some (.normal (String.ofList segment)) := by
        rw [Component.ofPiece, if_neg (not_or.mpr ⟨hempty, hdot⟩), if_neg hdots]
      rw [List.filterMap_cons_some hpiece, List.map_cons, ih hsegments]

/-! ## Soundness -/

/-- A path lies beneath another one: it is relative, no segment of it between separators of either
kind is empty or leads upwards, its segments less the dots begin with those of the other, and below
any root it leads to where the other leads or further down. -/
structure Beneath (path allowed : String) : Prop where
  relative : path.toList.head? ≠ some '/' ∧ path.toList.head? ≠ some '\\'
  descends : ∀ segment ∈ path.toList.splitOnP fun c => c == '/' || c == '\\',
    segment ≠ [] ∧ segment ≠ ['.', '.']
  under : dotFree allowed <+: dotFree path
  resolves : ∀ root, lexical (join root allowed) <+: lexical (join root path)

/-- The segments of a valid path between slashes are neither empty nor lead upwards. -/
theorem descends_dotFree {path : String}
    (h : ∀ segment ∈ path.toList.splitOnP fun c => c == '/' || c == '\\',
      segment ≠ [] ∧ segment ≠ ['.', '.']) {segment : List Char} (hsegment : segment ∈ dotFree path) :
    segment ≠ [] ∧ segment ≠ ['.', '.'] := by
  have hmem : segment ∈ path.toList.splitOn '/' := List.mem_of_mem_filter hsegment
  constructor
  · rintro rfl
    exact (h _ (mem_splitOnP_of_mem_splitOn hmem (by simp))).1 rfl
  · rintro rfl
    exact (h _ (mem_splitOnP_of_mem_splitOn hmem (by simp))).2 rfl

/-- A path with no empty segment is relative. -/
theorem isAbsolute_eq_false {path : String} (h : [] ∉ dotFree path) : isAbsolute path = false := by
  rw [isAbsolute, beq_eq_false_iff_ne]
  intro hhead
  obtain ⟨rest, hrest⟩ := List.head?_eq_some_iff.mp hhead
  have hsplit : ([] ++ '/' :: rest).splitOn '/' = [[]] ++ rest.splitOn '/' :=
    List.splitOn_append_cons_self [] rest
  refine h ?_
  rw [dotFree, hrest, ← List.nil_append ('/' :: rest), hsplit, List.mem_filter]
  exact ⟨List.mem_append_left _ (List.mem_singleton_self _), by simp⟩

/-- Below any root, a path leads through its segments. -/
theorem lexical_join_dotFree (root : String) {path : String}
    (h : ∀ segment ∈ dotFree path, segment ≠ [] ∧ segment ≠ ['.', '.']) :
    lexical (join root path) =
      lexical root ++ (dotFree path).map fun segment => .normal (String.ofList segment) := by
  have hrelative : isAbsolute path = false := isAbsolute_eq_false fun hmem => (h [] hmem).1 rfl
  calc lexical (join root path)
      = (names path.toList).foldl walk (lexical root) := lexical_join root hrelative
    _ = lexical root ++ names path.toList := by
      refine foldl_walk_normal _ fun component hcomponent => ?_
      rw [names_eq h, List.mem_map] at hcomponent
      obtain ⟨segment, -, rfl⟩ := hcomponent
      exact ⟨_, rfl⟩
    _ = _ := by rw [names_eq h]

/-- A path that the policy allows lies beneath one of its entries. -/
theorem path_sound {path : String} {allowed_paths : List String} (hne : allowed_paths ≠ [])
    (h : policyAllowsPath path allowed_paths = true) :
    ∃ allowed ∈ allowed_paths, Beneath path allowed := by
  obtain ⟨allowed, hallowed, hrelative, hdescends, hunder⟩ := lexicallyUnder_of_allowed h hne
  have hdotFree : dotFree allowed <+: dotFree path := by
    rw [← dotFree_stripPrefix allowed, ← dotFree_stripPrefix path]
    exact hunder.filter _
  have hpath : ∀ segment ∈ dotFree path, segment ≠ [] ∧ segment ≠ ['.', '.'] :=
    fun segment hsegment => descends_dotFree hdescends hsegment
  refine ⟨allowed, hallowed, hrelative, hdescends, hdotFree, fun root => ?_⟩
  -- The segments of the entry are among those of the path.
  rw [lexical_join_dotFree root hpath,
    lexical_join_dotFree root fun segment hsegment => hpath segment (hdotFree.subset hsegment)]
  exact List.prefix_append_right_inj _ |>.mpr (hdotFree.map _)

/-- A path below an allowed directory, written in another way. -/
theorem path_sound_safe : ∃ allowed ∈ ["docs", "./safe"], Beneath "safe/./x" allowed :=
  path_sound (by decide) (by decide)

/-- A directory whose name only begins like an allowed one is refused. -/
example : policyAllowsPath "safe-other/x" ["docs", "./safe"] = false := by decide

end NodeWe.ControlPlane
