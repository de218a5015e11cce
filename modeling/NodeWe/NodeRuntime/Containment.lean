import NodeWe.FileTree
import NodeWe.NodeRuntime.Scope

/-!
# Containment of scopes

`Scope::resolve` on a tree of directories, files and symbolic links. The check for links asks about
the path as it is written, so a link whose name is followed by a slash is looked through and not
seen; when it leads to no directory the path is taken for one that is yet to be made.
`resolve_contained_iff` says that nothing else gets past the check.
-/

namespace NodeWe.NodeRuntime

open Text UnixPath FileTree

/-- What the queries of a path answer on a tree. -/
def fileSystemOf (view : View) : FileSystem where
  isDir := fun path => view.stat path = some .dir
  isFile := fun path => (view.stat path).any fun entry => entry ≠ .dir
  pathExists := fun path => (view.stat path).isSome
  canonicalize := view.realpath
  symlinkMetadata := fun path => (view.lstat path).map Entry.isLink

/-- The path that a request stands for, as it is written. -/
def Scope.candidate (scope : Scope) (requested : String) : String :=
  if isAbsolute requested then requested else join scope.root requested

/-- A place is confined to a root: its path is canonical up to the last name, nothing that stands on
the way is a link, and it is the root or below, wherever its path leads. -/
structure Confined (view : View) (root place : Place) : Prop where
  plain : ∀ name ∈ place, Plain name
  canonical : view.realpath (render place.dropLast) = some (render place.dropLast)
  no_link : ∀ front target, front <+: place → view.tree.entry front ≠ some (.link target)
  inside : root <+: place
  denotes : ∀ found, view.lookup (render place) = some found → found = place

/-- A path is contained in a scope: it is the absolute path of a place that is confined to the
root. -/
structure Contained (view : View) (scope : Scope) (path : String) : Prop where
  absolute : isAbsolute path = true
  place : ∃ root place, scope.root = render root ∧ path = render place ∧ Confined view root place

/-- A path slips through: it ends with a slash, leads nowhere, and passes the check; and its last
name is that of a link within the scope. -/
structure Slips (view : View) (scope : Scope) (candidate : String) : Prop where
  endsOpen : EndsOpen candidate
  dangles : view.stat candidate = none
  passes : scope.rejectSymlinkComponents (fileSystemOf view) candidate = .ok ()
  link : ∃ above place name target, parent candidate = some above ∧
    view.lookup above = some place ∧ fileName candidate = some name ∧
    view.tree.entry (place ++ [name]) = some (.link target) ∧
    startsWithPath (render (place ++ [name])) scope.root = true

variable {fs : FileSystem} {before view : View} {scope : Scope}
  {directory requested candidate path : String}

/-! ## The steps of `resolve` -/

/-- `resolve` succeeds when the candidate passes the check and stands for a path inside the root. -/
theorem resolve_eq_ok_iff :
    scope.resolve fs requested = .ok path ↔
      scope.rejectSymlinkComponents fs (scope.candidate requested) = .ok () ∧
        resolveCandidate fs (scope.candidate requested) = .ok path ∧
        (samePath path scope.root || startsWithPath path scope.root) = true := by
  rw [Scope.resolve, bind_eq_ok_iff]
  simp only [bind_eq_ok_iff]
  constructor
  · rintro ⟨_, hpasses, resolved, hresolved, hinside⟩
    split_ifs at hinside with hroot
    obtain rfl := Except.ok.inj hinside
    exact ⟨hpasses, hresolved, hroot⟩
  · rintro ⟨hpasses, hresolved, hroot⟩
    exact ⟨(), hpasses, path, hresolved, if_pos hroot⟩

/-- The root of a scope is the path of a place. -/
theorem root_of_new (h : Scope.new (fileSystemOf before) directory = .ok scope) :
    ∃ root, scope.root = render root ∧ ∀ name ∈ root, Plain name := by
  unfold Scope.new at h
  split_ifs at h
  split at h
  · cases h
  · next root hroot =>
    obtain rfl := Except.ok.inj h
    obtain ⟨place, hplace, hrender⟩ := Option.map_eq_some_iff.mp hroot
    exact ⟨place, hrender.symm, plain_of_stands (View.lookup_stands hplace)⟩

/-- A path that starts with a root has its text in front, or is that of another absolute path. -/
theorem isAbsolute_candidate (requested : String) {root : Place}
    (hroot : scope.root = render root) :
    isAbsolute (scope.candidate requested) = true := by
  have hhead (more : String) : isAbsolute (scope.root ++ more) = true := by
    rw [isAbsolute, String.toList_append, hroot, render, String.toList_ofList]
    rfl
  unfold Scope.candidate
  split_ifs with habsolute
  · exact habsolute
  · unfold join
    split_ifs
    · exact hhead _
    · rw [String.append_assoc]
      exact hhead _

/-- A path whose last name is seen to be that of a link does not pass the check. -/
theorem not_passes_of_link {entry : Entry} (h : view.lstat candidate = some entry)
    (hlink : entry.isLink = true) :
    scope.rejectSymlinkComponents (fileSystemOf view) candidate ≠ .ok () := by
  have hmetadata : (fileSystemOf view).symlinkMetadata candidate = some true := by
    show (view.lstat candidate).map Entry.isLink = some true
    rw [h, Option.map_some, hlink]
  rw [Scope.rejectSymlinkComponents_eq, if_pos hmetadata]
  exact fun hok => by cases hok

/-- A path whose components are inside a root is the root or starts with it. -/
theorem inside_iff {root place : Place} (hroot : scope.root = render root)
    (hplain : ∀ name ∈ root, Plain name) (hplace : ∀ name ∈ place, Plain name) :
    (samePath (render place) scope.root || startsWithPath (render place) scope.root) = true ↔
      root <+: place := by
  rw [hroot, Bool.or_eq_true, startsWithPath_render hplace hplain, or_iff_right_iff_imp]
  intro hsame
  rw [samePath, beq_iff_eq, components_render hplace, components_render hplain,
    List.cons.injEq] at hsame
  rw [List.map_injective_iff.mpr (fun _ _ => Component.normal.inj) hsame.2]

/-- Where a lookup ends is confined to every root above it. -/
theorem confined_of_stands {root place : Place} (hstands : Stands view.tree place)
    (hinside : root <+: place) : Confined view root place := by
  have habove : Stands view.tree place.dropLast :=
    stands_of_prefix hstands (List.dropLast_prefix place)
  have hlinks : ∀ front target, front <+: place → view.tree.entry front ≠ some (.link target) := by
    intro front target hfront hlink
    obtain ⟨entry, hentry, hnot⟩ := stands_of_prefix hstands hfront
    obtain rfl := Option.some.inj (hentry.symm.trans hlink)
    cases hnot
  exact ⟨plain_of_stands hstands, View.realpath_render habove, hlinks, hinside,
    fun found => View.place_of_lookup_render (plain_of_stands hstands) hlinks⟩

/-- So is a name there that is no link. -/
theorem confined_of_name {root place : Place} {name : String} (hstands : Stands view.tree place)
    (hname : Plain name) (hlink : ∀ target, view.tree.entry (place ++ [name]) ≠ some (.link target))
    (hinside : root <+: place ++ [name]) : Confined view root (place ++ [name]) := by
  have hplain : ∀ name' ∈ place ++ [name], Plain name' := by
    rw [List.forall_mem_append, List.forall_mem_singleton]
    exact ⟨plain_of_stands hstands, hname⟩
  have hlinks : ∀ front target, front <+: place ++ [name] →
      view.tree.entry front ≠ some (.link target) := by
    intro front target hfront hfound
    rcases List.prefix_concat_iff.mp hfront with rfl | hfront
    · exact hlink target hfound
    · obtain ⟨entry, hentry, hnot⟩ := stands_of_prefix hstands hfront
      obtain rfl := Option.some.inj (hentry.symm.trans hfound)
      cases hnot
  refine ⟨hplain, ?_, hlinks, hinside, fun found => View.place_of_lookup_render hplain hlinks⟩
  rw [List.dropLast_concat]
  exact View.realpath_render hstands

/-- The last name of an absolute path is plain. -/
theorem plain_of_fileName {name above : String} (habsolute : isAbsolute path = true)
    (hparent : parent path = some above) (hname : fileName path = some name) : Plain name := by
  obtain ⟨rest, hrest⟩ := List.head?_eq_some_iff.mp (beq_iff_eq.mp habsolute)
  obtain ⟨front, gap, tail, hpieces, hpiece, -⟩ := pieces_of_parent hrest hparent hname
  refine ⟨hpiece, not_mem_of_mem_splitOn (s := rest) ?_⟩
  rw [hpieces]
  exact List.mem_append_right _ List.mem_cons_self

/-- **`resolve` stays inside its scope, off every link, exactly when the candidate does not slip
through the check.** -/
theorem resolve_contained_iff (h : Scope.new (fileSystemOf before) directory = .ok scope)
    (requested : String) :
    (∀ path, scope.resolve (fileSystemOf view) requested = .ok path → Contained view scope path) ↔
      ¬Slips view scope (scope.candidate requested) := by
  obtain ⟨root, hroot, hplain⟩ := root_of_new h
  have habsolute := isAbsolute_candidate requested hroot
  constructor
  · rintro hcontained ⟨-, hdangles, hpasses, above, place, name, target, hparent, hplace, hname,
      hlink, hinside⟩
    have hstands := View.lookup_stands hplace
    have hlast := plain_of_fileName habsolute hparent hname
    have hresolved : resolveCandidate (fileSystemOf view) (scope.candidate requested) =
        .ok (render (place ++ [name])) := by
      have hmissing : (fileSystemOf view).pathExists (scope.candidate requested) = false := by
        show (view.stat _).isSome = false
        rw [hdangles]
        rfl
      have hreal : (fileSystemOf view).canonicalize above = some (render place) := by
        show view.realpath above = _
        rw [View.realpath, hplace, Option.map_some]
      rw [resolveCandidate, hmissing, if_neg Bool.false_ne_true, hparent]
      dsimp only
      rw [hreal, hname]
      dsimp only
      rw [join_render (plain_of_stands hstands) hlast]
    have hok := resolve_eq_ok_iff.mpr ⟨hpasses, hresolved, by rw [hinside, Bool.or_true]⟩
    -- The path says which place it is, and a link stands there.
    obtain ⟨-, root', place', -, hrender, hconfined⟩ := hcontained _ hok
    have hplain' : ∀ name' ∈ place ++ [name], Plain name' := by
      rw [List.forall_mem_append, List.forall_mem_singleton]
      exact ⟨plain_of_stands hstands, hlast⟩
    obtain rfl := render_inj hplain' hconfined.plain hrender
    exact hconfined.no_link _ target List.prefix_rfl hlink
  · intro hslips path hok
    obtain ⟨hpasses, hresolved, hinside⟩ := resolve_eq_ok_iff.mp hok
    unfold resolveCandidate at hresolved
    split_ifs at hresolved with hexists
    · split at hresolved
      · cases hresolved
      · next resolved hreal =>
        obtain rfl := Except.ok.inj hresolved
        obtain ⟨place, hplace, rfl⟩ := Option.map_eq_some_iff.mp hreal
        have hstands := View.lookup_stands hplace
        have hbelow := (inside_iff hroot hplain (plain_of_stands hstands)).mp hinside
        exact ⟨isAbsolute_render place, root, place, hroot, rfl, confined_of_stands hstands hbelow⟩
    · split at hresolved
      · cases hresolved
      · next above hparent =>
        split at hresolved
        · cases hresolved
        · next real hreal =>
          split at hresolved
          · cases hresolved
          · next name hname =>
            obtain ⟨place, hplace, rfl⟩ := Option.map_eq_some_iff.mp hreal
            have hstands := View.lookup_stands hplace
            have hlast := plain_of_fileName habsolute hparent hname
            have hplain' : ∀ name' ∈ place ++ [name], Plain name' := by
              rw [List.forall_mem_append, List.forall_mem_singleton]
              exact ⟨plain_of_stands hstands, hlast⟩
            rw [join_render (plain_of_stands hstands) hlast] at hresolved
            obtain rfl := Except.ok.inj hresolved
            have hbelow := (inside_iff hroot hplain hplain').mp hinside
            refine ⟨isAbsolute_render _, root, _, hroot, rfl,
              confined_of_name hstands hlast (fun target hlink => ?_) hbelow⟩
            by_cases hend : EndsOpen (scope.candidate requested)
            · refine hslips ⟨hend, ?_, hpasses, above, place, name, target, hparent, hplace, hname,
                hlink, ?_⟩
              · exact Option.not_isSome_iff_eq_none.mp hexists
              · rw [hroot]
                exact (startsWithPath_render hplain' hplain).mpr hbelow
            · exact not_passes_of_link
                (View.lstat_of_link habsolute hend hparent hname hplace hlink) rfl hpasses

/-- A scope with a link in it that leads nowhere. -/
def danglingView : View where
  tree := ofEntries [(["srv"], .dir), (["srv", "notes"], .file []), (["srv", "link"], .link "gone")]
    (by decide)
  cwd := []
  cwd_dir := rfl
  links := 40

/-- Its scope. -/
theorem danglingView_scope : Scope.new (fileSystemOf danglingView) "/srv" = .ok ⟨"/srv"⟩ := by
  rfl

/-- A file of the scope is found inside it. -/
theorem notes_contained :
    Scope.resolve (fileSystemOf danglingView) ⟨"/srv"⟩ "notes" = .ok "/srv/notes" ∧
      Contained danglingView ⟨"/srv"⟩ "/srv/notes" := by
  have hresolved :
      Scope.resolve (fileSystemOf danglingView) ⟨"/srv"⟩ "notes" = .ok "/srv/notes" := by
    rfl
  have hclosed : (steps (Scope.candidate ⟨"/srv"⟩ "notes")).getLast? ≠ some none := by
    decide +kernel
  refine ⟨hresolved, (resolve_contained_iff danglingView_scope "notes").mpr (fun h => ?_) _
    hresolved⟩
  exact hclosed h.endsOpen

/-- A link that leads nowhere is what a path with a slash behind its name stands for. -/
theorem link_resolved :
    Scope.new (fileSystemOf danglingView) "/srv" = .ok ⟨"/srv"⟩ ∧
      Scope.resolve (fileSystemOf danglingView) ⟨"/srv"⟩ "link/" = .ok "/srv/link" ∧
      danglingView.lstat "/srv/link" = some (.link "gone") ∧
      ¬∀ path, Scope.resolve (fileSystemOf danglingView) ⟨"/srv"⟩ "link/" = .ok path →
        Contained danglingView ⟨"/srv"⟩ path := by
  have hresolved :
      Scope.resolve (fileSystemOf danglingView) ⟨"/srv"⟩ "link/" = .ok "/srv/link" := by
    rfl
  refine ⟨danglingView_scope, hresolved, by rfl, fun h => ?_⟩
  obtain ⟨-, root, place, -, hrender, hconfined⟩ := h _ hresolved
  have hentry : danglingView.tree.entry ["srv", "link"] ≠ none := by decide +kernel
  have hplain := plain_of_entry hentry
  have hlink : danglingView.tree.entry ["srv", "link"] = some (.link "gone") := by rfl
  obtain rfl := render_inj hplain hconfined.plain (by rw [← hrender]; rfl)
  exact hconfined.no_link _ _ List.prefix_rfl hlink

end NodeWe.NodeRuntime
