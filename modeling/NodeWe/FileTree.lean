import NodeWe.UnixPath

/-!
# File trees

Directories, files and symbolic links as POSIX looks a path up among them. An entry is found by the
names on the way from the root, its place. `walk` goes through the steps of a path: it follows each
link that it meets, at most a number of them, and takes `..` from the place that it has come to.
`lookup` starts it at the root or at the working directory, and `stat`, `lstat` and `realpath` say
what is found there. A lookup ends at no link, and the text of the place where it ends leads there
again.
-/

namespace NodeWe

open Text UnixPath

/-- The names on the way from the root. -/
abbrev Place := List String

/-- What stands at a place. -/
inductive Entry
  | dir
  | file (content : List UInt8)
  | link (target : String)
  deriving DecidableEq

/-- Whether an entry is a symbolic link. -/
def Entry.isLink : Entry → Bool
  | link _ => true
  | _ => false

/-- The names that an entry can have in a directory. -/
def isName (name : String) : Bool :=
  decide (Component.ofPiece name.toList = some (.normal name)) && !name.toList.contains '/' &&
    !name.toList.contains '\x00'

/-- A tree of entries: the root is a directory, and above every other entry there is one. -/
structure FileTree where
  entry : Place → Option Entry
  root : entry [] = some .dir
  above : ∀ {place name}, entry (place ++ [name]) ≠ none → entry place = some .dir
  named : ∀ {place name}, entry (place ++ [name]) ≠ none → isName name = true

namespace FileTree

variable {tree : FileTree} {place : Place}

/-! ## Walking -/

/-- The steps of a path: none where nothing or a dot stands between two slashes. The slash in front
of an absolute path is no step. -/
def steps (path : String) : List (Option Component) :=
  match path.toList with
  | '/' :: rest => (rest.splitOn '/').map Component.ofPiece
  | text => (text.splitOn '/').map Component.ofPiece

/-- A path ends with a slash, or with a slash and a dot. -/
def EndsOpen (path : String) : Prop := (steps path).getLast? = some none

/-- Where a step leads. -/
inductive Turn
  | nowhere
  | into (place : Place)
  | along (target : String)

/-- Where a step in a directory leads. -/
def turn (tree : FileTree) (place : Place) : Option Component → Turn
  | some (.normal name) =>
    match tree.entry (place ++ [name]) with
    | none => .nowhere
    | some (.link target) => .along target
    | some _ => .into (place ++ [name])
  | some .parentDir => .into place.dropLast
  | some .rootDir => .into []
  | _ => .into place

/-- The steps from a place up to the first link, and on with `follow` from there. Every step needs a
directory. The result is the place that is come to, with the number of links that may still be
followed. -/
def walkWith (tree : FileTree) (links : ℕ)
    (follow : Place → List (Option Component) → Option (Place × ℕ)) :
    Place → List (Option Component) → Option (Place × ℕ)
  | place, [] => some (place, links)
  | place, step :: rest =>
    if tree.entry place = some .dir then
      match turn tree place step with
      | .nowhere => none
      | .into place => walkWith tree links follow place rest
      | .along target =>
        if target = "" then none
        else follow (if isAbsolute target then [] else place) (steps target ++ rest)
    else none

/-- The walk through the steps of a path, with at most `links` links followed. -/
def walk (tree : FileTree) : ℕ → Place → List (Option Component) → Option (Place × ℕ)
  | 0 => walkWith tree 0 fun _ _ => none
  | links + 1 => walkWith tree (links + 1) (walk tree links)

/-- A place where an entry stands that is no link. -/
def Stands (tree : FileTree) (place : Place) : Prop :=
  ∃ entry, tree.entry place = some entry ∧ entry.isLink = false

/-- Above a place where something stands there is a directory. -/
theorem dropLast_dir (h : tree.entry place ≠ none) : tree.entry place.dropLast = some .dir := by
  rcases List.eq_nil_or_concat place with rfl | ⟨front, name, rfl⟩
  · exact tree.root
  · rw [List.concat_eq_append] at h ⊢
    rw [List.dropLast_concat]
    exact tree.above h

/-- So is every place further up. -/
theorem dir_of_prefix {front : Place} (h : tree.entry place ≠ none) (hfront : front <+: place) :
    front = place ∨ tree.entry front = some .dir := by
  obtain ⟨back, rfl⟩ := hfront
  induction back using List.reverseRecOn with
  | nil => exact .inl (List.append_nil front).symm
  | append_singleton back name ih =>
    rw [← List.append_assoc] at h
    have hdir := tree.above h
    rcases ih (by simp [hdir]) with hsame | hfront
    · rw [← hsame] at hdir
      exact .inr hdir
    · exact .inr hfront

/-- A directory is no link. -/
theorem stands_of_dir (h : tree.entry place = some .dir) : Stands tree place := ⟨.dir, h, rfl⟩

/-- Nothing on the way to a place where something stands is a link. -/
theorem stands_of_prefix {front : Place} (h : Stands tree place) (hfront : front <+: place) :
    Stands tree front := by
  obtain ⟨entry, hentry, -⟩ := id h
  have hne : tree.entry place ≠ none := by
    rw [hentry]
    exact Option.some_ne_none _
  rcases dir_of_prefix hne hfront with rfl | hdir
  · exact h
  · exact stands_of_dir hdir

/-- A name leads to what stands there. -/
theorem turn_name {name : String} (h : Stands tree (place ++ [name])) :
    turn tree place (some (.normal name)) = .into (place ++ [name]) := by
  obtain ⟨entry, hentry, hlink⟩ := h
  rw [turn, hentry]
  cases entry with
  | dir | file content => rfl
  | link target => cases hlink

/-- A step in a directory leads to no link. -/
theorem turn_stands {step : Option Component} {place' : Place}
    (hdir : tree.entry place = some .dir) (h : turn tree place step = .into place') :
    Stands tree place' := by
  unfold turn at h
  split at h
  · next name =>
    split at h
    · cases h
    · cases h
    · next entry hlink hentry =>
      obtain rfl := Turn.into.inj h
      refine ⟨entry, hentry, ?_⟩
      cases entry with
      | link target => exact absurd rfl (hlink target)
      | dir | file content => rfl
  · obtain rfl := Turn.into.inj h
    refine stands_of_dir (dropLast_dir ?_)
    rw [hdir]
    exact Option.some_ne_none _
  · obtain rfl := Turn.into.inj h
    exact stands_of_dir tree.root
  · obtain rfl := Turn.into.inj h
    exact stands_of_dir hdir

section With

variable {links : ℕ} {follow : Place → List (Option Component) → Option (Place × ℕ)}

/-- A walk ends at no link if what it goes on with does. -/
theorem walkWith_stands {path : List (Option Component)} {result : Place × ℕ}
    (hfollow : ∀ start path result, Stands tree start → follow start path = some result →
      Stands tree result.1)
    (hplace : Stands tree place) (h : walkWith tree links follow place path = some result) :
    Stands tree result.1 := by
  induction path generalizing place with
  | nil =>
    obtain rfl := Option.some.inj h
    exact hplace
  | cons step rest ih =>
    rw [walkWith] at h
    split_ifs at h with hdir
    split at h
    · cases h
    · next place' hturn => exact ih (turn_stands hdir hturn) h
    · next target _ =>
      split_ifs at h
      · exact hfollow _ _ _ (stands_of_dir tree.root) h
      · exact hfollow _ _ _ hplace h

/-- A walk goes on from where its first part ends if what it goes on with does. -/
theorem walkWith_append {next : Place × ℕ → Option (Place × ℕ)} {back : List (Option Component)}
    (hfollow : ∀ start path, follow start (path ++ back) = (follow start path).bind next)
    (hnext : ∀ place, next (place, links) = walkWith tree links follow place back)
    (front : List (Option Component)) :
    walkWith tree links follow place (front ++ back) =
      (walkWith tree links follow place front).bind next := by
  induction front generalizing place with
  | nil => exact (hnext place).symm
  | cons step rest ih =>
    rw [List.cons_append, walkWith, walkWith]
    split_ifs with hdir
    · cases turn tree place step with
      | nowhere => rfl
      | into place' => exact ih
      | along target =>
        dsimp only
        split_ifs
        · rfl
        · rw [← List.append_assoc, hfollow]
        · rw [← List.append_assoc, hfollow]
    · exact (Option.bind_none next).symm

end With

variable {links : ℕ}

/-- A walk ends at no link. -/
theorem walk_stands {path : List (Option Component)} {result : Place × ℕ}
    (hplace : Stands tree place) (h : walk tree links place path = some result) :
    Stands tree result.1 := by
  induction links generalizing place path result with
  | zero => exact walkWith_stands (fun _ _ _ _ hnone => by cases hnone) hplace h
  | succ links ih => exact walkWith_stands (fun _ _ _ hstart hresult => ih hstart hresult) hplace h

/-- A walk goes on from where its first part ends, with the links that are left. -/
theorem walk_append (front back : List (Option Component)) :
    walk tree links place (front ++ back) =
      (walk tree links place front).bind fun result => walk tree result.2 result.1 back := by
  induction links generalizing place front with
  | zero => exact walkWith_append (fun _ _ => rfl) (fun _ => rfl) front
  | succ links ih => exact walkWith_append (fun _ path => ih path) (fun _ => rfl) front

/-- In a directory, nothing leads nowhere else. -/
theorem walk_none {path : List (Option Component)} (hdir : tree.entry place = some .dir)
    (h : ∀ step ∈ path, step = none) : walk tree links place path = some (place, links) := by
  have hwith (follow : Place → List (Option Component) → Option (Place × ℕ)) :
      walkWith tree links follow place path = some (place, links) := by
    induction path with
    | nil => rfl
    | cons step rest ih =>
      obtain ⟨rfl, hrest⟩ := List.forall_mem_cons.mp h
      have hturn : turn tree place none = .into place := rfl
      rw [walkWith, if_pos hdir, hturn]
      exact ih hrest
  cases links <;> exact hwith _

/-- A step that nothing stands between needs a directory. -/
theorem walk_singleton_none : walk tree links place [none] =
    if tree.entry place = some .dir then some (place, links) else none := by
  cases links <;> rfl

/-- The names of a place lead there from the root. -/
theorem walk_names (h : Stands tree place) :
    walk tree links [] (place.map fun name => some (.normal name)) = some (place, links) := by
  have hwith (follow : Place → List (Option Component) → Option (Place × ℕ))
      (front back : Place) (hplace : Stands tree (front ++ back)) :
      walkWith tree links follow front (back.map fun name => some (.normal name)) =
        some (front ++ back, links) := by
    induction back generalizing front with
    | nil => rw [List.map_nil, walkWith, List.append_nil]
    | cons name back ih =>
      have happend : front ++ name :: back = (front ++ [name]) ++ back := by simp
      rw [happend] at hplace ⊢
      have hname : Stands tree (front ++ [name]) :=
        stands_of_prefix hplace (List.prefix_append _ back)
      have hdir : tree.entry front = some .dir := by
        obtain ⟨entry, hentry, -⟩ := hname
        exact tree.above (by rw [hentry]; exact Option.some_ne_none _)
      rw [List.map_cons, walkWith, if_pos hdir, turn_name hname]
      exact ih _ hplace
  cases links <;> exact hwith _ [] place h

/-- Names without a link among them lead to their place, or nowhere. -/
theorem place_of_walk_names {result : Place × ℕ}
    (hlinks : ∀ front target, front <+: place → tree.entry front ≠ some (.link target))
    (h : walk tree links [] (place.map fun name => some (.normal name)) = some result) :
    result.1 = place := by
  have hwith (follow : Place → List (Option Component) → Option (Place × ℕ))
      (front back : Place) (hplace : front ++ back = place)
      (hresult : walkWith tree links follow front (back.map fun name => some (.normal name)) =
        some result) : result.1 = place := by
    induction back generalizing front with
    | nil =>
      rw [← Option.some.inj hresult, ← hplace, List.append_nil]
    | cons name back ih =>
      have happend : (front ++ [name]) ++ back = place := by rw [← hplace]; simp
      rw [List.map_cons, walkWith] at hresult
      split_ifs at hresult
      split at hresult
      · cases hresult
      · next place' hturn =>
        unfold turn at hturn
        dsimp only at hturn
        split at hturn
        · cases hturn
        · cases hturn
        · obtain rfl := Turn.into.inj hturn
          exact ih _ happend hresult
      · next target hturn =>
        unfold turn at hturn
        dsimp only at hturn
        split at hturn
        · cases hturn
        · next target hlink => exact absurd hlink (hlinks _ target ⟨back, happend⟩)
        · cases hturn
  cases links <;> exact hwith _ [] place rfl h

/-! ## Places as paths -/

/-- The absolute path of a place. -/
def render (place : Place) : String :=
  String.ofList ('/' :: ['/'].intercalate (place.map String.toList))

/-- A name in a path: no dots, and no slash in it. -/
structure Plain (name : String) : Prop where
  component : Component.ofPiece name.toList = some (.normal name)
  slash : '/' ∉ name.toList

/-- The names of entries are names in paths. -/
theorem plain_of_isName {name : String} (h : isName name = true) : Plain name := by
  rw [isName, Bool.and_eq_true, Bool.and_eq_true, decide_eq_true_eq, Bool.not_eq_true',
    List.contains_eq_mem, decide_eq_false_iff_not] at h
  exact ⟨h.1.1, h.1.2⟩

/-- The names on the way to an entry are names in paths. -/
theorem plain_of_entry (h : tree.entry place ≠ none) : ∀ name ∈ place, Plain name := by
  induction place using List.reverseRecOn with
  | nil => exact List.forall_mem_nil _
  | append_singleton place name ih =>
    rw [List.forall_mem_append, List.forall_mem_singleton]
    refine ⟨ih ?_, plain_of_isName (tree.named h)⟩
    rw [tree.above h]
    exact Option.some_ne_none _

/-- So are those on the way to where a lookup ends. -/
theorem plain_of_stands (h : Stands tree place) : ∀ name ∈ place, Plain name := by
  obtain ⟨entry, hentry, -⟩ := h
  exact plain_of_entry (by rw [hentry]; exact Option.some_ne_none _)

/-- The pieces of the path of a place. -/
theorem splitOn_render (h : ∀ name ∈ place, Plain name) (hne : place ≠ []) :
    (['/'].intercalate (place.map String.toList)).splitOn '/' = place.map String.toList := by
  refine List.splitOn_intercalate '/' (fun piece hpiece => ?_) (by simpa using hne)
  obtain ⟨name, hname, rfl⟩ := List.mem_map.mp hpiece
  exact (h name hname).slash

/-- Plain names stand for themselves. -/
theorem map_ofPiece (h : ∀ name ∈ place, Plain name) :
    (place.map String.toList).map Component.ofPiece =
      place.map fun name => some (.normal name) := by
  rw [List.map_map]
  exact List.map_congr_left fun name hname => (h name hname).component

/-- The steps of the path of a place are its names. -/
theorem steps_render (h : ∀ name ∈ place, Plain name) (hne : place ≠ []) :
    steps (render place) = place.map fun name => some (.normal name) := by
  rw [steps, render, String.toList_ofList]
  show (List.splitOn '/' _).map Component.ofPiece = _
  rw [splitOn_render h hne, map_ofPiece h]

/-- The components of the path of a place are the root and its names. -/
theorem components_render (h : ∀ name ∈ place, Plain name) :
    components (render place) = .rootDir :: place.map .normal := by
  have hnames : ((['/'].intercalate (place.map String.toList)).splitOn '/').filterMap
      Component.ofPiece = place.map .normal := by
    by_cases hempty : place = []
    · rw [hempty]
      rfl
    · have hpieces := map_ofPiece h
      rw [List.map_map] at hpieces
      rw [splitOn_render h hempty, List.filterMap_map, ← List.filterMap_eq_map]
      exact List.filterMap_congr fun name hname => (h name hname).component
  rw [components, located, render, String.toList_ofList]
  show ((Component.rootDir, "/") :: locate ['/'] _).map Prod.fst = _
  rw [List.map_cons, map_fst_locate, hnames]

/-- Paths of places begin at the root. -/
theorem isAbsolute_render (place : Place) : isAbsolute (render place) = true := by
  rw [isAbsolute, render, String.toList_ofList]
  rfl

/-- The path of a place says which place it is. -/
theorem render_inj {place' : Place} (hplace : ∀ name ∈ place, Plain name)
    (hplace' : ∀ name ∈ place', Plain name) (h : render place = render place') :
    place = place' := by
  have hcomponents := congrArg components h
  rw [components_render hplace, components_render hplace', List.cons.injEq] at hcomponents
  exact List.map_injective_iff.mpr (fun _ _ => Component.normal.inj) hcomponents.2

/-- A path of a place starts with that of another one that is above it. -/
theorem startsWithPath_render {place' : Place} (hplace : ∀ name ∈ place, Plain name)
    (hplace' : ∀ name ∈ place', Plain name) :
    startsWithPath (render place) (render place') = true ↔ place' <+: place := by
  rw [startsWithPath, List.isPrefixOf_iff_prefix, components_render hplace,
    components_render hplace', List.cons_prefix_cons, and_iff_right rfl]
  exact List.prefix_map_iff_of_injective fun _ _ => Component.normal.inj

/-- A name joined to the path of a place makes that of the place of the name. -/
theorem join_render {name : String} (hplace : ∀ name ∈ place, Plain name) (hname : Plain name) :
    join (render place) name = render (place ++ [name]) := by
  have hrelative : isAbsolute name = false := by
    rw [isAbsolute, beq_eq_false_iff_ne]
    exact fun hhead => hname.slash (List.mem_of_mem_head? (Option.mem_def.mpr hhead))
  rw [join, hrelative, if_neg Bool.false_ne_true]
  rcases List.eq_nil_or_concat place with rfl | ⟨front, last, rfl⟩
  · rw [List.nil_append, if_pos (by rfl), render, render, List.map_singleton,
      List.intercalate_singleton, ← String.toList_inj]
    simp
  · rw [List.concat_eq_append] at hplace ⊢
    have hlast := hplace last (by simp)
    have hpiece : last.toList ≠ [] := by
      intro hempty
      have hcomponent := hlast.component
      rw [hempty] at hcomponent
      cases hcomponent
    obtain ⟨chars, c, hchars⟩ := List.eq_nil_or_concat last.toList |>.resolve_left hpiece
    rw [List.concat_eq_append] at hchars
    have hslash : c ≠ '/' := by
      rintro rfl
      exact hlast.slash (by rw [hchars]; simp)
    have htext (more : List (List Char)) (piece : List Char) :
        ['/'].intercalate (more ++ [piece]) = more.flatMap (· ++ ['/']) ++ piece :=
      (flatMap_append_slash more piece).symm
    -- The path of a place ends in no slash, so `join` puts one in between.
    have hends : (render (front ++ [last])).toList.getLast? = some c := by
      rw [render, String.toList_ofList, List.map_append, List.map_singleton, htext, hchars,
        ← List.append_assoc, ← List.cons_append, List.getLast?_concat]
    rw [hends, Option.all_some, if_neg (by simpa using hslash), render, render,
      ← String.toList_inj]
    simp only [List.map_append, List.map_singleton, htext, String.toList_append,
      String.toList_ofList, List.flatMap_append, List.flatMap_singleton]
    simp

/-! ## Lookups -/

/-- What paths are looked up with: a tree, a working directory in it, and the number of links that
a lookup may follow. -/
structure View where
  tree : FileTree
  cwd : Place
  cwd_dir : tree.entry cwd = some .dir
  links : ℕ

namespace View

variable {view : View} {path : String}

/-- Where the lookup of a path starts. -/
def start (view : View) (path : String) : Place := if isAbsolute path then [] else view.cwd

/-- The place that a path leads to, with every link followed. -/
def lookup (view : View) (path : String) : Option Place :=
  if path = "" then none
  else (walk view.tree view.links (view.start path) (steps path)).map Prod.fst

/-- `stat`: what a path leads to. -/
def stat (view : View) (path : String) : Option Entry := (view.lookup path).bind view.tree.entry

/-- `lstat`: what a path leads to, but for a link that its last step names. -/
def lstat (view : View) (path : String) : Option Entry :=
  match (steps path).getLast? with
  | some (some (.normal name)) =>
    (walk view.tree view.links (view.start path) (steps path).dropLast).bind fun result =>
      view.tree.entry (result.1 ++ [name])
  | _ => view.stat path

/-- `realpath`: the path without links of the place that a path leads to. -/
def realpath (view : View) (path : String) : Option String := (view.lookup path).map render

/-- A lookup ends at no link. -/
theorem lookup_stands (h : view.lookup path = some place) : Stands view.tree place := by
  unfold lookup at h
  split_ifs at h with hempty
  obtain ⟨result, hresult, rfl⟩ := Option.map_eq_some_iff.mp h
  refine walk_stands (stands_of_dir ?_) hresult
  unfold start
  split_ifs
  · exact view.tree.root
  · exact view.cwd_dir

/-- The path of a place is looked up from the root. -/
theorem lookup_render_eq (place : Place) : view.lookup (render place) =
    (walk view.tree view.links [] (steps (render place))).map Prod.fst := by
  have hne : render place ≠ "" := by
    intro hempty
    have habsolute := isAbsolute_render place
    rw [hempty] at habsolute
    cases habsolute
  rw [lookup, if_neg hne, start, if_pos (isAbsolute_render place)]

/-- The path of a place leads there. -/
theorem lookup_render (h : Stands view.tree place) : view.lookup (render place) = some place := by
  rw [lookup_render_eq]
  by_cases hroot : place = []
  · subst hroot
    have hsteps : steps (render []) = [none] := rfl
    rw [hsteps, walk_singleton_none, if_pos view.tree.root]
    rfl
  · rw [steps_render (plain_of_stands h) hroot, walk_names h]
    rfl

/-- The path of a place without links leads there or nowhere. -/
theorem place_of_lookup_render {found : Place} (hplain : ∀ name ∈ place, Plain name)
    (hlinks : ∀ front target, front <+: place → view.tree.entry front ≠ some (.link target))
    (h : view.lookup (render place) = some found) : found = place := by
  by_cases hroot : place = []
  · subst hroot
    rw [lookup_render (stands_of_dir view.tree.root)] at h
    exact (Option.some.inj h).symm
  · rw [lookup_render_eq, steps_render hplain hroot] at h
    obtain ⟨result, hwalk, rfl⟩ := Option.map_eq_some_iff.mp h
    exact place_of_walk_names hlinks hwalk

/-- The path of a place is the one without links. -/
theorem realpath_render (h : Stands view.tree place) :
    view.realpath (render place) = some (render place) := by
  rw [realpath, lookup_render h, Option.map_some]

/-! ## The last name of a path -/

/-- A path that ends with a name finds the link of that name where its parent leads to. -/
theorem lstat_of_link {above name target : String} (habsolute : isAbsolute path = true)
    (hend : ¬EndsOpen path) (hparent : parent path = some above) (hname : fileName path = some name)
    (hplace : view.lookup above = some place)
    (hlink : view.tree.entry (place ++ [name]) = some (.link target)) :
    view.lstat path = some (.link target) := by
  obtain ⟨rest, hrest⟩ := List.head?_eq_some_iff.mp (beq_iff_eq.mp habsolute)
  obtain ⟨front, gap, tail, hpieces, hpiece, hgap, htail, habove⟩ :=
    pieces_of_parent hrest hparent hname
  have hdir : view.tree.entry place = some .dir :=
    view.tree.above (by rw [hlink]; exact Option.some_ne_none _)
  have hsteps : steps path = (front ++ gap ++ name.toList :: tail).map Component.ofPiece := by
    rw [steps, hrest, ← hpieces]
    rfl
  -- Nothing stands behind the name, or the path would end with a slash.
  obtain rfl : tail = [] := by
    rcases List.eq_nil_or_concat tail with rfl | ⟨more, last, rfl⟩
    · rfl
    · rw [List.concat_eq_append] at hsteps htail
      refine absurd ?_ hend
      rw [EndsOpen, hsteps, ← List.cons_append, ← List.append_assoc, List.map_append,
        List.map_singleton, List.getLast?_concat, htail last (by simp)]
  have hfront : ∃ left, walk view.tree view.links [] (front.map Component.ofPiece) =
      some (place, left) := by
    rcases habove with ⟨rfl, rfl⟩ | ⟨hne, hchars⟩
    · have hroot : view.lookup "/" = some [] := lookup_render (stands_of_dir view.tree.root)
      obtain rfl := Option.some.inj (hroot.symm.trans hplace)
      exact ⟨view.links, walk_none hdir (List.forall_mem_nil _)⟩
    · have hsplit : (['/'].intercalate front).splitOn '/' = front := by
        refine List.splitOn_intercalate '/' (fun piece hmem => ?_) hne
        refine not_mem_of_mem_splitOn (s := rest) ?_
        rw [hpieces]
        exact List.mem_append_left _ (List.mem_append_left _ hmem)
      have habove : steps above = front.map Component.ofPiece := by
        rw [steps, hchars]
        show (List.splitOn '/' _).map Component.ofPiece = _
        rw [hsplit]
      have hstart : view.start above = [] := by
        rw [start, isAbsolute, hchars]
        rfl
      unfold lookup at hplace
      split_ifs at hplace
      rw [hstart, habove] at hplace
      obtain ⟨⟨_, left⟩, hwalk, rfl⟩ := Option.map_eq_some_iff.mp hplace
      exact ⟨left, hwalk⟩
  obtain ⟨left, hfront⟩ := hfront
  have hbetween : ∀ step ∈ gap.map Component.ofPiece, step = none := by
    simpa [List.forall_mem_map] using hgap
  rw [List.map_append, List.map_singleton, hpiece, List.map_append] at hsteps
  have hwalk : walk view.tree view.links [] (steps path).dropLast = some (place, left) := by
    rw [hsteps, List.dropLast_concat, walk_append, hfront, Option.bind_some,
      walk_none hdir hbetween]
  have hlast : (steps path).getLast? = some (some (.normal name)) := by
    rw [hsteps, List.getLast?_concat]
  unfold lstat
  rw [hlast, start, if_pos habsolute]
  show (walk view.tree view.links [] (steps path).dropLast).bind _ = _
  rw [hwalk, Option.bind_some, hlink]

end View

/-! ## Trees from lists -/

/-- A list gives a directory above each of its entries, and a name to each. -/
def coherent (entries : List (Place × Entry)) : Bool :=
  entries.all fun (place, _) =>
    place = [] || (isName (place.getLastD "") &&
      (place.dropLast = [] || entries.lookup place.dropLast = some .dir))

/-- What a list gives for a place; the root is always there. -/
def listed (entries : List (Place × Entry)) (place : Place) : Option Entry :=
  if place = [] then some .dir else entries.lookup place

/-- An entry that is listed stands in a directory, under a name. -/
theorem listed_above {entries : List (Place × Entry)} (h : coherent entries = true)
    {name : String} (hentry : listed entries (place ++ [name]) ≠ none) :
    listed entries place = some .dir ∧ isName name = true := by
  rw [listed, if_neg (List.concat_ne_nil name place)] at hentry
  obtain ⟨entry, hlookup⟩ := Option.ne_none_iff_exists'.mp hentry
  obtain ⟨front, back, hsplit, -⟩ := List.lookup_eq_some_iff.mp hlookup
  have hmem : (place ++ [name], entry) ∈ entries := by
    rw [hsplit]
    exact List.mem_append_right front List.mem_cons_self
  have hchecked := List.all_eq_true.mp h _ hmem
  simp only [List.append_eq_nil_iff, List.cons_ne_self, and_false, decide_false, Bool.false_or,
    Bool.and_eq_true, List.dropLast_concat, List.getLastD_concat, Bool.or_eq_true,
    decide_eq_true_eq] at hchecked
  refine ⟨?_, hchecked.1⟩
  unfold listed
  split_ifs with hroot
  · rfl
  · exact hchecked.2.resolve_left hroot

/-- The tree of the entries of a list. -/
def ofEntries (entries : List (Place × Entry)) (h : coherent entries = true) : FileTree where
  entry := listed entries
  root := rfl
  above := fun hentry => (listed_above h hentry).1
  named := fun hentry => (listed_above h hentry).2

end FileTree

end NodeWe
