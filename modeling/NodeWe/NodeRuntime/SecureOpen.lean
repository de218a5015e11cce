import NodeWe.FileOpen
import NodeWe.NodeRuntime.Agent
import NodeWe.NodeRuntime.Containment

/-!
# Opening a file without links

`secure_open_file` opens a path one component at a time, each from the directory before it and none
through a link. Which component is the last it tells by its name, so an ancestor of the same name is
opened as the target is: for reading that makes no difference, and for writing it fails.
`secure_open_iff` says when the file is opened that the path names.
-/

namespace NodeWe.NodeRuntime

open Text UnixPath FileTree

/-! ## The function -/

/-- What `Error::last_os_error` says on Linux. -/
def errnoText : Errno → String
  | .noEntry => "No such file or directory (os error 2)"
  | .access => "Permission denied (os error 13)"
  | .notDir => "Not a directory (os error 20)"
  | .isDir => "Is a directory (os error 21)"
  | .loop => "Too many levels of symbolic links (os error 40)"

/-- The `open` of the first component, as a directory. A relative path starts in the working
directory. -/
def openRoot (view : View) (rights : Rights) (root : Component) : Except Errno Place :=
  match if root = .rootDir then some [] else view.lookup root.asOsStr with
  | none => .error .noEntry
  | some place =>
    if view.tree.entry place ≠ some .dir then .error .notDir
    else if rights.read place then .ok place
    else .error .access

/-- The flags for a component. -/
def flags (write is_last : Bool) : OpenMode :=
  if write && is_last then .truncate else if is_last then .readOnly else .directory

/-- The loop of `secure_open_file`, behind an open directory. -/
def openEach (rights : Rights) (write : Bool) (last : Component) :
    FileTree → Place → List Component → Except String Place × FileTree
  | tree, fd, [] => (.ok fd, tree)
  | tree, fd, component :: rest =>
    if component.asOsStr = "" then openEach rights write last tree fd rest
    else if '\x00' ∈ component.asOsStr.toList then (.error "invalid path", tree)
    else
      match openat rights tree fd component (flags write (component = last)) with
      | (.error errno, tree) => (.error (errnoText errno), tree)
      | (.ok next, tree) => openEach rights write last tree next rest

/-- `secure_open_file`: the place that is open in the end, and the tree after it. -/
def secureOpenFile (view : View) (rights : Rights) (path : String) (write : Bool) :
    Except String Place × FileTree :=
  match components path with
  | [] => (.error "invalid path", view.tree)
  | root :: rest =>
    if '\x00' ∈ root.asOsStr.toList then (.error "invalid path", view.tree)
    else
      match openRoot view rights root with
      | .error errno => (.error (errnoText errno), view.tree)
      | .ok fd => openEach rights write ((root :: rest).getLastD root) view.tree fd rest

/-- `read_scoped_file`. -/
def readScopedFile (view : View) (rights : Rights) (path : String) : Except String (List UInt8) :=
  match secureOpenFile view rights path false with
  | (.error error, _) => .error error
  | (.ok place, tree) =>
    match tree.entry place with
    | some (.file content) =>
      if content.length > maxOutput then .error "file_output_too_large" else .ok content
    | _ => .error "file.read requires a regular file"

/-! ## What is asked of it -/

/-- The place that components lead to from the root, by their text alone. -/
def placeOf (components : List Component) : Place := components.foldl stepPlace []

/-- A beginning of the components of a path that is not all of them. -/
structure Ancestor (path : String) (front : List Component) : Prop where
  ne_nil : front ≠ []
  isPrefix : front <+: components path
  proper : front ≠ components path

/-- Everything above the target of a path is a directory. -/
def DirectoriesAbove (view : View) (path : String) : Prop :=
  ∀ front, Ancestor path front → view.tree.entry (placeOf front) = some .dir

/-- The target of a path is a file that may be read. -/
def Readable (view : View) (rights : Rights) (path : String) : Prop :=
  (∃ content, view.tree.entry (placeOf (components path)) = some (.file content)) ∧
    rights.read (placeOf (components path)) = true

/-- The target of a path is a file that may be written, or one that may be made. -/
def Writable (view : View) (rights : Rights) (path : String) : Prop :=
  (∃ content, view.tree.entry (placeOf (components path)) = some (.file content)) ∧
      rights.write (placeOf (components path)) = true ∨
    view.tree.entry (placeOf (components path)) = none ∧
      rights.write (placeOf (components path).dropLast) = true ∧
      ∃ name, (components path).getLast? = some (.normal name) ∧ isName name = true

/-- A process can reach the target of a path, and may do there what it asks for. -/
structure Openable (view : View) (rights : Rights) (path : String) (write : Bool) : Prop where
  search : ∀ front, Ancestor path front → rights.search (placeOf front) = true
  target : if write then Writable view rights path else Readable view rights path

/-- A path is opened as asked for: its target and nothing else, and no link. -/
structure OpensExactly (view : View) (rights : Rights) (path : String) (write : Bool) : Prop where
  opens : Openable view rights path write →
    secureOpenFile view rights path write = (.ok (placeOf (components path)),
      if write then view.tree.writeFile (placeOf (components path)) [] else view.tree)
  elsewhere : ∀ place ≠ placeOf (components path),
    (secureOpenFile view rights path write).2.entry place = view.tree.entry place
  refuses : ∀ front target, front <+: components path →
    view.tree.entry (placeOf front) = some (.link target) →
    ∃ error, (secureOpenFile view rights path write).1 = .error error

/-! ## The loop over directories -/

variable {view : View} {rights : Rights} {path : String} {write : Bool} {last : Component}
  {tree : FileTree} {fd : Place}

/-- Only what is taken for the target is opened for writing. -/
theorem flags_eq_truncate_iff {component : Component} :
    flags write (component = last) = .truncate ↔ write = true ∧ component = last := by
  cases write <;> by_cases h : component = last <;> simp [flags, h]

/-- What the loop needs of directories that it comes through. -/
def Passes (rights : Rights) (write : Bool) (last : Component) : Place → List Component → Prop
  | _, [] => True
  | fd, component :: rest =>
    (rights.search fd = true ∧ rights.read (stepPlace fd component) = true ∧
      ¬(write = true ∧ component = last)) ∧ Passes rights write last (stepPlace fd component) rest

/-- The beginnings of a list are the empty one and those of its rest behind its head. -/
theorem forall_prefix_cons {α : Type} {P : List α → Prop} {a : α} {l : List α} :
    (∀ front, front <+: a :: l → P front) ↔ P [] ∧ ∀ front, front <+: l → P (a :: front) := by
  constructor
  · exact fun h => ⟨h [] (List.nil_prefix), fun front hfront =>
      h _ ((List.prefix_cons_inj a).mpr hfront)⟩
  · rintro ⟨hnil, hcons⟩ front hfront
    rcases List.prefix_cons_iff.mp hfront with rfl | ⟨rest, rfl, hrest⟩
    · exact hnil
    · exact hcons rest hrest

/-- The loop comes through directories that may be searched and read, and are not taken for the
target. -/
theorem passes_iff {front : List Component} :
    Passes rights write last fd front ↔
      (∀ part, part <+: front → part ≠ front →
        rights.search (part.foldl stepPlace fd) = true) ∧
      (∀ part, part <+: front → part ≠ [] → rights.read (part.foldl stepPlace fd) = true) ∧
      ¬(write = true ∧ last ∈ front) := by
  induction front generalizing fd with
  | nil => simp [Passes]
  | cons component rest ih =>
    rw [Passes, ih, forall_prefix_cons, forall_prefix_cons]
    simp only [List.foldl_cons, List.foldl_nil, ne_eq, List.cons.injEq, true_and, reduceCtorEq,
      not_false_eq_true, forall_true_left, not_true_eq_false, IsEmpty.forall_iff]
    constructor
    · rintro ⟨⟨hsearch, hread, hnot⟩, hsearches, hreads, hnots⟩
      refine ⟨⟨hsearch, hsearches⟩, fun part hpart => ?_, fun h => ?_⟩
      · by_cases hnil : part = []
        · rw [hnil]
          exact hread
        · exact hreads part hpart hnil
      · rcases List.mem_cons.mp h.2 with hsame | hmem
        · exact hnot ⟨h.1, hsame.symm⟩
        · exact hnots ⟨h.1, hmem⟩
    · rintro ⟨⟨hsearch, hsearches⟩, hreads, hnot⟩
      refine ⟨⟨hsearch, hreads [] List.nil_prefix, fun h => ?_⟩, hsearches,
        fun part hpart _ => hreads part hpart, fun h => ?_⟩
      · exact hnot ⟨h.1, List.mem_cons.mpr (.inl h.2.symm)⟩
      · exact hnot ⟨h.1, List.mem_cons_of_mem component h.2⟩

/-- The names of entries are texts that the operating system takes. -/
theorem text_of_isName {name : String} (h : isName name = true) :
    name ≠ "" ∧ '\x00' ∉ name.toList := by
  obtain ⟨hcomponent, -⟩ := plain_of_isName h
  rw [isName, Bool.and_eq_true] at h
  refine ⟨?_, by simpa using h.2⟩
  rintro rfl
  cases hcomponent

/-- The text of a component that leads to an entry is none that the loop passes over or refuses. -/
theorem asOsStr_of_entry {component : Component}
    (h : tree.entry (stepPlace fd component) ≠ none) :
    component.asOsStr ≠ "" ∧ '\x00' ∉ component.asOsStr.toList := by
  cases component with
  | rootDir | curDir | parentDir => exact ⟨by decide, by decide⟩
  | normal name => exact text_of_isName (tree.named h)

/-- The loop comes through directories, and goes on behind them, or ends with an error; it changes
nothing in either case. -/
theorem openEach_cases (front rest : List Component) (hfd : tree.entry fd = some .dir)
    (hdirs : ∀ part, part <+: front → tree.entry (part.foldl stepPlace fd) = some .dir) :
    Passes rights write last fd front ∧
        openEach rights write last tree fd (front ++ rest) =
          openEach rights write last tree (front.foldl stepPlace fd) rest ∨
      ¬Passes rights write last fd front ∧
        ∃ error, openEach rights write last tree fd (front ++ rest) = (.error error, tree) := by
  induction front generalizing fd with
  | nil => exact .inl ⟨trivial, rfl⟩
  | cons component front ih =>
    obtain ⟨-, hdirs⟩ := forall_prefix_cons.mp hdirs
    have hdir : tree.entry (stepPlace fd component) = some .dir := hdirs [] List.nil_prefix
    obtain ⟨hname, hnul⟩ := asOsStr_of_entry (by rw [hdir]; exact Option.some_ne_none _)
    have hnext := ih hdir hdirs
    rw [Passes, List.cons_append, openEach, if_neg hname, if_neg hnul, openat_dir hfd hdir,
      List.foldl_cons]
    -- Each directory is opened to read; the last component's flags go to every one of its name.
    by_cases hpass : rights.search fd = true ∧ rights.read (stepPlace fd component) = true ∧
        ¬(write = true ∧ component = last)
    · obtain ⟨hsearch, hread, hnot⟩ := id hpass
      rw [and_iff_right hpass, if_neg (by simp [hsearch]),
        if_neg (fun h => hnot (flags_eq_truncate_iff.mp h)), if_pos hread]
      exact hnext
    · refine .inr ⟨fun h => hpass h.1, ?_⟩
      split_ifs with hsearch hmode hread
      · exact ⟨_, rfl⟩
      · exact ⟨_, rfl⟩
      · refine absurd ⟨?_, hread, fun h => hmode (flags_eq_truncate_iff.mpr h)⟩ hpass
        simpa using hsearch
      · exact ⟨_, rfl⟩

/-- The last step opens what the path names, if the process may. -/
theorem openEach_last {name : String} (hfd : tree.entry fd = some .dir)
    (hsearch : rights.search fd = true) (hname : isName name = true)
    (htarget : if write then
        (∃ content, tree.entry (fd ++ [name]) = some (.file content)) ∧
            rights.write (fd ++ [name]) = true ∨
          tree.entry (fd ++ [name]) = none ∧ rights.write fd = true
      else (∃ content, tree.entry (fd ++ [name]) = some (.file content)) ∧
        rights.read (fd ++ [name]) = true) :
    openEach rights write (.normal name) tree fd [.normal name] =
      (.ok (fd ++ [name]), if write then tree.writeFile (fd ++ [name]) [] else tree) := by
  obtain ⟨hempty, hnul⟩ := text_of_isName hname
  have hplace : stepPlace fd (.normal name) = fd ++ [name] := rfl
  rw [openEach, Component.asOsStr, if_neg hempty, if_neg hnul, decide_eq_true rfl]
  rw [← hplace] at htarget ⊢
  cases write with
  | true =>
    have hmode : flags true true = .truncate := rfl
    rw [if_pos rfl] at htarget
    rw [hmode, openat_truncate hfd hsearch htarget]
    rfl
  | false =>
    have hmode : flags false true = .readOnly := rfl
    rw [if_neg (by decide)] at htarget
    obtain ⟨⟨content, hfile⟩, hread⟩ := htarget
    rw [hmode, openat_readOnly hfd hsearch hfile hread]
    rfl

/-! ## The whole path -/

/-- The components of an absolute path start with the root. -/
theorem components_absolute (habsolute : isAbsolute path = true) :
    ∃ rest, components path = .rootDir :: rest := by
  obtain ⟨rest, hrest⟩ := List.head?_eq_some_iff.mp (beq_iff_eq.mp habsolute)
  refine ⟨(locate ['/'] (rest.splitOn '/')).map Prod.fst, ?_⟩
  rw [components, located, hrest]
  rfl

/-- An absolute path starts at the root, which is opened for reading. -/
theorem secureOpenFile_absolute (view : View) (rights : Rights) (write : Bool)
    {rest : List Component} (hcomponents : components path = .rootDir :: rest) :
    secureOpenFile view rights path write =
      if rights.read [] = true then
        openEach rights write ((components path).getLastD .rootDir) view.tree [] rest
      else (.error (errnoText .access), view.tree) := by
  have hroot : openRoot view rights .rootDir =
      if rights.read [] = true then .ok [] else .error .access := by
    rw [openRoot, if_pos rfl]
    dsimp only
    rw [if_neg (not_not.mpr view.tree.root)]
  have hnul : '\x00' ∉ (Component.asOsStr .rootDir).toList := by decide
  rw [secureOpenFile, hcomponents]
  dsimp only
  rw [if_neg hnul, hroot]
  split_ifs <;> rfl

/-- The ancestors of a path are the root and the beginnings behind it of all but the last
component. -/
theorem forall_ancestor {front : List Component} {P : Place → Prop}
    (hcomponents : components path = .rootDir :: (front ++ [last])) :
    (∀ above, Ancestor path above → P (placeOf above)) ↔
      ∀ part, part <+: front → P (part.foldl stepPlace []) := by
  constructor
  · intro h part hpart
    have hproper : part ≠ front ++ [last] := by
      rintro rfl
      have hlength := hpart.length_le
      rw [List.length_append, List.length_singleton] at hlength
      omega
    refine h (.rootDir :: part) ⟨List.cons_ne_nil _ _, ?_, ?_⟩
    · rw [hcomponents]
      exact (List.prefix_cons_inj _).mpr (hpart.trans (List.prefix_append front [last]))
    · rw [hcomponents]
      exact fun hsame => hproper (List.cons.inj hsame).2
  · rintro h above ⟨hne, hprefix, hproper⟩
    rw [hcomponents] at hprefix hproper
    rcases List.prefix_cons_iff.mp hprefix with rfl | ⟨part, rfl, hpart⟩
    · exact absurd rfl hne
    · rcases List.prefix_concat_iff.mp hpart with rfl | hpart
      · exact absurd rfl hproper
      · exact h part hpart

/-- Opening comes to the directory above the target, or ends with an error in front of it. -/
theorem secureOpenFile_cases (rights : Rights) (write : Bool) {front : List Component}
    (habove : DirectoriesAbove view path)
    (hcomponents : components path = .rootDir :: (front ++ [last])) :
    (rights.read [] = true ∧ Passes rights write last [] front) ∧
        secureOpenFile view rights path write =
          openEach rights write last view.tree (front.foldl stepPlace []) [last] ∨
      ¬(rights.read [] = true ∧ Passes rights write last [] front) ∧
        ∃ error, secureOpenFile view rights path write = (.error error, view.tree) := by
  have hopen := secureOpenFile_absolute view rights write hcomponents
  have hlast : (components path).getLastD .rootDir = last := by
    rw [hcomponents, ← List.cons_append, List.getLastD_concat]
  rw [hlast] at hopen
  by_cases hread : rights.read [] = true
  · rw [if_pos hread] at hopen
    rw [hopen, and_iff_right hread]
    have hdirs := (forall_ancestor (P := fun place => view.tree.entry place = some .dir)
      hcomponents).mp habove
    exact openEach_cases front [last] view.tree.root hdirs
  · rw [if_neg hread] at hopen
    exact .inr ⟨fun h => hread h.1, _, hopen⟩

/-- The last step leaves the tree as it is, but for a file at the target. -/
theorem openEach_singleton {component : Component} :
    (openEach rights write last tree fd [component]).2 = tree ∨
      (openEach rights write last tree fd [component]).2 =
        tree.writeFile (stepPlace fd component) [] := by
  rw [openEach]
  split_ifs
  · exact .inl rfl
  · exact .inl rfl
  · have htree := openat_tree rights tree fd component (flags write (component = last))
    split
    · next hstep =>
      rw [hstep] at htree
      exact htree
    · next hstep =>
      rw [hstep] at htree
      exact htree

/-- No step opens a link. -/
theorem openEach_link {component : Component} {rest : List Component} {target : String}
    (hlink : tree.entry (stepPlace fd component) = some (.link target)) :
    ∃ error, openEach rights write last tree fd (component :: rest) = (.error error, tree) := by
  obtain ⟨hname, hnul⟩ := asOsStr_of_entry (by rw [hlink]; exact Option.some_ne_none _)
  obtain ⟨errno, hstep⟩ := openat_link rights (flags write (component = last)) hlink
  rw [openEach, if_neg hname, if_neg hnul, hstep]
  exact ⟨_, rfl⟩

/-- A path leads to the place of its last component in the directory above it. -/
theorem placeOf_components {front : List Component}
    (hcomponents : components path = .rootDir :: (front ++ [last])) :
    placeOf (components path) = stepPlace (front.foldl stepPlace []) last := by
  rw [hcomponents, placeOf, List.foldl_cons, List.foldl_append, List.foldl_cons, List.foldl_nil]
  rfl

/-- A path with a link on it is not opened, and nothing changes. -/
theorem secureOpenFile_link (rights : Rights) (write : Bool) {front rest : List Component}
    {component : Component} {target : String}
    (hcomponents : components path = .rootDir :: (front ++ component :: rest))
    (hdirs : ∀ part, part <+: front → view.tree.entry (part.foldl stepPlace []) = some .dir)
    (hlink : view.tree.entry (stepPlace (front.foldl stepPlace []) component) =
      some (.link target)) :
    ∃ error, secureOpenFile view rights path write = (.error error, view.tree) := by
  rw [secureOpenFile_absolute view rights write hcomponents]
  split_ifs
  · rcases openEach_cases front (component :: rest) view.tree.root hdirs with
      ⟨-, hopen⟩ | ⟨-, hstop⟩
    · rw [hopen]
      exact openEach_link hlink
    · exact hstop
  · exact ⟨_, rfl⟩

/-- Below directories nothing but the target changes. -/
theorem secureOpenFile_elsewhere {place : Place} (habsolute : isAbsolute path = true)
    (habove : DirectoriesAbove view path) (hne : place ≠ placeOf (components path)) :
    (secureOpenFile view rights path write).2.entry place = view.tree.entry place := by
  obtain ⟨rest, hcomponents⟩ := components_absolute habsolute
  rcases List.eq_nil_or_concat rest with rfl | ⟨front, last, rfl⟩
  · rw [secureOpenFile_absolute view rights write hcomponents]
    split_ifs <;> rfl
  · rw [List.concat_eq_append] at hcomponents
    rw [placeOf_components hcomponents] at hne
    rcases secureOpenFile_cases rights write habove hcomponents with
      ⟨-, hopen⟩ | ⟨-, error, hopen⟩
    · rw [hopen]
      rcases openEach_singleton with htree | htree
      · rw [htree]
      · rw [htree, entry_writeFile_of_ne hne]
    · rw [hopen]

/-- Below directories no link is opened: only the target can be one. -/
theorem secureOpenFile_refuses {front : List Component} {target : String}
    (habsolute : isAbsolute path = true) (habove : DirectoriesAbove view path)
    (hfront : front <+: components path)
    (hlink : view.tree.entry (placeOf front) = some (.link target)) :
    ∃ error, (secureOpenFile view rights path write).1 = .error error := by
  have hroot (part : List Component) (hnil : placeOf part = []) : placeOf front ≠ placeOf part := by
    intro hsame
    rw [hsame, hnil, view.tree.root] at hlink
    cases hlink
  -- The directories above are no links, so the link is the last component.
  have hwhole : front = components path := by
    by_contra hproper
    have hne : front ≠ [] := fun hnil => hroot [] rfl (by rw [hnil])
    have hdir := habove front ⟨hne, hfront, hproper⟩
    rw [hlink] at hdir
    cases hdir
  rw [hwhole] at hlink hroot
  obtain ⟨rest, hcomponents⟩ := components_absolute habsolute
  rcases List.eq_nil_or_concat rest with rfl | ⟨front, last, rfl⟩
  · exact absurd rfl (hroot _ (by rw [hcomponents]; rfl))
  · rw [List.concat_eq_append] at hcomponents
    rw [placeOf_components hcomponents] at hlink
    have hdirs := (forall_ancestor (P := fun place => view.tree.entry place = some .dir)
      hcomponents).mp habove
    obtain ⟨error, hopen⟩ := secureOpenFile_link rights write hcomponents hdirs hlink
    exact ⟨error, by rw [hopen]⟩

/-- The last component of a path stands in front of it as well. -/
def Repeats (path : String) : Prop :=
  ∃ front last, components path = front ++ [last] ∧ last ∈ front

/-- A name at the end of an absolute path stands in front of it as well when a directory above has
it. -/
theorem repeats_iff {front : List Component} {name : String}
    (hcomponents : components path = .rootDir :: (front ++ [.normal name])) :
    Repeats path ↔ .normal name ∈ front := by
  rw [← List.cons_append] at hcomponents
  constructor
  · rintro ⟨front', last, hsplit, hmem⟩
    obtain ⟨rfl, hlast⟩ := List.append_inj' (hcomponents.symm.trans hsplit) rfl
    obtain rfl := (List.cons.inj hlast).1
    rcases List.mem_cons.mp hmem with hroot | hmem
    · cases hroot
    · exact hmem
  · exact fun hmem => ⟨_, _, hcomponents, List.mem_cons_of_mem _ hmem⟩

/-- What may be opened has a name in a directory, and may be opened there. -/
theorem openable_last (habsolute : isAbsolute path = true) (habove : DirectoriesAbove view path)
    (h : Openable view rights path write) :
    ∃ front name, components path = .rootDir :: (front ++ [.normal name]) ∧ isName name = true ∧
      if write then
        (∃ content, view.tree.entry (front.foldl stepPlace [] ++ [name]) = some (.file content)) ∧
            rights.write (front.foldl stepPlace [] ++ [name]) = true ∨
          view.tree.entry (front.foldl stepPlace [] ++ [name]) = none ∧
            rights.write (front.foldl stepPlace []) = true
      else
        (∃ content, view.tree.entry (front.foldl stepPlace [] ++ [name]) = some (.file content)) ∧
          rights.read (front.foldl stepPlace [] ++ [name]) = true := by
  obtain ⟨rest, hcomponents⟩ := components_absolute habsolute
  have htarget := h.target
  -- What is no directory is the target of a path behind the root.
  have hnotdir : view.tree.entry (placeOf (components path)) ≠ some .dir := by
    intro hdir
    cases write with
    | true =>
      rcases htarget with ⟨⟨content, hfile⟩, -⟩ | ⟨hnone, -⟩
      · rw [hdir] at hfile
        cases hfile
      · rw [hdir] at hnone
        cases hnone
    | false =>
      obtain ⟨⟨content, hfile⟩, -⟩ := htarget
      rw [hdir] at hfile
      cases hfile
  rcases List.eq_nil_or_concat rest with rfl | ⟨front, last, rfl⟩
  · rw [hcomponents] at hnotdir
    exact absurd view.tree.root hnotdir
  rw [List.concat_eq_append] at hcomponents
  have hplace := placeOf_components hcomponents
  have hdir : view.tree.entry (front.foldl stepPlace []) = some .dir :=
    (forall_ancestor (P := fun place => view.tree.entry place = some .dir) hcomponents).mp habove
      front List.prefix_rfl
  have hparent : placeOf (components path).dropLast = front.foldl stepPlace [] := by
    rw [hcomponents, ← List.cons_append, List.dropLast_concat]
    rfl
  rw [hplace] at hnotdir
  obtain ⟨name, rfl⟩ : ∃ name, last = .normal name := by
    cases last with
    | rootDir => exact absurd view.tree.root hnotdir
    | curDir => exact absurd hdir hnotdir
    | parentDir =>
      exact absurd (dropLast_dir (by rw [hdir]; exact Option.some_ne_none _)) hnotdir
    | normal name => exact ⟨name, rfl⟩
  refine ⟨front, name, hcomponents, ?_, ?_⟩
  · by_cases hentry : view.tree.entry (placeOf (components path)) = none
    · cases write with
      | true =>
        rcases htarget with ⟨⟨content, hfile⟩, -⟩ | ⟨-, -, name', hlast, hname⟩
        · rw [hentry] at hfile
          cases hfile
        · rw [hcomponents, ← List.cons_append, List.getLast?_concat] at hlast
          rwa [Component.normal.inj (Option.some.inj hlast)]
      | false =>
        obtain ⟨⟨content, hfile⟩, -⟩ := htarget
        rw [hentry] at hfile
        cases hfile
    · rw [hplace] at hentry
      exact view.tree.named hentry
  · cases write with
    | true =>
      rcases htarget with hfile | ⟨hnone, hwrite, -⟩
      · rw [hplace] at hfile
        exact .inl hfile
      · rw [hplace] at hnone
        rw [hparent] at hwrite
        exact .inr ⟨hnone, hwrite⟩
    | false =>
      rw [Readable, hplace] at htarget
      exact htarget

/-- What may be opened is opened, where each directory above it may be read and none of them is
taken for it. -/
theorem secureOpenFile_opens (habsolute : isAbsolute path = true)
    (habove : DirectoriesAbove view path) (hopenable : Openable view rights path write)
    (hreads : ∀ front, Ancestor path front → rights.read (placeOf front) = true)
    (hnot : ¬(write = true ∧ Repeats path)) :
    secureOpenFile view rights path write = (.ok (placeOf (components path)),
      if write then view.tree.writeFile (placeOf (components path)) [] else view.tree) := by
  obtain ⟨front, name, hcomponents, hname, htarget⟩ := openable_last habsolute habove hopenable
  have hdirs := (forall_ancestor (P := fun place => view.tree.entry place = some .dir)
    hcomponents).mp habove
  have hreads := (forall_ancestor (P := fun place => rights.read place = true)
    hcomponents).mp hreads
  have hsearches := (forall_ancestor (P := fun place => rights.search place = true)
    hcomponents).mp hopenable.search
  rw [repeats_iff hcomponents] at hnot
  rcases secureOpenFile_cases rights write habove hcomponents with
    ⟨-, hopen⟩ | ⟨hstops, -⟩
  · rw [hopen, placeOf_components hcomponents]
    exact openEach_last (hdirs front List.prefix_rfl) (hsearches front List.prefix_rfl) hname
      htarget
  · have hpasses : Passes rights write (.normal name) [] front :=
      passes_iff.mpr ⟨fun part hpart _ => hsearches part hpart, fun part hpart _ =>
        hreads part hpart, hnot⟩
    exact absurd ⟨hreads [] List.nil_prefix, hpasses⟩ hstops

/-- **A path below directories is opened exactly as asked for when, if it may be opened at all, each
directory above it may be read and, for writing, none of them has the name of the target.** -/
theorem secure_open_iff (habsolute : isAbsolute path = true) (habove : DirectoriesAbove view path) :
    OpensExactly view rights path write ↔
      (Openable view rights path write →
        (∀ front, Ancestor path front → rights.read (placeOf front) = true) ∧
          ¬(write = true ∧ Repeats path)) := by
  constructor
  · intro hexactly hopenable
    have hopens := hexactly.opens hopenable
    obtain ⟨front, name, hcomponents, -⟩ := openable_last habsolute habove hopenable
    rcases secureOpenFile_cases rights write habove hcomponents with
      ⟨⟨hread, hpasses⟩, -⟩ | ⟨-, error, herror⟩
    · obtain ⟨-, hreads, hnot⟩ := passes_iff.mp hpasses
      rw [repeats_iff hcomponents]
      refine ⟨?_, hnot⟩
      refine (forall_ancestor (P := fun place => rights.read place = true) hcomponents).mpr
        fun part hpart => ?_
      by_cases hnil : part = []
      · rw [hnil]
        exact hread
      · exact hreads part hpart hnil
    · rw [hopens] at herror
      cases herror
  · intro hcondition
    refine ⟨fun hopenable => ?_, fun place => secureOpenFile_elsewhere habsolute habove,
      fun front target => secureOpenFile_refuses habsolute habove⟩
    obtain ⟨hreads, hnot⟩ := hcondition hopenable
    exact secureOpenFile_opens habsolute habove hopenable hreads hnot

/-! ## Two files -/

/-- A directory with a file, and another directory in it. -/
def dataView : View where
  tree := ofEntries [(["srv"], .dir), (["srv", "notes"], .file [1]), (["srv", "data"], .dir)]
    (by decide)
  cwd := []
  cwd_dir := rfl
  links := 40

/-- A process that may do everything. -/
def allRights : Rights := ⟨fun _ => true, fun _ => true, fun _ => true⟩

/-- A file is opened for writing below a directory of another name. -/
theorem notes_opened : OpensExactly dataView allRights "/srv/notes" true := by
  have hcomponents : components "/srv/notes" =
      .rootDir :: ([.normal "srv"] ++ [.normal "notes"]) := by
    decide +kernel
  refine (secure_open_iff (by decide) ?_).mpr fun _ => ⟨fun _ _ => rfl, ?_⟩
  · refine (forall_ancestor (P := fun place => dataView.tree.entry place = some .dir)
      hcomponents).mpr ?_
    refine forall_prefix_cons.mpr ⟨rfl, fun part hpart => ?_⟩
    rw [List.prefix_nil.mp hpart]
    rfl
  · rw [repeats_iff hcomponents]
    decide

/-- A file that is to be made in a directory of the same name is not, though it may be. -/
theorem data_refused :
    DirectoriesAbove dataView "/srv/data/data" ∧
      Openable dataView allRights "/srv/data/data" true ∧
      (secureOpenFile dataView allRights "/srv/data/data" true).1 =
        .error "Is a directory (os error 21)" ∧
      ¬OpensExactly dataView allRights "/srv/data/data" true := by
  have hcomponents : components "/srv/data/data" =
      .rootDir :: ([.normal "srv", .normal "data"] ++ [.normal "data"]) := by
    decide +kernel
  have hopenable : Openable dataView allRights "/srv/data/data" true := by
    refine ⟨fun _ _ => rfl, .inr ⟨?_, rfl, "data", ?_, by decide⟩⟩
    · rw [hcomponents]
      rfl
    · rw [hcomponents]
      rfl
  have herror : (secureOpenFile dataView allRights "/srv/data/data" true).1 =
      .error "Is a directory (os error 21)" := by
    rfl
  refine ⟨?_, hopenable, herror, fun h => ?_⟩
  · refine (forall_ancestor (P := fun place => dataView.tree.entry place = some .dir)
      hcomponents).mpr ?_
    refine forall_prefix_cons.mpr ⟨rfl, forall_prefix_cons.mpr ⟨rfl, fun part hpart => ?_⟩⟩
    rw [List.prefix_nil.mp hpart]
    rfl
  · rw [h.opens hopenable] at herror
    cases herror

end NodeWe.NodeRuntime
