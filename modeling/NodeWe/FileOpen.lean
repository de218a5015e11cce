import NodeWe.FileTree

/-!
# Opening files

`openat` of POSIX on a tree: one step from an open directory, with `O_NOFOLLOW`, for a process that
may read, write and search some places and not others. A new file stands where there was none, and
a truncated one is empty; nothing else in the tree changes.
-/

namespace NodeWe.FileTree

open UnixPath

variable {tree : FileTree} {place fd : Place} {content : List UInt8}

/-! ## Writing a file -/

/-- A place where a file can stand: there is a directory above it and none there. -/
def Fits (tree : FileTree) (place : Place) : Prop :=
  place ≠ [] ∧ tree.entry place.dropLast = some .dir ∧ isName (place.getLastD "") = true ∧
    tree.entry place ≠ some .dir

instance : Decidable (Fits tree place) := by
  unfold Fits
  infer_instance

/-- The tree with a file at a place that fits one. -/
def writeFile (tree : FileTree) (place : Place) (content : List UInt8) : FileTree :=
  if h : Fits tree place then
    { entry := Function.update tree.entry place (some (.file content))
      root := by
        rw [Function.update_of_ne h.1.symm]
        exact tree.root
      above := by
        intro front name hentry
        have hdir : tree.entry front = some .dir := by
          by_cases hsame : front ++ [name] = place
          · have habove := h.2.1
            rwa [← hsame, List.dropLast_concat] at habove
          · rw [Function.update_of_ne hsame] at hentry
            exact tree.above hentry
        rw [Function.update_of_ne]
        · exact hdir
        · rintro rfl
          exact h.2.2.2 hdir
      named := by
        intro front name hentry
        by_cases hsame : front ++ [name] = place
        · have hname := h.2.2.1
          rwa [← hsame, List.getLastD_concat] at hname
        · rw [Function.update_of_ne hsame] at hentry
          exact tree.named hentry }
  else tree

/-- Only the written place changes. -/
theorem entry_writeFile_of_ne {place' : Place} (hne : place' ≠ place) :
    (tree.writeFile place content).entry place' = tree.entry place' := by
  unfold writeFile
  split_ifs with h
  · exact Function.update_of_ne hne _ _
  · rfl

/-! ## One step -/

/-- What a process may do at each place. -/
structure Rights where
  read : Place → Bool
  write : Place → Bool
  search : Place → Bool

/-- The errors of opening. -/
inductive Errno
  | noEntry
  | access
  | notDir
  | isDir
  | loop
  deriving DecidableEq

/-- The modes of opening: `O_RDONLY | O_DIRECTORY`, `O_RDONLY`, and
`O_WRONLY | O_CREAT | O_TRUNC`. -/
inductive OpenMode
  | directory
  | readOnly
  | truncate
  deriving DecidableEq

/-- The place that a component leads to, by its text alone. -/
def stepPlace (place : Place) : Component → Place
  | .rootDir => []
  | .curDir => place
  | .parentDir => place.dropLast
  | .normal name => place ++ [name]

/-- What opening does with what stands at a place. -/
def openEntry (rights : Rights) (tree : FileTree) (fd place : Place) (mode : OpenMode) :
    Option Entry → Except Errno Place × FileTree
  | some (.link _) => (.error (if mode = .directory then .notDir else .loop), tree)
  | some .dir =>
    if mode = .truncate then (.error .isDir, tree)
    else if rights.read place then (.ok place, tree)
    else (.error .access, tree)
  | some (.file _) =>
    match mode with
    | .directory => (.error .notDir, tree)
    | .readOnly => if rights.read place then (.ok place, tree) else (.error .access, tree)
    | .truncate =>
      if rights.write place then (.ok place, tree.writeFile place []) else (.error .access, tree)
  | none =>
    if mode ≠ .truncate then (.error .noEntry, tree)
    else if rights.write fd then (.ok place, tree.writeFile place [])
    else (.error .access, tree)

/-- `openat` with `O_NOFOLLOW`, from an open place. -/
def openat (rights : Rights) (tree : FileTree) (fd : Place) (component : Component)
    (mode : OpenMode) : Except Errno Place × FileTree :=
  let place := stepPlace fd component
  if tree.entry fd ≠ some .dir then (.error .notDir, tree)
  else if rights.search fd = false then (.error .access, tree)
  else openEntry rights tree fd place mode (tree.entry place)

/-- A step leaves the tree as it is, but for a file at the place that it leads to. -/
theorem openat_tree (rights : Rights) (tree : FileTree) (fd : Place) (component : Component)
    (mode : OpenMode) :
    (openat rights tree fd component mode).2 = tree ∨
      (openat rights tree fd component mode).2 = tree.writeFile (stepPlace fd component) [] := by
  unfold openat
  dsimp only
  split_ifs
  · exact .inl rfl
  · exact .inl rfl
  · unfold openEntry
    split
    · exact .inl rfl
    · split_ifs <;> exact .inl rfl
    · split
      · exact .inl rfl
      · split_ifs <;> exact .inl rfl
      · split_ifs
        · exact .inr rfl
        · exact .inl rfl
    · split_ifs
      · exact .inl rfl
      · exact .inr rfl
      · exact .inl rfl

variable {rights : Rights} {component : Component}

/-- A directory is opened for reading, and not for writing. -/
theorem openat_dir {mode : OpenMode} (hfd : tree.entry fd = some .dir)
    (hdir : tree.entry (stepPlace fd component) = some .dir) :
    openat rights tree fd component mode =
      (if rights.search fd = false then .error .access
        else if mode = .truncate then .error .isDir
        else if rights.read (stepPlace fd component) = true then .ok (stepPlace fd component)
        else .error .access, tree) := by
  unfold openat
  dsimp only
  rw [if_neg (not_not.mpr hfd), hdir]
  by_cases hsearch : rights.search fd = false
  · rw [if_pos hsearch, if_pos hsearch]
  · rw [if_neg hsearch, if_neg hsearch, openEntry]
    split_ifs <;> rfl

/-- A link is not opened. -/
theorem openat_link (rights : Rights) (mode : OpenMode) {target : String}
    (hlink : tree.entry (stepPlace fd component) = some (.link target)) :
    ∃ errno, openat rights tree fd component mode = (.error errno, tree) := by
  unfold openat
  dsimp only
  rw [hlink]
  split_ifs <;> exact ⟨_, rfl⟩

/-- A file is opened for reading. -/
theorem openat_readOnly (hfd : tree.entry fd = some .dir) (hsearch : rights.search fd = true)
    (hfile : tree.entry (stepPlace fd component) = some (.file content))
    (hread : rights.read (stepPlace fd component) = true) :
    openat rights tree fd component .readOnly = (.ok (stepPlace fd component), tree) := by
  unfold openat
  dsimp only
  rw [if_neg (not_not.mpr hfd), hsearch, if_neg (by decide), hfile]
  exact if_pos hread

/-- A file is truncated, or made where there is none. -/
theorem openat_truncate (hfd : tree.entry fd = some .dir) (hsearch : rights.search fd = true)
    (h : (∃ content, tree.entry (stepPlace fd component) = some (.file content)) ∧
        rights.write (stepPlace fd component) = true ∨
      tree.entry (stepPlace fd component) = none ∧ rights.write fd = true) :
    openat rights tree fd component .truncate =
      (.ok (stepPlace fd component), tree.writeFile (stepPlace fd component) []) := by
  unfold openat
  dsimp only
  rw [if_neg (not_not.mpr hfd), hsearch, if_neg (by decide)]
  rcases h with ⟨⟨content, hfile⟩, hwrite⟩ | ⟨hnone, hwrite⟩
  · rw [hfile]
    exact if_pos hwrite
  · rw [hnone]
    exact if_pos hwrite

end NodeWe.FileTree
