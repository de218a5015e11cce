import NodeWe.Text

/-!
# Paths of the Rust standard library on Unix

`std::path` reads a path as its components: repeated separators and `.` are skipped, except for a
`.` in front, and `..` is kept. Two paths are equal, and one starts with another, when their
components are; `parent` and `join` work on the text. The text is what the operating system is
asked about, so a path is a text here, and `located` gives each component with the text that ends
at it.
-/

namespace NodeWe.UnixPath

open NodeWe.Text

/-- `std::path::Component`. -/
inductive Component
  | rootDir
  | curDir
  | parentDir
  | normal (name : String)
  deriving DecidableEq

/-- `Component::as_os_str`. -/
def Component.asOsStr : Component → String
  | .rootDir => "/"
  | .curDir => "."
  | .parentDir => ".."
  | .normal name => name

/-- The component that a piece between separators stands for. -/
def Component.ofPiece (piece : List Char) : Option Component :=
  if piece = [] ∨ piece = ['.'] then none
  else if piece = ['.', '.'] then some .parentDir
  else some (.normal (String.ofList piece))

/-- The components of the pieces behind the text `before`, each with the text that ends at it. -/
def locate (before : List Char) : List (List Char) → List (Component × String)
  | [] => []
  | piece :: rest =>
    let here := before ++ piece
    let further := locate (here ++ ['/']) rest
    match Component.ofPiece piece with
    | none => further
    | some component => (component, String.ofList here) :: further

/-- The components of a path, each with the text of the path up to its end. -/
def located (path : String) : List (Component × String) :=
  match path.toList with
  | '/' :: rest => (.rootDir, "/") :: locate ['/'] (rest.splitOn '/')
  | text =>
    match text.splitOn '/' with
    | ['.'] :: rest => (.curDir, ".") :: locate ['.', '/'] rest
    | pieces => locate [] pieces

/-- `Path::components`. -/
def components (path : String) : List Component := (located path).map Prod.fst

/-- `Path::is_absolute`. -/
def isAbsolute (path : String) : Bool := path.toList.head? == some '/'

/-- `Path::file_name`: the last component, when it is a name. -/
def fileName (path : String) : Option String :=
  match (components path).getLast? with
  | some (.normal name) => some name
  | _ => none

/-- `Path::parent`: the text up to the last component but one, unless the last is the root. -/
def parent (path : String) : Option String :=
  match (located path).reverse with
  | [] => none
  | (.rootDir, _) :: _ => none
  | [_] => some ""
  | _ :: (_, text) :: _ => some text

/-- `Path::join`. -/
def join (path other : String) : String :=
  if isAbsolute other then other
  else if path.toList.getLast?.all (· == '/') then path ++ other
  else path ++ "/" ++ other

/-- `Path` equality. -/
def samePath (path other : String) : Bool := components path == components other

/-- `Path::starts_with`. -/
def startsWithPath (path base : String) : Bool := (components base).isPrefixOf (components path)

/-! ## The text of a parent -/

/-- The text of each component is longer than those in front of it, and within the path. -/
theorem locate_lengths (before : List Char) (pieces : List (List Char)) :
    (locate before pieces).Pairwise (fun a b => a.2.length < b.2.length) ∧
      ∀ entry ∈ locate before pieces, before.length < entry.2.length ∧
        entry.2.length ≤ before.length + (['/'].intercalate pieces).length := by
  induction pieces generalizing before with
  | nil => exact ⟨.nil, fun _ hentry => absurd hentry List.not_mem_nil⟩
  | cons piece rest ih =>
    obtain ⟨hsorted, hbounds⟩ := ih (before ++ piece ++ ['/'])
    simp only [List.length_append, List.length_singleton] at hbounds
    -- What the pieces behind have, seen from here.
    have hbehind : ∀ entry ∈ locate (before ++ piece ++ ['/']) rest,
        before.length + piece.length < entry.2.length ∧
          entry.2.length ≤ before.length + (['/'].intercalate (piece :: rest)).length := by
      intro entry hentry
      obtain ⟨hlow, hhigh⟩ := hbounds entry hentry
      have hne : rest ≠ [] := by
        rintro rfl
        exact absurd hentry List.not_mem_nil
      obtain ⟨next, more, rfl⟩ := List.exists_cons_of_ne_nil hne
      rw [List.intercalate_cons_cons, List.length_append, List.length_append,
        List.length_singleton]
      omega
    have hhere : piece.length ≤ (['/'].intercalate (piece :: rest)).length := by
      cases rest with
      | nil => rw [List.intercalate_singleton]
      | cons next more =>
        rw [List.intercalate_cons_cons, List.length_append, List.length_append]
        omega
    rw [locate]
    cases hpiece : Component.ofPiece piece with
    | none =>
      refine ⟨hsorted, fun entry hentry => ?_⟩
      have hentry' := hbehind entry hentry
      omega
    | some component =>
      have hpos : 0 < piece.length := by
        rw [List.length_pos_iff]
        rintro rfl
        simp [Component.ofPiece] at hpiece
      dsimp only
      rw [List.pairwise_cons, List.forall_mem_cons]
      simp only [String.length_ofList, List.length_append]
      refine ⟨⟨fun entry hentry => (hbehind entry hentry).1, hsorted⟩, ⟨by omega, by omega⟩,
        fun entry hentry => ?_⟩
      have hentry' := hbehind entry hentry
      omega

/-- The text of each component of a path is longer than those in front of it, and within the
path. -/
theorem located_lengths (path : String) :
    (located path).Pairwise (fun a b => a.2.length < b.2.length) ∧
      ∀ entry ∈ located path, 0 < entry.2.length ∧ entry.2.length ≤ path.length := by
  have hpath : path.length = path.toList.length := String.length_toList.symm
  unfold located
  split
  · next rest htext =>
    obtain ⟨hsorted, hbounds⟩ := locate_lengths ['/'] (rest.splitOn '/')
    rw [List.intercalate_splitOn, List.length_singleton] at hbounds
    have hlength : path.length = rest.length + 1 := by rw [hpath, htext, List.length_cons]
    rw [List.pairwise_cons, List.forall_mem_cons]
    refine ⟨⟨fun entry hentry => (hbounds entry hentry).1, hsorted⟩, ⟨by decide, ?_⟩,
      fun entry hentry => ?_⟩
    · show 1 ≤ path.length
      omega
    · have hentry' := hbounds entry hentry
      omega
  · next text htext =>
    have hsplit : ['/'].intercalate (path.toList.splitOn '/') = path.toList :=
      List.intercalate_splitOn '/'
    split
    · next rest hpieces =>
      obtain ⟨hsorted, hbounds⟩ := locate_lengths ['.', '/'] rest
      rw [hpieces] at hsplit
      have hlength : 1 ≤ path.length ∧ ∀ entry ∈ locate ['.', '/'] rest,
          entry.2.length ≤ path.length := by
        cases rest with
        | nil =>
          rw [List.intercalate_singleton] at hsplit
          rw [hpath, ← hsplit]
          exact ⟨le_rfl, fun _ hentry => absurd hentry List.not_mem_nil⟩
        | cons next more =>
          rw [List.intercalate_cons_cons] at hsplit
          rw [hpath, ← hsplit]
          simp only [List.length_append, List.length_singleton]
          refine ⟨by omega, fun entry hentry => ?_⟩
          have hentry' := (hbounds entry hentry).2
          simp only [List.length_cons, List.length_nil] at hentry'
          omega
      rw [List.pairwise_cons, List.forall_mem_cons]
      refine ⟨⟨fun entry hentry => ?_, hsorted⟩, ⟨by decide, hlength.1⟩, fun entry hentry => ?_⟩
      · have hentry' := (hbounds entry hentry).1
        simp only [List.length_cons, List.length_nil] at hentry'
        show 1 < entry.2.length
        omega
      · have hentry' := (hbounds entry hentry).1
        exact ⟨by omega, hlength.2 entry hentry⟩
    · obtain ⟨hsorted, hbounds⟩ := locate_lengths [] (path.toList.splitOn '/')
      rw [hsplit] at hbounds
      refine ⟨hsorted, fun entry hentry => ?_⟩
      have hentry' := hbounds entry hentry
      simp only [List.length_nil, Nat.zero_add] at hentry'
      omega

/-- A parent is a shorter text. -/
theorem parent_length_lt {path above : String} (h : parent path = some above) :
    above.length < path.length := by
  obtain ⟨hsorted, hbounds⟩ := located_lengths path
  unfold parent at h
  split at h
  · cases h
  · cases h
  · next entry _ hlocated =>
    obtain rfl := Option.some.inj h
    have hentry := hbounds entry (List.mem_reverse.mp (by rw [hlocated]; exact List.mem_cons_self))
    show 0 < path.length
    omega
  · next last component text rest _ hlocated =>
    obtain rfl := Option.some.inj h
    have hlast := hbounds last (List.mem_reverse.mp (by rw [hlocated]; exact List.mem_cons_self))
    rw [← List.pairwise_reverse, hlocated, List.pairwise_cons] at hsorted
    have hlt : text.length < last.2.length := hsorted.1 _ List.mem_cons_self
    omega

/-! ## The name of a file -/

/-- A piece that stands for a name is the name. -/
theorem Component.ofPiece_normal {piece : List Char} {name : String}
    (h : Component.ofPiece piece = some (.normal name)) :
    name = String.ofList piece ∧ piece ≠ [] ∧ piece ≠ ['.'] ∧ piece ≠ ['.', '.'] := by
  unfold Component.ofPiece at h
  split_ifs at h with hskip hdots
  · exact absurd (Option.some.inj h) (by simp)
  · obtain ⟨hempty, hdot⟩ := not_or.mp hskip
    have hname : String.ofList piece = name := Component.normal.inj (Option.some.inj h)
    exact ⟨hname.symm, hempty, hdot, hdots⟩

/-- A path without separators that has a name is that name. -/
theorem fileName_single {path name : String} (hslash : '/' ∉ path.toList)
    (h : fileName path = some name) : name = path ∧ path ≠ "" ∧ path ≠ "." ∧ path ≠ ".." := by
  have hsplit : path.toList.splitOn '/' = [path.toList] := List.splitOn_eq_singleton hslash
  have hpiece : Component.ofPiece path.toList = some (.normal name) := by
    rw [fileName, components, located] at h
    split at h
    · next name' hlast =>
      obtain rfl := Option.some.inj h
      split at hlast
      · next rest htext => exact absurd (htext ▸ List.mem_cons_self) hslash
      · rw [hsplit] at hlast
        split at hlast
        · next rest hpieces =>
          obtain rfl : [] = rest := (List.cons.inj hpieces).2
          simp [locate] at hlast
        · rw [locate] at hlast
          cases hpiece : Component.ofPiece path.toList with
          | none => simp [hpiece, locate] at hlast
          | some component => simpa [hpiece, locate] using hlast
    · cases h
  obtain ⟨hname, hempty, hdot, hdots⟩ := Component.ofPiece_normal hpiece
  rw [String.ofList_toList] at hname
  refine ⟨hname, ?_, ?_, ?_⟩
  · rintro rfl
    exact hempty rfl
  · rintro rfl
    exact hdot rfl
  · rintro rfl
    exact hdots rfl

/-- The last of the components of some pieces is the last of the last piece that has one. -/
theorem locate_concat (before : List Char) (pieces : List (List Char)) {name : List Char}
    (hname : name ≠ [] ∧ name ≠ ['.'] ∧ name ≠ ['.', '.']) :
    ∃ front text, locate before (pieces ++ [name]) =
      front ++ [(.normal (String.ofList name), text)] := by
  obtain ⟨hempty, hdot, hdots⟩ := hname
  induction pieces generalizing before with
  | nil =>
    refine ⟨[], String.ofList (before ++ name), ?_⟩
    simp [locate, Component.ofPiece, hempty, hdot, hdots]
  | cons piece rest ih =>
    obtain ⟨front, text, hrest⟩ := ih (before ++ piece ++ ['/'])
    rw [List.cons_append, locate]
    cases Component.ofPiece piece with
    | none => exact ⟨front, text, hrest⟩
    | some component =>
      refine ⟨(component, String.ofList (before ++ piece)) :: front, text, ?_⟩
      dsimp only
      rw [hrest]
      rfl

/-- A name joined to a directory is the name of the file. -/
theorem fileName_join (directory : List Char) {name : String} (hslash : '/' ∉ name.toList)
    (hname : name ≠ "" ∧ name ≠ "." ∧ name ≠ "..") :
    fileName (join (String.ofList ('/' :: directory)) name) = some name := by
  have hrelative : isAbsolute name = false := by
    rw [isAbsolute, beq_eq_false_iff_ne]
    exact fun hhead => hslash (List.mem_of_mem_head? (Option.mem_def.mpr hhead))
  -- The pieces behind the root end with the name.
  have hpieces : ∃ rest pieces, (join (String.ofList ('/' :: directory)) name).toList =
      '/' :: rest ∧ rest.splitOn '/' = pieces ++ [name.toList] := by
    have hsingle : name.toList.splitOn '/' = [name.toList] := List.splitOn_eq_singleton hslash
    have hsplit (front : List Char) : (front ++ '/' :: name.toList).splitOn '/' =
        front.splitOn '/' ++ [name.toList] := by
      rw [List.splitOn_append_cons_self, hsingle]
    unfold join
    rw [hrelative, String.toList_ofList]
    rcases List.eq_nil_or_concat directory with rfl | ⟨front, c, rfl⟩
    · exact ⟨name.toList, [], by simp, hsingle⟩
    · have hends : ('/' :: (front ++ [c])).getLast? = some c := by
        rw [← List.cons_append, List.getLast?_concat]
      rw [List.concat_eq_append, hends]
      by_cases hc : c = '/'
      · exact ⟨front ++ '/' :: name.toList, _, by simp [hc], hsplit front⟩
      · exact ⟨front ++ [c] ++ '/' :: name.toList, _, by simp [hc], hsplit _⟩
  obtain ⟨rest, pieces, htext, hsplit⟩ := hpieces
  have hchars : name.toList ≠ [] ∧ name.toList ≠ ['.'] ∧ name.toList ≠ ['.', '.'] := by
    refine ⟨fun h => hname.1 ?_, fun h => hname.2.1 ?_, fun h => hname.2.2 ?_⟩ <;>
      exact String.toList_inj.mp h
  obtain ⟨front, text, hlast⟩ := locate_concat ['/'] pieces hchars
  have hlocated : located (join (String.ofList ('/' :: directory)) name) =
      (.rootDir, "/") :: (front ++ [(.normal (String.ofList name.toList), text)]) := by
    unfold located
    rw [htext, ← hlast, ← hsplit]
    rfl
  rw [fileName, components, hlocated, ← List.cons_append, List.map_append, List.map_singleton,
    List.getLast?_concat, String.ofList_toList]

/-! ## The directory of a file -/

/-- The components of some pieces and then others. -/
theorem locate_append (before : List Char) (front back : List (List Char)) :
    locate before (front ++ back) =
      locate before front ++ locate (before ++ front.flatMap (· ++ ['/'])) back := by
  induction front generalizing before with
  | nil => rw [List.nil_append, List.flatMap_nil, List.append_nil]; rfl
  | cons piece front ih =>
    rw [List.cons_append, locate, locate, ih, List.flatMap_cons]
    cases Component.ofPiece piece <;> simp [List.append_assoc]

/-- Pieces that stand for nothing have no components. -/
theorem locate_eq_nil {pieces : List (List Char)} (before : List Char)
    (h : ∀ piece ∈ pieces, Component.ofPiece piece = none) : locate before pieces = [] := by
  induction pieces generalizing before with
  | nil => rfl
  | cons piece rest ih =>
    obtain ⟨hpiece, hrest⟩ := List.forall_mem_cons.mp h
    rw [locate, hpiece]
    exact ih _ hrest

/-- Pieces stand for nothing, or one of them is the last that does not. -/
theorem exists_last_piece (pieces : List (List Char)) :
    (∀ piece ∈ pieces, Component.ofPiece piece = none) ∨
      ∃ front piece tail component, pieces = front ++ piece :: tail ∧
        Component.ofPiece piece = some component ∧
        ∀ piece ∈ tail, Component.ofPiece piece = none := by
  induction pieces with
  | nil => exact .inl (List.forall_mem_nil _)
  | cons piece rest ih =>
    rcases ih with hnone | ⟨front, last, tail, component, rfl, hlast, htail⟩
    · cases hpiece : Component.ofPiece piece with
      | none => exact .inl (List.forall_mem_cons.mpr ⟨hpiece, hnone⟩)
      | some component => exact .inr ⟨[], piece, rest, component, rfl, hpiece, hnone⟩
    · exact .inr ⟨piece :: front, last, tail, component, rfl, hlast, htail⟩

/-- Pieces with a last one between slashes. -/
theorem flatMap_append_slash (front : List (List Char)) (piece : List Char) :
    front.flatMap (· ++ ['/']) ++ piece = ['/'].intercalate (front ++ [piece]) := by
  induction front with
  | nil => rw [List.flatMap_nil, List.nil_append, List.nil_append, List.intercalate_singleton]
  | cons first front ih =>
    obtain ⟨next, more, hnext⟩ : ∃ next more, front ++ [piece] = next :: more :=
      List.exists_cons_of_ne_nil (by simp)
    rw [List.flatMap_cons, List.append_assoc, ih, List.cons_append, hnext,
      List.intercalate_cons_cons]

/-- No piece between separators has one. -/
theorem not_mem_of_mem_splitOn {sep : Char} {s piece : List Char} (h : piece ∈ s.splitOn sep) :
    sep ∉ piece := by
  induction s generalizing piece with
  | nil =>
    rw [List.splitOn_nil, List.mem_singleton] at h
    rw [h]
    exact List.not_mem_nil
  | cons c s ih =>
    rw [List.splitOn_cons_eq_if_modifyHead] at h
    split_ifs at h with hc
    · rcases List.mem_cons.mp h with rfl | hmem
      · exact List.not_mem_nil
      · exact ih hmem
    · obtain ⟨first, more, hsplit⟩ := List.exists_cons_of_ne_nil (List.splitOn_ne_nil sep s)
      rw [hsplit] at h ih
      rw [List.modifyHead_cons] at h
      rcases List.mem_cons.mp h with rfl | hmem
      · rw [List.mem_cons, not_or]
        exact ⟨fun hsep => hc (beq_iff_eq.mpr hsep.symm), ih List.mem_cons_self⟩
      · exact ih (List.mem_cons_of_mem first hmem)

/-- The pieces of an absolute path with a name, and those of its parent: the name stands behind
them, and nothing between and behind. -/
theorem pieces_of_parent {path above name : String} {rest : List Char}
    (h : path.toList = '/' :: rest) (hparent : parent path = some above)
    (hname : fileName path = some name) :
    ∃ front gap tail, rest.splitOn '/' = front ++ gap ++ name.toList :: tail ∧
      Component.ofPiece name.toList = some (.normal name) ∧
      (∀ piece ∈ gap, Component.ofPiece piece = none) ∧
      (∀ piece ∈ tail, Component.ofPiece piece = none) ∧
      (front = [] ∧ above = "/" ∨
        front ≠ [] ∧ above.toList = '/' :: ['/'].intercalate front) := by
  have hlocated : located path = (.rootDir, "/") :: locate ['/'] (rest.splitOn '/') := by
    rw [located, h]
    rfl
  rw [fileName, components, hlocated] at hname
  rw [parent, hlocated] at hparent
  rcases exists_last_piece (rest.splitOn '/') with
    hnone | ⟨front, piece, tail, component, hpieces, hpiece, htail⟩
  · rw [locate_eq_nil _ hnone] at hname
    cases hname
  -- The last component is the name, so the parent ends at the one in front of it.
  rw [hpieces, locate_append, locate, hpiece] at hname hparent
  dsimp only at hname hparent
  rw [locate_eq_nil _ htail] at hname hparent
  rw [List.map_cons, List.map_append, List.map_singleton, ← List.cons_append,
    List.getLast?_concat] at hname
  cases component with
  | rootDir | curDir | parentDir => cases hname
  | normal name' =>
    obtain rfl : name' = name := Option.some.inj hname
    obtain ⟨hpiece', -⟩ := Component.ofPiece_normal hpiece
    have hchars : piece = name'.toList := by rw [hpiece', String.toList_ofList]
    rw [← hchars]
    rw [← List.cons_append, List.reverse_append, List.reverse_singleton, List.singleton_append,
      List.reverse_cons] at hparent
    rcases exists_last_piece front with hnone | ⟨front, last, gap, component, rfl, hlast, hgap⟩
    · rw [locate_eq_nil _ hnone] at hparent
      have habove := Option.some.inj hparent
      exact ⟨[], front, tail, hpieces, hpiece, hnone, htail, .inl ⟨rfl, habove.symm⟩⟩
    · rw [locate_append, locate, hlast] at hparent
      dsimp only at hparent
      rw [locate_eq_nil _ hgap, List.reverse_append, List.reverse_singleton, List.singleton_append,
        List.cons_append] at hparent
      refine ⟨front ++ [last], gap, tail, ?_, hpiece, hgap, htail, .inr ⟨by simp, ?_⟩⟩
      · rw [hpieces]
        simp
      · rw [← Option.some.inj hparent, String.toList_ofList, List.append_assoc,
          flatMap_append_slash]
        rfl

/-! ## Lexical resolution -/

/-- What a component does to the directories above it: `..` takes the last name back, and the root
is above itself. -/
def walk (above : List Component) : Component → List Component
  | .rootDir => [.rootDir]
  | .curDir => above
  | .parentDir =>
    match above.getLast? with
    | some (.normal _) => above.dropLast
    | some .rootDir => above
    | _ => above ++ [.parentDir]
  | .normal name => above ++ [.normal name]

/-- Where a path leads by its text alone. -/
def lexical (path : String) : List Component := (components path).foldl walk []

/-- The components of a text, wherever it stands. -/
def names (text : List Char) : List Component := (text.splitOn '/').filterMap Component.ofPiece

/-- The components of some pieces. -/
theorem map_fst_locate (before : List Char) (pieces : List (List Char)) :
    (locate before pieces).map Prod.fst = pieces.filterMap Component.ofPiece := by
  induction pieces generalizing before with
  | nil => rfl
  | cons piece rest ih =>
    rw [locate]
    cases hpiece : Component.ofPiece piece with
    | none =>
      rw [List.filterMap_cons_none hpiece]
      exact ih _
    | some component =>
      rw [List.filterMap_cons_some hpiece, List.map_cons, ih]

/-- The names on both sides of a slash. -/
theorem names_append (front back : List Char) :
    names (front ++ '/' :: back) = names front ++ names back := by
  rw [names, List.splitOn_append_cons_self, List.filterMap_append]
  rfl

/-- A path leads where its names lead, from the root or from nowhere. -/
theorem lexical_eq (path : String) : lexical path =
    (names path.toList).foldl walk (if isAbsolute path then [.rootDir] else []) := by
  rw [lexical, components, located, isAbsolute]
  split
  · next rest htext =>
    have hnames : names ('/' :: rest) = names rest := names_append [] rest
    rw [htext, hnames, List.map_cons, map_fst_locate]
    rfl
  · next text hrelative =>
    have hhead : (path.toList.head? == some '/') = false := by
      rw [beq_eq_false_iff_ne]
      intro hhead
      obtain ⟨rest, hrest⟩ := List.head?_eq_some_iff.mp hhead
      exact hrelative rest hrest
    rw [hhead]
    split
    · next rest hpieces =>
      have hnames : names path.toList = rest.filterMap Component.ofPiece := by
        rw [names, hpieces, List.filterMap_cons_none rfl]
      rw [hnames, List.map_cons, map_fst_locate]
      rfl
    · rw [map_fst_locate]
      rfl

/-- A relative path below a root leads on from where the root leads. -/
theorem lexical_join (root : String) {path : String} (hrelative : isAbsolute path = false) :
    lexical (join root path) = (names path.toList).foldl walk (lexical root) := by
  -- The text of the join begins as the root does, and its names are those of both.
  obtain ⟨hnames, habsolute⟩ :
      names (join root path).toList = names root.toList ++ names path.toList ∧
        isAbsolute (join root path) = isAbsolute root := by
    rw [join, hrelative, if_neg Bool.false_ne_true]
    rcases List.eq_nil_or_concat root.toList with hempty | ⟨front, c, hroot⟩
    · obtain rfl : root = "" := String.toList_inj.mp hempty
      exact ⟨by simp [names, Component.ofPiece], by simpa [isAbsolute] using hrelative⟩
    · rw [List.concat_eq_append] at hroot
      have hslash : "/".toList = ['/'] := rfl
      have hends : root.toList.getLast? = some c := by rw [hroot, List.getLast?_concat]
      have hhead (back : List Char) : (root.toList ++ back).head? = root.toList.head? :=
        List.head?_append_of_ne_nil _ (by rw [hroot]; exact List.concat_ne_nil c front)
      rw [hends, Option.all_some]
      by_cases hc : c = '/'
      · rw [if_pos (beq_iff_eq.mpr hc), isAbsolute, isAbsolute, String.toList_append, hhead, hroot,
          hc, List.append_assoc, List.singleton_append, names_append, names_append]
        exact ⟨by simp [names, Component.ofPiece], rfl⟩
      · rw [if_neg (by simpa using hc), isAbsolute, isAbsolute, String.toList_append,
          String.toList_append, hslash, List.append_assoc, hhead, List.singleton_append,
          names_append]
        exact ⟨rfl, rfl⟩
  rw [lexical_eq, hnames, habsolute, List.foldl_append, ← lexical_eq]

/-- Names lead downwards. -/
theorem foldl_walk_normal (above : List Component) {components : List Component}
    (h : ∀ component ∈ components, ∃ name, component = .normal name) :
    components.foldl walk above = above ++ components := by
  induction components generalizing above with
  | nil => rw [List.foldl_nil, List.append_nil]
  | cons component rest ih =>
    obtain ⟨⟨name, rfl⟩, hrest⟩ := List.forall_mem_cons.mp h
    rw [List.foldl_cons, ih _ hrest, walk, List.append_assoc, List.singleton_append]

end NodeWe.UnixPath
