import NodeWe.ControlPlane.RoundTrip

/-!
# Loading after a failure

What `load_store` finds after a call of `persist_snapshot` that stopped at some step. The snapshot
is replaced in the middle of the call: before it, the older files are replaced, which the loader
reads when there is no snapshot yet; after it come files that matter to the older loader only.
-/

namespace NodeWe.ControlPlane

open Text AtomicFiles Transition

/-! ## The older files -/

/-- The lines of some rows. -/
theorem lines_rows {α : Type} (xs : List α) (fields : α → List String)
    (hplain : ∀ x, ∀ f ∈ fields x, Plain f) :
    lines (String.join (xs.map fun x => row (fields x))).toList =
      xs.map fun x => rowLine (fields x) := by
  induction xs with
  | nil => simp [lines]
  | cons x xs ih =>
    rw [List.map_cons, String.join_cons, String.toList_append, lines_row (hplain x), ih,
      List.map_cons]

/-- A file of rows that are all read. -/
theorem parseFile_rows {α β : Type} {parse : List Char → Except Panic (Option β)}
    (xs : List α) (fields : α → List String) (item : α → Option β) (shown : Prop)
    [Decidable shown] (hplain : ∀ x, ∀ f ∈ fields x, Plain f)
    (hparse : ∀ x, parse (rowLine (fields x)) = .ok (item x)) :
    parseFile parse (if shown then some (String.join (xs.map fun x => row (fields x))) else none) =
      .ok (if shown then xs.filterMap item else []) := by
  have hrows : parseLines parse (xs.map fun x => rowLine (fields x)) = .ok (xs.filterMap item) := by
    induction xs with
    | nil => rfl
    | cons x xs ih =>
      rw [List.map_cons, parseLines, hparse, ih, List.filterMap_cons]
      cases item x <;> rfl
  by_cases h : shown
  · rw [if_pos h, if_pos h, parseFile, Option.map_some, Option.getD_some,
      lines_rows xs fields hplain, hrows]
  · rw [if_neg h, if_neg h]
    rfl

/-- More fields than pieces: the last piece is what is left of the text. -/
theorem splitN_intercalate_take {sep : Char} {n : ℕ} {fields : List (List Char)}
    (hfields : ∀ f ∈ fields, sep ∉ f) (hn : n < fields.length) :
    splitN sep (n + 1) ([sep].intercalate fields) =
      fields.take n ++ [[sep].intercalate (fields.drop n)] := by
  induction n generalizing fields with
  | zero => rfl
  | succ n ih =>
    match fields, hn with
    | f :: g :: rest, hn =>
      rw [List.forall_mem_cons] at hfields
      rw [List.intercalate_cons_cons, List.append_assoc, List.singleton_append, splitN,
        splitOnce_cons hfields.1]
      dsimp only
      rw [ih hfields.2 (by simpa using hn)]
      rfl
    | [f], hn => simp at hn

/-- Fields without tabs are told apart again up to a number of pieces. -/
theorem splitN_rowLine_take {fields : List String} {n : ℕ} (h : ∀ f ∈ fields, Plain f)
    (hn : n < fields.length) :
    splitN '\t' (n + 1) (rowLine fields) =
      (fields.map String.toList).take n ++
        [['\t'].intercalate ((fields.map String.toList).drop n)] := by
  refine splitN_intercalate_take (fun l hl hc => ?_) (by simpa using hn)
  obtain ⟨f, hf, rfl⟩ := List.mem_map.mp hl
  exact (h f hf _ hc).1 rfl

/-- A text in ASCII does not make `hex_decode` panic. -/
theorem hexPairs_ascii {bs : List UInt8} (h : ∀ b ∈ bs, b < 0x80) :
    ∃ decoded, hexPairs bs = .ok decoded := by
  fun_induction hexPairs bs with
  | case1 hi lo rest hhead =>
    -- The pair would end inside a character, whose next byte is outside ASCII.
    obtain ⟨b, hb, hcontinues⟩ := Option.any_eq_true _ _ |>.mp hhead
    have hascii := h b (List.mem_cons_of_mem _ (List.mem_cons_of_mem _ (List.mem_of_mem_head? hb)))
    simp only [Bool.decide_and, Bool.and_eq_true, decide_eq_true_eq] at hcontinues
    exact absurd hcontinues.1 (UInt8.not_le.mpr hascii)
  | case2 hi lo rest hhead hpair => exact ⟨none, rfl⟩
  | case3 hi lo rest hhead b hpair ih =>
    obtain ⟨decoded, hdecoded⟩ := ih fun b hb =>
      h b (List.mem_cons_of_mem _ (List.mem_cons_of_mem _ hb))
    exact ⟨decoded.map (b :: ·), by rw [hdecoded]; rfl⟩
  | case4 => exact ⟨some [], rfl⟩

/-- The text of an exit code. -/
def exitText (task : Task) : String := (task.exit_code.map Int.repr).getD ""

/-- An exit code is in ASCII. -/
theorem exitText_ascii (task : Task) : ∀ b ∈ bytes (exitText task), b < 0x80 := by
  have hminus : ∀ b ∈ String.utf8EncodeChar '-', b < 0x80 := by decide +kernel
  have hdigit {n : ℕ} {c : Char} (hc : c ∈ n.repr.toList) :
      ∀ b ∈ String.utf8EncodeChar c, b < 0x80 := by
    rw [Nat.toList_repr] at hc
    obtain ⟨d, hd, rfl⟩ := mem_toDigits (by norm_num) hc
    interval_cases d <;> decide +kernel
  intro b hb
  rw [bytes_eq_flatMap, List.mem_flatMap] at hb
  obtain ⟨c, hc, hb⟩ := hb
  unfold exitText at hc
  cases hcode : task.exit_code with
  | none =>
    rw [hcode] at hc
    exact absurd hc List.not_mem_nil
  | some code =>
    rw [hcode] at hc
    cases code with
    | ofNat n => exact hdigit hc b hb
    | negSucc n =>
      have hc : c ∈ ("-" ++ n.succ.repr).toList := hc
      rw [String.toList_append] at hc
      rcases List.mem_cons.mp hc with rfl | hc
      · exact hminus b hb
      · exact hdigit hc b hb

/-- An exit code does not make `hex_decode` panic. -/
theorem hexDecode_exitText (task : Task) : ∃ decoded, hexDecode (exitText task) = .ok decoded := by
  unfold hexDecode
  split_ifs
  · exact ⟨none, rfl⟩
  · obtain ⟨decoded, hdecoded⟩ := hexPairs_ascii (exitText_ascii task)
    exact ⟨_, by rw [hdecoded]; rfl⟩

/-- A task as the older reader reads the row that is written now. From the tenth column on it takes
each column for the one two or three places before. -/
def legacyTask (task : Task) : Task :=
  { reloadedTask task with
    request_id := clean task.id
    actor := task.request_id
    output_sha256 := ""
    output_truncated := false
    output_limit := maxTaskOutputLimit
    exit_code := exitCodeOf (some (clean task.output_sha256).toList)
    lease_token := ((hexDecode (exitText task)).toOption.bind id).getD ""
    timeout_ms := limitOr (some (hexEncode task.lease_token).toList) maxTaskTimeoutMs
      defaultTaskTimeoutMs }

/-- The older reader reads a row so. -/
theorem parseLegacyTaskLine_row (task : Task) :
    parseLegacyTaskLine (rowLine (taskFields task)) = .ok (some (legacyTask task)) := by
  obtain ⟨decoded, hdecoded⟩ := hexDecode_exitText task
  have hexit : decodeOr (some (exitText task).toList) "" =
      .ok (((hexDecode (exitText task)).toOption.bind id).getD "") := by
    rw [decodeOr, String.ofList_toList, hdecoded]
    rfl
  -- The mark of the current layout stands where the older one has the request; it is no
  -- hexadecimal text.
  have hmark (default : String) : decodeOr
      (some (if task.output_truncated then "truncated" else "complete").toList) default =
        .ok default := by
    have htruncated : hexDecode "truncated" = .ok none := rfl
    have hcomplete : hexDecode "complete" = .ok none := rfl
    rw [decodeOr, String.ofList_toList]
    cases task.output_truncated with
    | false => rw [if_neg Bool.false_ne_true, hcomplete]; rfl
    | true => rw [if_pos rfl, htruncated]; rfl
  have hlease : (parseUnsigned u64Max task.lease_until.repr.toList).getD 0 =
      if task.lease_until ≤ u64Max then task.lease_until else 0 := parseUnsigned_getD _ _ _
  have htext : (task.exit_code.map Int.repr).getD "" = exitText task := rfl
  unfold parseLegacyTaskLine
  rw [splitN_rowLine_take (n := 14) (plain_taskFields task) (by simp [taskFields])]
  simp only [taskFields, List.map_cons, List.take_succ_cons, List.take_zero, List.cons_append,
    List.nil_append, List.getElem?_cons_succ, List.getElem?_cons_zero, decodeOr_hexEncode, hmark,
    String.ofList_toList, fieldOr_toList, Option.bind_some, hlease, htext, hexit]
  rfl

/-- A task that the older reader gets right: it has no result and no lease, its request is named
like the task and its actor like the request, and its limits are the defaults. -/
structure LegacyLike (task : Task) : Prop where
  output_sha256 : task.output_sha256 = ""
  complete : task.output_truncated = false
  exit_code : task.exit_code = none
  lease_token : task.lease_token = ""
  request_id : task.request_id = clean task.id
  actor : task.actor = task.request_id
  timeout_ms : reloadedLimit task.timeout_ms maxTaskTimeoutMs defaultTaskTimeoutMs =
    defaultTaskTimeoutMs
  output_limit : reloadedLimit task.output_limit maxTaskOutputLimit maxTaskOutputLimit =
    maxTaskOutputLimit

/-- Only the empty text is clean of everything. -/
theorem clean_eq_empty {s : String} : clean s = "" ↔ s = "" := by
  constructor
  · intro h
    have hnil : (clean s).toList = [] := by
      rw [h]
      rfl
    rw [clean, String.toList_ofList, List.map_eq_nil_iff] at hnil
    exact String.toList_eq_nil_iff.mp hnil
  · rintro rfl
    rfl

/-- The two readers agree on a task exactly when it is such a task. -/
theorem legacyTask_eq_iff {task : Task} (h : ExitFits task) :
    legacyTask task = reloadedTask task ↔ LegacyLike task := by
  have hnone : exitCodeOf (some "".toList) = none := rfl
  have hempty : hexDecode "" = .ok (some "") := rfl
  have htimeout : limitOr (some (hexEncode "").toList) maxTaskTimeoutMs defaultTaskTimeoutMs =
      defaultTaskTimeoutMs := rfl
  constructor
  · intro heq
    have hsha : task.output_sha256 = "" :=
      clean_eq_empty.mp (congrArg Task.output_sha256 heq).symm
    have hexit : task.exit_code = none := by
      have hcode := congrArg Task.exit_code heq
      simp only [legacyTask, reloadedTask, h.filter] at hcode
      rw [← hcode, clean_eq_empty.mpr hsha, hnone]
    have hlease : task.lease_token = "" := by
      have htoken := congrArg Task.lease_token heq
      simp only [legacyTask, reloadedTask, exitText, hexit] at htoken
      rw [← htoken]
      rfl
    have hlimit := congrArg Task.timeout_ms heq
    simp only [legacyTask, reloadedTask, hlease, htimeout] at hlimit
    exact ⟨hsha, (congrArg Task.output_truncated heq).symm, hexit, hlease,
      (congrArg Task.request_id heq).symm, (congrArg Task.actor heq).symm, hlimit.symm,
      (congrArg Task.output_limit heq).symm⟩
  · intro hlike
    have hlease : ((hexDecode (exitText task)).toOption.bind id).getD "" = "" := by
      rw [exitText, hlike.exit_code]
      rfl
    simp only [legacyTask, reloadedTask, hlease, htimeout, hlike.output_sha256, hlike.complete,
      hlike.exit_code, hlike.lease_token, hlike.actor, hlike.request_id, hlike.timeout_ms,
      hlike.output_limit]
    rfl

/-- The texts of the files that the older loader reads. -/
def tsvFiles (store : Store) : List (String × String) :=
  [("nodes.tsv", nodesTsv store), ("tasks.tsv", tasksTsv store), ("grants.tsv", grantsTsv store),
    ("approvals.tsv", approvalsTsv store)]

/-- What the older loader makes of the files of a store, of which it finds and reads some. -/
def legacyStore (env : Env) (store : Store) (shown : String → Bool) : Store where
  nodes := if shown "nodes.tsv" then store.nodes.map (reloadedNode env) else []
  tasks := if shown "tasks.tsv" then store.tasks.map legacyTask else []
  audit := []
  grants := if shown "grants.tsv" then store.grants.filterMap reloadedGrant else []
  approvals := if shown "approvals.tsv" then store.approvals.filterMap reloadedApproval else []

/-- The older loader reads a node as the loader of snapshots does. -/
theorem nodeOfFields_row (env : Env) (node : Node) :
    nodeOfFields env (splitN '\t' 15 (rowLine (nodeFields node))) =
      .ok (some (reloadedNode env node)) := by
  -- A node has thirteen fields, so that both readers split its row alike.
  have hlength : (nodeFields node).length = 13 := rfl
  have holder : splitN '\t' 15 (rowLine (nodeFields node)) = (nodeFields node).map String.toList :=
    splitN_rowLine (plain_nodeFields node) (List.cons_ne_nil _ _) (by omega)
  have hnewer : splitN '\t' 13 (rowLine (nodeFields node)) = (nodeFields node).map String.toList :=
    splitN_rowLine (plain_nodeFields node) (List.cons_ne_nil _ _) (by omega)
  have hparsed : nodeOfFields env (splitN '\t' 13 (rowLine (nodeFields node))) =
      .ok (some (reloadedNode env node)) := parseNodeLine_row env node
  rw [hnewer] at hparsed
  rw [holder]
  exact hparsed

/-- The older loader reads the files of a store so. -/
theorem loadLegacyStore_shown (env : Env) {store : Store} {shown : String → Bool}
    {read_store_text : String → Option String}
    (h : ∀ file ∈ tsvFiles store,
      read_store_text file.1 = if shown file.1 then some file.2 else none) :
    loadLegacyStore env read_store_text = .ok (legacyStore env store shown) := by
  simp only [tsvFiles, List.forall_mem_cons] at h
  obtain ⟨hnodes, htasks, hgrants, happrovals, -⟩ := h
  have hnodeRows : parseFile (fun line => nodeOfFields env (splitN '\t' 15 line))
      (if shown "nodes.tsv" then some (nodesTsv store) else none) =
        .ok (if shown "nodes.tsv" then
          store.nodes.filterMap fun node => some (reloadedNode env node) else []) :=
    parseFile_rows store.nodes nodeFields _ _ plain_nodeFields (nodeOfFields_row env)
  have htaskRows : parseFile parseLegacyTaskLine
      (if shown "tasks.tsv" then some (tasksTsv store) else none) =
        .ok (if shown "tasks.tsv" then
          store.tasks.filterMap fun task => some (legacyTask task) else []) :=
    parseFile_rows store.tasks taskFields _ _ plain_taskFields parseLegacyTaskLine_row
  have hgrantRows : parseFile (fun line => .ok (parseGrantLine line))
      (if shown "grants.tsv" then some (grantsTsv store) else none) =
        .ok (if shown "grants.tsv" then store.grants.filterMap reloadedGrant else []) :=
    parseFile_rows store.grants grantFields _ _ plain_grantFields fun grant =>
      congrArg Except.ok (parseGrantLine_row grant)
  have happrovalRows : parseFile parseApprovalLine
      (if shown "approvals.tsv" then some (approvalsTsv store) else none) =
        .ok (if shown "approvals.tsv" then store.approvals.filterMap reloadedApproval else []) :=
    parseFile_rows store.approvals approvalFields _ _ plain_approvalFields parseApprovalLine_row
  unfold loadLegacyStore
  rw [hnodes, htasks, hgrants, happrovals, hnodeRows, htaskRows, hgrantRows, happrovalRows]
  simp only [legacyStore, List.filterMap_eq_map']
  rfl

/-! ## Directories that calls leave -/

section Directories

variable [Aead] {store_key : Option (Vector UInt8 32)} {call : Call} {store : Store}
  {last : Option Store} {dir : Disk}

/-- The numbers of a store that the readers look at are within the types of the source. -/
structure InTypes (store : Store) : Prop where
  exit_codes : ∀ task ∈ store.tasks, ExitFits task
  times : TimesFit store.audit
  grants : ∀ grant ∈ store.grants, grant.expires_at ≤ u64Max
  approvals : ∀ approval ∈ store.approvals, approval.expires_at ≤ u64Max

/-- The directories that successful calls of `persist_snapshot` leave in an empty one, with the
store of the last call. -/
inductive Persisted (store_key : Option (Vector UInt8 32)) : Option Store → Disk → Prop
  | empty : Persisted store_key none fun _ => none
  | persisted (call : Call) (store : Store) (last : Option Store) (dir : Disk)
      (h : Persisted store_key last dir) (htypes : InTypes store) :
      Persisted store_key (some store) (persistSnapshot store_key call store none dir).2

/-- The files are written under temporary names. -/
theorem hides_replacements (store_key : Option (Vector UInt8 32)) (call : Call) (store : Store)
    (dir : Disk) : Hides IsTemporary (replacements store_key call store dir) := by
  have htemporary (stem : String) : IsTemporary (temporaryName call stem) := by
    rw [IsTemporary, endsWith, temporaryName, String.toList_append, List.isSuffixOf_iff_suffix]
    exact List.suffix_append _ _
  have hwrite (name stem contents : String) (hname : endsWith name ".tmp" = false) :
      IsTemporary (atomicWrite store_key call name stem contents).temporary ∧
        ¬IsTemporary (atomicWrite store_key call name stem contents).target :=
    ⟨htemporary stem, fun h => absurd (hname.symm.trans h) Bool.false_ne_true⟩
  have hbackup (existing : List UInt8) :
      IsTemporary (backupOf store_key call existing).temporary ∧
        ¬IsTemporary (backupOf store_key call existing).target :=
    ⟨htemporary _, fun h => absurd (show endsWith "store.snapshot.bak" ".tmp" = true from h)
      (by decide)⟩
  intro r hr
  simp only [replacements, List.mem_append, List.mem_cons, List.not_mem_nil, or_false,
    Option.mem_toList, Option.map_eq_some_iff] at hr
  rcases hr with ((rfl | rfl) | ⟨existing, -, rfl⟩) | rfl | rfl | rfl | rfl
  · exact hwrite _ _ _ (by decide)
  · exact hwrite _ _ _ (by decide)
  · exact hbackup existing
  · exact hwrite _ _ _ (by decide)
  · exact hwrite _ _ _ (by decide)
  · exact hwrite _ _ _ (by decide)
  · exact hwrite _ _ _ (by decide)

/-- No file is replaced twice. -/
theorem nodup_replacements (store_key : Option (Vector UInt8 32)) (call : Call) (store : Store)
    (dir : Disk) :
    ((replacements store_key call store dir).map Replacement.target).Nodup := by
  unfold replacements
  cases dir "store.snapshot" with
  | none =>
    show ["nodes.tsv", "tasks.tsv", "store.snapshot", "grants.tsv", "approvals.tsv",
      "audit.jsonl"].Nodup
    decide
  | some existing =>
    show ["nodes.tsv", "tasks.tsv", "store.snapshot.bak", "store.snapshot", "grants.tsv",
      "approvals.tsv", "audit.jsonl"].Nodup
    decide

/-- A file of a call reads as its text from its turn on. -/
theorem readStoreText_replaced [LawfulAead] {name stem text : String} {i : ℕ}
    (hi : (replacements store_key call store dir)[i]? =
      some (atomicWrite store_key call name stem text)) (count : ℕ) :
    readStoreText store_key (replaced ((replacements store_key call store dir).take count) dir)
        name =
      if i < count then (if Legible store_key text then some text else none)
      else readStoreText store_key dir name := by
  have hfile : replaced ((replacements store_key call store dir).take count) dir name =
      if i < count then some (encodeStoreBytes store_key (call.nonce name) (bytes text))
      else dir name :=
    replaced_take hi (nodup_replacements store_key call store dir) count dir
  split_ifs with hcount hlegible
  · rw [if_pos hcount] at hfile
    rw [readStoreText_written hfile, if_pos hlegible]
  · rw [if_pos hcount] at hfile
    rw [readStoreText_written hfile, if_neg hlegible]
  · rw [if_neg hcount] at hfile
    rw [readStoreText, readStoreText, hfile]

/-- The place of the snapshot among the files of a call: the copy of the old one comes before
it. -/
def snapshotPlace (last : Option Store) : ℕ := if last.isSome then 3 else 2

omit [Aead] in
/-- A snapshot is read back whatever the key. -/
theorem legible_snapshot (store_key : Option (Vector UInt8 32)) (store : Store) :
    Legible store_key (snapshotText store) := by
  have hbytes : ∃ rest, bytes (snapshotText store) = bytes "NODEWE-SNAPSHOT-V1" ++ rest := by
    rw [bytes_eq_flatMap, toList_snapshotText, List.flatMap_append, ← bytes_eq_flatMap]
    exact ⟨_, rfl⟩
  obtain ⟨rest, hrest⟩ := hbytes
  right
  rw [hrest]
  rfl

/-- The older files that the loader finds and reads after `count` files of a first call. -/
def shownAfter (store_key : Option (Vector UInt8 32)) (store : Store) (count : ℕ)
    (name : String) : Bool :=
  decide (name = "nodes.tsv" ∧ 0 < count ∧ Legible store_key (nodesTsv store)) ||
    decide (name = "tasks.tsv" ∧ 1 < count ∧ Legible store_key (tasksTsv store))

/-- What the loader finds after `count` files of a call. -/
def visible [Serde] (store_key : Option (Vector UInt8 32)) (env : Env) (last : Option Store)
    (store : Store) (count : ℕ) : Store :=
  if snapshotPlace last < count then reloadedStore env store
  else
    match last with
    | some old => reloadedStore env old
    | none => legacyStore env store (shownAfter store_key store count)

/-- What the loader makes of the store of the last successful call. -/
def reading [Serde] (env : Env) (last : Option Store) : Store :=
  (last.map (reloadedStore env)).getD Store.empty

omit [Aead] in
/-- Nothing is there before the first call. -/
theorem visible_zero [Serde] (store_key : Option (Vector UInt8 32)) (env : Env)
    (last : Option Store) (store : Store) :
    visible store_key env last store 0 = reading env last := by
  cases last with
  | none => rfl
  | some old => rfl

section Loading

variable [LawfulAead]

/-- A file that a successful call writes reads as its text. -/
theorem readStoreText_persisted {name stem text : String}
    (hmem : atomicWrite store_key call name stem text ∈ replacements store_key call store dir) :
    readStoreText store_key (persistSnapshot store_key call store none dir).2 name =
      if Legible store_key text then some text else none := by
  obtain ⟨i, hi⟩ := List.mem_iff_getElem?.mp hmem
  have hlength : i < (replacements store_key call store dir).length :=
    (List.getElem?_eq_some_iff.mp hi).1
  have hhides := hides_replacements store_key call store dir
  have hagree := run_agree hhides dir name (hhides _ hmem).2
  have hread := readStoreText_replaced hi (replacements store_key call store dir).length
  rw [List.take_length, if_pos hlength] at hread
  rw [← hread, readStoreText, readStoreText, ← hagree]
  rfl

/-- The snapshot of the last successful call, and nothing where there was none. -/
theorem Persisted.snapshot (h : Persisted store_key last dir) :
    match last with
    | some old => InTypes old ∧ readStoreText store_key dir "store.snapshot" =
        some (snapshotText old) ∧ dir "store.snapshot" ≠ none
    | none => dir = fun _ => none := by
  cases h with
  | empty => rfl
  | persisted call store last dir h htypes =>
    have hmem : atomicWrite store_key call "store.snapshot" "store" (snapshotText store) ∈
        replacements store_key call store dir :=
      List.mem_append_right _ List.mem_cons_self
    have hfound := readStoreText_persisted hmem
    rw [if_pos (legible_snapshot store_key store)] at hfound
    refine ⟨htypes, hfound, fun hnone => ?_⟩
    rw [readStoreText_none hnone] at hfound
    cases hfound

variable [Serde] [Rfc8259]

omit [LawfulAead] in
/-- A snapshot that reads is the store that is loaded. -/
theorem loadStore_of_snapshot (env : Env) (hstore : InTypes store)
    (h : readStoreText store_key dir "store.snapshot" = some (snapshotText store)) :
    loadStore store_key env dir = .ok (reloadedStore env store) := by
  rw [loadStore, h]
  dsimp only
  rw [parseSnapshot_fits env hstore.times]

/-- **What is loaded after a call that stopped.** -/
theorem loadStore_interrupted (hdir : Persisted store_key last dir) (hstore : InTypes store)
    (call : Call) (k : ℕ) (left : Option (List UInt8)) (env : Env) :
    loadStore store_key env (interrupted (replacements store_key call store dir) k left dir) =
      .ok (visible store_key env last store (k / 2)) := by
  rw [loadStore_agree env (interrupted_agree (hides_replacements store_key call store dir) k left
    dir)]
  have hsnapshot := hdir.snapshot
  cases last with
  | some old =>
    obtain ⟨hold, hread, hthere⟩ := hsnapshot
    obtain ⟨existing, hexisting⟩ := Option.ne_none_iff_exists'.mp hthere
    have hplace : (replacements store_key call store dir)[3]? = some (atomicWrite store_key call
        "store.snapshot" "store" (snapshotText store)) := by
      unfold replacements
      rw [hexisting]
      rfl
    have hthen := readStoreText_replaced hplace (k / 2)
    rw [if_pos (legible_snapshot store_key store), hread] at hthen
    have hthree : snapshotPlace (some old) = 3 := rfl
    by_cases hcount : 3 < k / 2
    · rw [if_pos hcount] at hthen
      rw [loadStore_of_snapshot env hstore hthen, visible, hthree, if_pos hcount]
    · rw [if_neg hcount] at hthen
      rw [loadStore_of_snapshot env hold hthen, visible, hthree, if_neg hcount]
  | none =>
    obtain rfl : dir = fun _ => none := hsnapshot
    have htwo : snapshotPlace none = 2 := rfl
    have hfile (i : ℕ) (name stem text : String)
        (hi : (replacements store_key call store fun _ => none)[i]? =
          some (atomicWrite store_key call name stem text)) :
        readStoreText store_key
            (replaced ((replacements store_key call store fun _ => none).take (k / 2))
              fun _ => none) name =
          if i < k / 2 ∧ Legible store_key text then some text else none := by
      rw [readStoreText_replaced hi (k / 2), readStoreText_none rfl, ite_and]
    have hsnapshot := hfile 2 "store.snapshot" "store" (snapshotText store) rfl
    by_cases hcount : 2 < k / 2
    · rw [if_pos ⟨hcount, legible_snapshot store_key store⟩] at hsnapshot
      rw [loadStore_of_snapshot env hstore hsnapshot, visible, htwo, if_pos hcount]
    · rw [if_neg fun h => hcount h.1] at hsnapshot
      rw [visible, htwo, if_neg hcount, loadStore, hsnapshot]
      refine loadLegacyStore_shown env ?_
      simp only [tsvFiles, List.forall_mem_cons]
      refine ⟨?_, ?_, ?_, ?_, List.forall_mem_nil _⟩
      · rw [hfile 0 "nodes.tsv" "nodes" (nodesTsv store) rfl]
        simp [shownAfter]
      · rw [hfile 1 "tasks.tsv" "tasks" (tasksTsv store) rfl]
        simp [shownAfter]
      -- The other two files come after the snapshot.
      · rw [hfile 3 "grants.tsv" "grants" (grantsTsv store) rfl, if_neg (by omega)]
        rfl
      · rw [hfile 4 "approvals.tsv" "approvals" (approvalsTsv store) rfl, if_neg (by omega)]
        rfl

end Loading

end Directories

end NodeWe.ControlPlane
