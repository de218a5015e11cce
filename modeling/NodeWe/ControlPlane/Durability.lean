import NodeWe.ControlPlane.Recovery

/-!
# Failed and interrupted calls

The commit point of `persist_snapshot` is the rename of the snapshot. A call that fails later is
reported as a failure and takes effect at the next start; a first call that stops earlier leaves the
older files, which the loader reads. Both are stated as the exact conditions under which the
directory still reads as it should. The older reader of the tasks has kept the layout of an earlier
version.
-/

namespace NodeWe.ControlPlane

open Text AtomicFiles Transition

/-! ## What the older files show -/

/-- After `count` files of a first call, the older files show nothing: each is not replaced yet,
has no row, or cannot be read. -/
def NothingShown (store_key : Option (Vector UInt8 32)) (store : Store) (count : ℕ) : Prop :=
  (0 < count → Legible store_key (nodesTsv store) → store.nodes = []) ∧
    (1 < count → Legible store_key (tasksTsv store) → store.tasks = [])

/-- After `count` files of a first call, the older files show the whole store: it has nothing but
nodes and tasks, and these are in files that are there and are read right. -/
structure WholeShown (store_key : Option (Vector UInt8 32)) (store : Store) (count : ℕ) : Prop where
  audit : store.audit = []
  grants : store.grants = []
  approvals : store.approvals = []
  nodes : store.nodes = [] ∨ 0 < count ∧ Legible store_key (nodesTsv store)
  tasks : store.tasks = [] ∨ 1 < count ∧ Legible store_key (tasksTsv store) ∧
    ∀ task ∈ store.tasks, LegacyLike task

section Shown

variable {store_key : Option (Vector UInt8 32)} {store : Store} {env : Env} {count : ℕ}

/-- The nodes file is shown when it is there and legible. -/
theorem shownAfter_nodes : shownAfter store_key store count "nodes.tsv" = true ↔
    0 < count ∧ Legible store_key (nodesTsv store) := by
  simp [shownAfter]

/-- The tasks file is shown when it is there and legible. -/
theorem shownAfter_tasks : shownAfter store_key store count "tasks.tsv" = true ↔
    1 < count ∧ Legible store_key (tasksTsv store) := by
  simp [shownAfter]

/-- The other files come later. -/
theorem shownAfter_others (store_key : Option (Vector UInt8 32)) (store : Store) (count : ℕ) :
    shownAfter store_key store count "grants.tsv" = false ∧
    shownAfter store_key store count "approvals.tsv" = false := by
  constructor <;> simp [shownAfter]

/-- The rows that are shown are none exactly when none is shown. -/
theorem ite_map_eq_nil {α β : Type} {shown : Prop} [Decidable shown] {f : α → β} {xs : List α} :
    (if shown then xs.map f else []) = [] ↔ (shown → xs = []) := by
  split_ifs with h
  · rw [List.map_eq_nil_iff]
    exact ⟨fun hnil _ => hnil, fun hnil => hnil h⟩
  · exact iff_of_true rfl (fun h' => absurd h' h)

/-- The rows that are shown are as they should be exactly when there are none, or they are shown
and each is. -/
theorem ite_map_eq_map {α β : Type} {shown : Prop} [Decidable shown] {f g : α → β}
    {xs : List α} :
    (if shown then xs.map f else []) = xs.map g ↔ xs = [] ∨ shown ∧ ∀ x ∈ xs, f x = g x := by
  split_ifs with h
  · rw [List.map_inj_left]
    constructor
    · exact fun hall => .inr ⟨h, hall⟩
    · rintro (rfl | ⟨-, hall⟩)
      · exact List.forall_mem_nil _
      · exact hall
  · rw [eq_comm, List.map_eq_nil_iff]
    exact ⟨.inl, fun hor => hor.resolve_right fun hshown => h hshown.1⟩

/-- Two stores are equal when their lists are. -/
theorem store_eq_iff {store store' : Store} :
    store = store' ↔ store.nodes = store'.nodes ∧ store.tasks = store'.tasks ∧
      store.audit = store'.audit ∧ store.grants = store'.grants ∧
      store.approvals = store'.approvals := by
  constructor
  · rintro rfl
    exact ⟨rfl, rfl, rfl, rfl, rfl⟩
  · cases store
    cases store'
    rintro ⟨rfl, rfl, rfl, rfl, rfl⟩
    rfl

/-- The older loader finds an empty store exactly when nothing is shown. -/
theorem legacyStore_eq_empty :
    legacyStore env store (shownAfter store_key store count) = Store.empty ↔
      NothingShown store_key store count := by
  have hothers := shownAfter_others store_key store count
  rw [store_eq_iff]
  simp only [legacyStore, hothers.1, hothers.2, Store.empty, ite_map_eq_nil, shownAfter_nodes,
    shownAfter_tasks, Bool.false_eq_true, if_false, and_true, NothingShown, and_imp]

/-- A list whose items are all read is read as no item exactly when it has none. -/
theorem filterMap_eq_nil_of_read {α β : Type} {f : α → Option β} {xs : List α}
    (h : ∀ x ∈ xs, (f x).isSome = true) : xs.filterMap f = [] ↔ xs = [] := by
  rw [List.filterMap_eq_nil_iff]
  constructor
  · intro hnone
    refine List.eq_nil_iff_forall_not_mem.mpr fun x hx => ?_
    have hsome := h x hx
    rw [hnone x hx] at hsome
    cases hsome
  · rintro rfl
    exact List.forall_mem_nil _

/-- Every grant within the types of the source is read. -/
theorem InTypes.read_grants (h : InTypes store) :
    store.grants.filterMap reloadedGrant = [] ↔ store.grants = [] := by
  refine filterMap_eq_nil_of_read fun grant hgrant => ?_
  rw [reloadedGrant, if_pos (h.grants grant hgrant)]
  rfl

/-- Every approval within the types of the source is read. -/
theorem InTypes.read_approvals (h : InTypes store) :
    store.approvals.filterMap reloadedApproval = [] ↔ store.approvals = [] := by
  refine filterMap_eq_nil_of_read fun approval happroval => ?_
  rw [reloadedApproval, if_pos (h.approvals approval happroval)]
  rfl

/-- The older loader finds the whole store exactly when it is shown. -/
theorem legacyStore_eq_reloaded [Serde] [Rfc8259] (hstore : InTypes store) :
    legacyStore env store (shownAfter store_key store count) = reloadedStore env store ↔
      WholeShown store_key store count := by
  have hothers := shownAfter_others store_key store count
  have haudit : [] = (reloadedStore env store).audit ↔ store.audit = [] := by
    have hlength := length_sealedFromLink "GENESIS" store.audit
    rw [reloadedStore_audit env hstore.times, eq_comm, ← List.length_eq_zero_iff, sealedRecords,
      hlength, List.length_eq_zero_iff]
  have hgrants : [] = (reloadedStore env store).grants ↔ store.grants = [] := by
    rw [eq_comm]
    exact hstore.read_grants
  have happrovals : [] = (reloadedStore env store).approvals ↔ store.approvals = [] := by
    rw [eq_comm]
    exact hstore.read_approvals
  have htasks : (∀ task ∈ store.tasks, legacyTask task = reloadedTask task) ↔
      ∀ task ∈ store.tasks, LegacyLike task :=
    forall₂_congr fun task htask => legacyTask_eq_iff (hstore.exit_codes task htask)
  rw [store_eq_iff]
  simp only [legacyStore, hothers.1, hothers.2, Bool.false_eq_true, if_false, haudit, hgrants,
    happrovals]
  simp only [reloadedStore, ite_map_eq_map, shownAfter_nodes, shownAfter_tasks, htasks,
    implies_true, and_true]
  constructor
  · rintro ⟨hnodes, htasks, haudit, hgrants, happrovals⟩
    exact ⟨haudit, hgrants, happrovals, hnodes, by simpa [and_assoc] using htasks⟩
  · intro h
    exact ⟨h.nodes, by simpa [and_assoc] using h.tasks, h.audit, h.grants, h.approvals⟩

end Shown

/-! ## Failed calls -/

section Calls

variable [Aead] [LawfulAead] [Serde] [Rfc8259]

omit [LawfulAead] [Serde] [Rfc8259] in
/-- A call that fails leaves the directory of the step at which it stopped. -/
theorem persistSnapshot_fails {store_key : Option (Vector UInt8 32)} {call : Call} {store : Store}
    {k : ℕ} {left : Option (List UInt8)} {dir : Disk}
    (h : (persistSnapshot store_key call store (some (k, left)) dir).1 = false) :
    (persistSnapshot store_key call store (some (k, left)) dir).2 =
      interrupted (replacements store_key call store dir) k left dir := by
  unfold persistSnapshot perform at h ⊢
  dsimp only at h ⊢
  split_ifs at h ⊢ with hk
  · rfl

omit [Aead] [LawfulAead] [Rfc8259] in
/-- A call that stops after `count` files is not noticed at the next start: the snapshot is not
replaced yet, and where it would be the first one the older files show nothing; or it is replaced,
and the new store reads back as the one before. -/
def Unnoticed (store_key : Option (Vector UInt8 32)) (env : Env) (last : Option Store)
    (store : Store) (count : ℕ) : Prop :=
  if snapshotPlace last < count then reloadedStore env store = reading env last
  else last = none → NothingShown store_key store count

/-- **A failed call does not resurrect, exactly when** it fails before the snapshot is replaced, or
the new store reads back as the old one; a first call also must not have shown a record in the
older files. -/
theorem failed_persist_kept_iff {store_key : Option (Vector UInt8 32)} {last : Option Store}
    {dir : Disk} {store : Store} (call : Call) (k : ℕ) (left : Option (List UInt8)) (env : Env)
    (hdir : Persisted store_key last dir) (hstore : InTypes store)
    (hfails : (persistSnapshot store_key call store (some (k, left)) dir).1 = false) :
    loadStore store_key env (persistSnapshot store_key call store (some (k, left)) dir).2 =
        loadStore store_key env dir ↔
      Unnoticed store_key env last store (k / 2) := by
  have hbefore : loadStore store_key env dir = .ok (reading env last) := by
    have hload := loadStore_interrupted hdir hstore call 0 none env
    rwa [Nat.zero_div, visible_zero] at hload
  rw [persistSnapshot_fails hfails, hbefore, loadStore_interrupted hdir hstore call k left env,
    Except.ok.injEq]
  unfold visible Unnoticed
  split_ifs with hplace
  · exact Iff.rfl
  · cases last with
    | some old => exact iff_of_true rfl fun h => absurd h (Option.some_ne_none old)
    | none =>
      have hempty : legacyStore env store (shownAfter store_key store (k / 2)) = Store.empty ↔ _ :=
        legacyStore_eq_empty
      exact hempty.trans ⟨fun h _ => h, fun h => h rfl⟩

/-- **A crash leaves the old store or the new one, exactly when** a call finished before, the crash
is not between the replacement of the first file and that of the snapshot, or the older files show
nothing or everything. -/
theorem crash_atomic_iff {store_key : Option (Vector UInt8 32)} {last : Option Store} {dir : Disk}
    {store : Store} (call : Call) (k : ℕ) (left : Option (List UInt8)) (env : Env)
    (hdir : Persisted store_key last dir) (hstore : InTypes store) :
    (loadStore store_key env (interrupted (replacements store_key call store dir) k left dir) =
          .ok (reading env last) ∨
        loadStore store_key env (interrupted (replacements store_key call store dir) k left dir) =
          .ok (reading env (some store))) ↔
      last ≠ none ∨ snapshotPlace last < k / 2 ∨ NothingShown store_key store (k / 2) ∨
        WholeShown store_key store (k / 2) := by
  rw [loadStore_interrupted hdir hstore call k left env, Except.ok.injEq, Except.ok.injEq]
  unfold visible
  have hnew : reading env (some store) = reloadedStore env store := rfl
  split_ifs with hplace
  · exact iff_of_true (.inr hnew.symm) (.inr (.inl hplace))
  · cases last with
    | some old => exact iff_of_true (.inl rfl) (.inl (Option.some_ne_none old))
    | none =>
      have hempty : reading env none = Store.empty := rfl
      dsimp only
      rw [hempty, hnew, legacyStore_eq_empty, legacyStore_eq_reloaded hstore]
      simp [hplace]

end Calls

/-! ## The two readers -/

section Readers

/-- The older loader and the snapshot give the same nodes, tasks, grants, and approvals. -/
def ReadersAgree [Aead] [Serde] (store_key : Option (Vector UInt8 32)) (env : Env) (dir : Disk) :
    Prop :=
  ∃ legacy text loaded, loadLegacyStore env (readStoreText store_key dir) = .ok legacy ∧
    readStoreText store_key dir "store.snapshot" = some text ∧
    parseSnapshot env text = .ok (some loaded) ∧ legacy.nodes = loaded.nodes ∧
    legacy.tasks = loaded.tasks ∧ legacy.grants = loaded.grants ∧
    legacy.approvals = loaded.approvals

/-- The older files that are legible. -/
def shownLegible (store_key : Option (Vector UInt8 32)) (store : Store) (name : String) : Bool :=
  ((tsvFiles store).lookup name).any fun text => decide (Legible store_key text)

/-- A file without rows is legible. -/
theorem legible_empty (store_key : Option (Vector UInt8 32)) : Legible store_key "" := .inr rfl

/-- Rows that are legible are shown whole; where there are none, the file is legible. -/
theorem ite_eq_self {α : Type} {shown : Prop} [Decidable shown] {xs : List α}
    (h : xs = [] → shown) : (if shown then xs else []) = xs ↔ shown := by
  split_ifs with hshown
  · exact iff_of_true rfl hshown
  · exact iff_of_false (fun heq => hshown (h heq.symm)) hshown

/-- A store that fits is within the types of the source. -/
theorem StoreFits.inTypes {store : Store} (h : StoreFits store) : InTypes store where
  exit_codes := fun task htask => (h.tasks task htask).exit_code
  times := h.audit
  grants := fun grant hgrant => (h.grants grant hgrant).expires_at
  approvals := fun approval happroval => (h.approvals approval happroval).expires_at

variable {store_key : Option (Vector UInt8 32)} {store : Store}

/-- The records that the older loader finds are those of the snapshot exactly when every file is
legible, and every task is one that the older layout can carry. -/
theorem legacyStore_agrees_iff [Serde] (env : Env) (hstore : InTypes store) :
    ((legacyStore env store (shownLegible store_key store)).nodes =
          (reloadedStore env store).nodes ∧
        (legacyStore env store (shownLegible store_key store)).tasks =
          (reloadedStore env store).tasks ∧
        (legacyStore env store (shownLegible store_key store)).grants =
          (reloadedStore env store).grants ∧
        (legacyStore env store (shownLegible store_key store)).approvals =
          (reloadedStore env store).approvals) ↔
      (∀ file ∈ tsvFiles store, Legible store_key file.2) ∧
        ∀ task ∈ store.tasks, LegacyLike task := by
  have hnodes : store.nodes.map (reloadedNode env) = [] → Legible store_key (nodesTsv store) := by
    intro hnil
    rw [nodesTsv, List.map_eq_nil_iff.mp hnil]
    exact legible_empty store_key
  have htasks : store.tasks = [] → Legible store_key (tasksTsv store) := by
    intro hnil
    rw [tasksTsv, hnil]
    exact legible_empty store_key
  have hgrants : store.grants.filterMap reloadedGrant = [] →
      Legible store_key (grantsTsv store) := by
    intro hnil
    rw [grantsTsv, hstore.read_grants.mp hnil]
    exact legible_empty store_key
  have happrovals : store.approvals.filterMap reloadedApproval = [] →
      Legible store_key (approvalsTsv store) := by
    intro hnil
    rw [approvalsTsv, hstore.read_approvals.mp hnil]
    exact legible_empty store_key
  have hlike : (∀ task ∈ store.tasks, legacyTask task = reloadedTask task) ↔
      ∀ task ∈ store.tasks, LegacyLike task :=
    forall₂_congr fun task htask => legacyTask_eq_iff (hstore.exit_codes task htask)
  have hshown : shownLegible store_key store "nodes.tsv" =
        decide (Legible store_key (nodesTsv store)) ∧
      shownLegible store_key store "tasks.tsv" = decide (Legible store_key (tasksTsv store)) ∧
      shownLegible store_key store "grants.tsv" = decide (Legible store_key (grantsTsv store)) ∧
      shownLegible store_key store "approvals.tsv" =
        decide (Legible store_key (approvalsTsv store)) := by
    simp [shownLegible, tsvFiles, List.lookup]
  obtain ⟨hshown₁, hshown₂, hshown₃, hshown₄⟩ := hshown
  -- A file that is not legible leaves its records out, which agrees where there are none.
  simp only [legacyStore, reloadedStore, hshown₁, hshown₂, hshown₃, hshown₄, decide_eq_true_eq,
    ite_eq_self hnodes, ite_eq_self hgrants, ite_eq_self happrovals, ite_map_eq_map, hlike,
    tsvFiles, List.forall_mem_cons, List.not_mem_nil, false_imp_iff, implies_true, and_true]
  constructor
  · rintro ⟨hn, ht | ⟨ht, hall⟩, hg, ha⟩
    · refine ⟨⟨hn, htasks ht, hg, ha⟩, ?_⟩
      rw [ht]
      exact List.forall_mem_nil _
    · exact ⟨⟨hn, ht, hg, ha⟩, hall⟩
  · rintro ⟨⟨hn, ht, hg, ha⟩, hall⟩
    exact ⟨hn, .inr ⟨ht, hall⟩, hg, ha⟩

variable [Aead] [LawfulAead]

/-- What the older loader gives after a successful call. -/
theorem loadLegacyStore_persisted (store_key : Option (Vector UInt8 32)) (call : Call)
    (store : Store) (dir : Disk) (env : Env) :
    loadLegacyStore env (readStoreText store_key (persistSnapshot store_key call store none dir).2) =
      .ok (legacyStore env store (shownLegible store_key store)) := by
  refine loadLegacyStore_shown env ?_
  simp only [tsvFiles, List.forall_mem_cons]
  refine ⟨?_, ?_, ?_, ?_, List.forall_mem_nil _⟩
  · have hmem : atomicWrite store_key call "nodes.tsv" "nodes" (nodesTsv store) ∈
        replacements store_key call store dir := by simp [replacements]
    rw [readStoreText_persisted hmem]
    simp [shownLegible, tsvFiles]
  · have hmem : atomicWrite store_key call "tasks.tsv" "tasks" (tasksTsv store) ∈
        replacements store_key call store dir := by simp [replacements]
    rw [readStoreText_persisted hmem]
    simp [shownLegible, tsvFiles, List.lookup]
  · have hmem : atomicWrite store_key call "grants.tsv" "grants" (grantsTsv store) ∈
        replacements store_key call store dir := by simp [replacements]
    rw [readStoreText_persisted hmem]
    simp [shownLegible, tsvFiles, List.lookup]
  · have hmem : atomicWrite store_key call "approvals.tsv" "approvals" (approvalsTsv store) ∈
        replacements store_key call store dir := by simp [replacements]
    rw [readStoreText_persisted hmem]
    simp [shownLegible, tsvFiles, List.lookup]

variable [Serde] [Rfc8259]

/-- After a successful call the two readers agree exactly when every file is legible, and every task
is one that the older layout can carry. -/
theorem agree_persisted_iff (store_key : Option (Vector UInt8 32)) (call : Call) (dir : Disk)
    (env : Env) (hstore : InTypes store) :
    ReadersAgree store_key env (persistSnapshot store_key call store none dir).2 ↔
      (∀ file ∈ tsvFiles store, Legible store_key file.2) ∧
        ∀ task ∈ store.tasks, LegacyLike task := by
  have hmem : atomicWrite store_key call "store.snapshot" "store" (snapshotText store) ∈
      replacements store_key call store dir :=
    List.mem_append_right _ List.mem_cons_self
  have hsnapshot := readStoreText_persisted hmem
  rw [if_pos (legible_snapshot store_key store)] at hsnapshot
  have hparsed := parseSnapshot_fits env hstore.times
  have hlegacy := loadLegacyStore_persisted store_key call store dir env
  rw [← legacyStore_agrees_iff env hstore]
  constructor
  · rintro ⟨legacy, text, loaded, hload, htext, hread, hagree⟩
    -- Each reader gives one store, so that those that agree are the two known ones.
    obtain rfl : legacyStore env store (shownLegible store_key store) = legacy :=
      Except.ok.inj (hlegacy.symm.trans hload)
    obtain rfl : snapshotText store = text := Option.some.inj (hsnapshot.symm.trans htext)
    obtain rfl : reloadedStore env store = loaded :=
      Option.some.inj (Except.ok.inj (hparsed.symm.trans hread))
    exact hagree
  · exact fun hagree => ⟨_, _, _, hlegacy, hsnapshot, hparsed, hagree⟩

/-- **The two readers agree, exactly when** every file is legible, and every task is one that the
older layout can carry. -/
theorem readers_agree_iff [Ed25519] {events : List Event} (call : Call) (dir : Disk) (env : Env)
    (hrun : Run Happens Store.empty events store) (htime : InTime events) :
    ReadersAgree store_key env (persistSnapshot store_key call store none dir).2 ↔
      (∀ file ∈ tsvFiles store, Legible store_key file.2) ∧
        ∀ task ∈ store.tasks, LegacyLike task :=
  agree_persisted_iff store_key call dir env (StoreFits.of_run hrun htime).inTypes

end Readers

section Example

/-- A cipher that hides nothing, for a process without a key. -/
@[reducible] def clearCipher : Aead where
  sealed _ _ plaintext := plaintext
  opened _ _ ciphertext := some ciphertext

/-- It opens what it seals. -/
theorem lawful_clearCipher : @LawfulAead clearCipher :=
  @LawfulAead.mk clearCipher fun _ _ _ => rfl

attribute [local instance] clearCipher lawful_clearCipher compactSerde rfc8259_compactSerde noKeys

/-- A call of the process 7. -/
def exampleCall : Call := ⟨7, fun _ => Vector.replicate 12 0⟩

/-- A node. -/
def idleStore : Store := ⟨[exampleNode "a" "key-a"], [], [], [], []⟩

/-- The node and a task for it. -/
def busyStore : Store := { idleStore with tasks := [exampleTask "t" "admin" "a"] }

/-- The directory after `idleStore` is persisted. -/
def idleDir : Disk := (persistSnapshot none exampleCall idleStore none fun _ => none).2

/-- The numbers of the two stores are small. -/
theorem inTypes_busyStore : InTypes busyStore ∧ InTypes idleStore := by
  have hexit : ∀ task ∈ busyStore.tasks, task.exit_code = none := by decide
  refine ⟨⟨fun task htask code hcode => ?_, List.forall_mem_nil _, List.forall_mem_nil _,
    List.forall_mem_nil _⟩, ⟨List.forall_mem_nil _, List.forall_mem_nil _, List.forall_mem_nil _,
    List.forall_mem_nil _⟩⟩
  rw [hexit task htask] at hcode
  cases hcode

/-- The directory is one that a call leaves. -/
theorem persisted_idleDir : Persisted none (some idleStore) idleDir :=
  .persisted exampleCall idleStore none _ .empty inTypes_busyStore.2

/-- A call whose step `k` fails returns `Err`. -/
theorem fails_of_lt {k : ℕ} (hk : k < 12) (left : Option (List UInt8)) (store : Store)
    (dir : Disk) : (persistSnapshot none exampleCall store (some (k, left)) dir).1 = false := by
  have hlength : k < (stepsOf (replacements none exampleCall store dir)).length := by
    rw [length_stepsOf, replacements]
    simp only [List.length_append, List.length_cons, List.length_nil]
    omega
  unfold persistSnapshot perform
  dsimp only
  rw [if_pos hlength]

/-- The tasks are added, and the write of `grants.tsv` fails. -/
theorem failed_persist_kept_grants :
    loadStore none (exampleEnv 0)
          (persistSnapshot none exampleCall busyStore (some (8, none)) idleDir).2 =
        loadStore none (exampleEnv 0) idleDir ↔
      Unnoticed none (exampleEnv 0) (some idleStore) busyStore 4 :=
  failed_persist_kept_iff exampleCall 8 none (exampleEnv 0) persisted_idleDir inTypes_busyStore.1
    (fails_of_lt (by decide) none busyStore idleDir)

/-- The call fails, and the tasks are there after a restart. -/
theorem failed_persist_resurrects :
    Persisted none (some idleStore) idleDir ∧
      (persistSnapshot none exampleCall busyStore (some (8, none)) idleDir).1 = false ∧
      loadStore none (exampleEnv 0)
          (persistSnapshot none exampleCall busyStore (some (8, none)) idleDir).2 ≠
        loadStore none (exampleEnv 0) idleDir := by
  have hfails := fails_of_lt (show 8 < 12 by decide) none busyStore idleDir
  have hbefore := loadStore_interrupted persisted_idleDir inTypes_busyStore.1 exampleCall 0 none
    (exampleEnv 0)
  have hthen := loadStore_interrupted persisted_idleDir inTypes_busyStore.1 exampleCall 8 none
    (exampleEnv 0)
  refine ⟨persisted_idleDir, hfails, fun heq => ?_⟩
  rw [persistSnapshot_fails hfails, hthen] at heq
  have hstores := Except.ok.inj (heq.trans hbefore)
  exact absurd (congrArg (List.length ∘ Store.tasks) hstores) (by decide)

/-- The first call of a process crashes after `nodes.tsv` is replaced. -/
theorem crash_atomic_first :
    (loadStore none (exampleEnv 0) (interrupted (replacements none exampleCall busyStore
            fun _ => none) 2 none fun _ => none) = .ok (reading (exampleEnv 0) none) ∨
        loadStore none (exampleEnv 0) (interrupted (replacements none exampleCall busyStore
            fun _ => none) 2 none fun _ => none) =
          .ok (reading (exampleEnv 0) (some busyStore))) ↔
      (none : Option Store) ≠ none ∨ snapshotPlace none < 2 / 2 ∨
        NothingShown none busyStore (2 / 2) ∨ WholeShown none busyStore (2 / 2) :=
  crash_atomic_iff exampleCall 2 none (exampleEnv 0) .empty inTypes_busyStore.1

/-- The node is there after a restart, and its task is not. -/
theorem crash_leaves_mixture :
    Persisted none none (fun _ => none) ∧
      ¬(loadStore none (exampleEnv 0) (interrupted (replacements none exampleCall busyStore
            fun _ => none) 2 none fun _ => none) = .ok (reading (exampleEnv 0) none) ∨
        loadStore none (exampleEnv 0) (interrupted (replacements none exampleCall busyStore
            fun _ => none) 2 none fun _ => none) =
          .ok (reading (exampleEnv 0) (some busyStore))) := by
  have hload : loadStore none (exampleEnv 0) (interrupted (replacements none exampleCall busyStore
      fun _ => none) 2 none fun _ => none) =
        .ok (visible none (exampleEnv 0) none busyStore (2 / 2)) :=
    loadStore_interrupted .empty inTypes_busyStore.1 exampleCall 2 none (exampleEnv 0)
  rw [hload, Except.ok.injEq, Except.ok.injEq]
  refine ⟨.empty, ?_⟩
  rintro (heq | heq)
  · exact absurd (congrArg (List.length ∘ Store.nodes) heq) (by decide)
  · exact absurd (congrArg (List.length ∘ Store.tasks) heq) (by decide)

/-- The task of `recordedRun` is one that the older layout can carry. -/
theorem legacyLike_recordedRun : ∀ task ∈ recordedRun.2.tasks, LegacyLike task := by
  have hfields : ∀ task ∈ recordedRun.2.tasks, task.output_sha256 = "" ∧
      task.output_truncated = false ∧ task.exit_code = none ∧ task.lease_token = "" ∧
      task.request_id = clean task.id ∧ task.actor = task.request_id ∧
      reloadedLimit task.timeout_ms maxTaskTimeoutMs defaultTaskTimeoutMs = defaultTaskTimeoutMs ∧
      reloadedLimit task.output_limit maxTaskOutputLimit maxTaskOutputLimit =
        maxTaskOutputLimit := by
    decide +kernel
  intro task htask
  obtain ⟨hsha, hcomplete, hexit, htoken, hrequest, hactor, htimeout, hlimit⟩ := hfields task htask
  exact ⟨hsha, hcomplete, hexit, htoken, hrequest, hactor, htimeout, hlimit⟩

/-- A store key. -/
def exampleKey : Vector UInt8 32 := Vector.replicate 32 0

/-- A store with a node, a task, a grant and an approval is persisted under a key, and the two
readers agree on it. -/
theorem readers_agree_recorded :
    ReadersAgree (some exampleKey) (exampleEnv 0)
      (persistSnapshot (some exampleKey) exampleCall recordedRun.2 none fun _ => none).2 := by
  refine (readers_agree_iff exampleCall _ (exampleEnv 0) (run_handleAll _ _ _)
    inTime_recordedRun).mpr ⟨fun file _ => .inl rfl, legacyLike_recordedRun⟩

/-- The store after a task is queued for the node of `namedStore`. -/
def requestedStore : Store :=
  ((Arm.createTask exampleBodies.2 none).run exampleState (exampleEnv 0) namedStore).2

/-- Its task was requested under a name of its own, not under its actor's. -/
theorem request_requestedStore :
    requestedStore.tasks.map (fun task => task.actor == task.request_id) = [false] := by
  decide +kernel

/-- The store is within the types of the source. -/
theorem inTypes_requestedStore : Reachable requestedStore ∧ InTypes requestedStore := by
  have henrols : Handles Store.empty (.handled exampleState (exampleEnv 0)
      (.createNode exampleBodies.1 none) _) namedStore := .handled _ _ _ _
  have hqueues : Handles namedStore (.handled exampleState (exampleEnv 0)
      (.createTask exampleBodies.2 none) _) requestedStore := .handled _ _ _ _
  have hrun := (Run.single (Happens.handled _ _ _ henrols)).trans
    (.single (Happens.handled _ _ _ hqueues))
  refine ⟨⟨_, hrun⟩, (StoreFits.of_run hrun ?_).inTypes⟩
  intro event hevent
  have hclock (site : Site) : (exampleEnv 0).now site + 305000 ≤ u64Max := by
    show 0 + 305000 ≤ u64Max
    decide
  obtain hfirst | hsecond := List.mem_append.mp hevent
  · obtain rfl := List.mem_singleton.mp hfirst
    exact hclock
  · obtain rfl := List.mem_singleton.mp hsecond
    exact hclock

/-- A task is queued, and the older loader gives it another actor. -/
theorem readers_disagree :
    Reachable requestedStore ∧ ¬ReadersAgree none (exampleEnv 0)
      (persistSnapshot none exampleCall requestedStore none fun _ => none).2 := by
  have hstore := inTypes_requestedStore
  refine ⟨hstore.1, fun hagree => ?_⟩
  have hlike := ((agree_persisted_iff none exampleCall (fun _ => none) (exampleEnv 0)
    hstore.2).mp hagree).2
  have hactor : ∀ task ∈ requestedStore.tasks, (task.actor == task.request_id) = true :=
    fun task htask => beq_iff_eq.mpr (hlike task htask).actor
  have hrequest := request_requestedStore
  match htasks : requestedStore.tasks with
  | [] =>
    rw [htasks] at hrequest
    cases hrequest
  | task :: rest =>
    rw [htasks] at hrequest hactor
    have hfirst : (task.actor == task.request_id) = false := List.head_eq_of_cons_eq hrequest
    rw [hactor task List.mem_cons_self] at hfirst
    cases hfirst

end Example

end NodeWe.ControlPlane
