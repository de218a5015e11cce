import NodeWe.ControlPlane.Confinement

/-!
# Paths that name a record

Six operations name one record in their path: a node, a grant or a task. The path is built from the
record's identifier, `route_with_actor` finds the operation by the two ends of the path, and the
handler cuts the ends off again. A valid identifier has no slash, so that the ends are found where
they were put and the identifier is what is left. The operation then stays within the part of the
store that belongs to the identifier.
-/

namespace NodeWe.ControlPlane

open Text InPlace

/-! ## The operations -/

/-- The operations on one record. -/
inductive RecordOperation
  | revokeNode
  | rotateNode
  | revokeGrant
  | getTask
  | cancelTask
  | agentResult

namespace RecordOperation

/-- The method of an operation. -/
def method : RecordOperation → String
  | getTask => "GET"
  | _ => "POST"

/-- The path of an operation on the record with an identifier. -/
def path (id : String) : RecordOperation → String
  | revokeNode => "/v1/nodes/" ++ id ++ "/revoke"
  | rotateNode => "/v1/nodes/" ++ id ++ "/rotate"
  | revokeGrant => "/v1/grants/" ++ id ++ "/revoke"
  | getTask => "/v1/tasks/" ++ id
  | cancelTask => "/v1/tasks/" ++ id ++ "/cancel"
  | agentResult => "/v1/agent/tasks/" ++ id ++ "/result"

/-- The identifier that an operation reads from its path. -/
def extracted (path : String) : RecordOperation → String
  | revokeNode => nodeOfPath path "/revoke"
  | rotateNode => nodeOfPath path "/rotate"
  | revokeGrant => revokedGrantCode path
  | getTask => fetchedTaskId path
  | cancelTask => cancelledTaskId path
  | agentResult => resultTaskId path

/-- The arm of an operation, for a caller who is authenticated. -/
def arm (path body : String) (admin : Bool) (actor : Option String) : RecordOperation → Arm
  | revokeNode => if admin then .revokeNode (nodeOfPath path "/revoke") actor else adminRequired
  | rotateNode => if admin then .rotateNode (nodeOfPath path "/rotate") actor else adminRequired
  | revokeGrant => if admin then .revokeGrant path actor else adminRequired
  | getTask => if admin then .getTask path else adminRequired
  | cancelTask =>
    if admin then .cancelTask path none
    else if actor.isSome then .cancelTask path actor
    else adminRequired
  | agentResult => .agentResult path body

/-- A node belongs to the identifier. -/
def ownsNode (id : String) (node : Node) : RecordOperation → Bool
  | revokeNode | rotateNode => node.id == id
  | _ => false

/-- A grant belongs to the identifier. -/
def ownsGrant (id : String) (grant : Grant) : RecordOperation → Bool
  | revokeGrant => grant.code == id
  | _ => false

/-- A task belongs to the identifier: to the node that it names, or as the task that it names. -/
def ownsTask (id : String) (task : Task) : RecordOperation → Bool
  | revokeNode | rotateNode => task.node_id == id
  | getTask | cancelTask | agentResult => task.id == id
  | revokeGrant => false

/-- The part of a store that belongs to the identifier. -/
def part (op : RecordOperation) (id : String) (store : Store) : Store :=
  { Store.empty with
    nodes := store.nodes.filter fun node => op.ownsNode id node
    grants := store.grants.filter fun grant => op.ownsGrant id grant
    tasks := store.tasks.filter fun task => op.ownsTask id task }

/-- The identifiers of the records that an operation looks among. -/
def keys (store : Store) : RecordOperation → List String
  | revokeNode | rotateNode => store.nodes.map Node.id
  | revokeGrant => store.grants.map Grant.code
  | _ => store.tasks.map Task.id

end RecordOperation

/-- A store differs from another in records that belong to the identifier, and in its audit list. -/
structure ChangesPart (op : RecordOperation) (id : String) (store new : Store) : Prop where
  nodes : Evolves (fun node node' => node' = node ∨
    op.ownsNode id node = true ∧ op.ownsNode id node' = true) store.nodes new.nodes
  nodes_length : new.nodes.length = store.nodes.length
  grants : Evolves (fun grant grant' => grant' = grant ∨
    op.ownsGrant id grant = true ∧ op.ownsGrant id grant' = true) store.grants new.grants
  grants_length : new.grants.length = store.grants.length
  tasks : Evolves (fun task task' => task' = task ∨
    op.ownsTask id task = true ∧ op.ownsTask id task' = true) store.tasks new.tasks
  tasks_length : new.tasks.length = store.tasks.length
  approvals : new.approvals = store.approvals

/-- Two answers are the same, with the same part of the store behind them. -/
structure SamePart (op : RecordOperation) (id : String) (answer answer' : Response × Store) :
    Prop where
  response : answer.1 = answer'.1
  part : op.part id answer.2 = op.part id answer'.2

/-- The backend does not tell stores apart whose parts are the same. -/
def Env.PersistsPart (env : Env) (op : RecordOperation) (id : String) : Prop :=
  ∀ store store', op.part id store = op.part id store' → env.persist store = env.persist store'

/-- The path that an operation builds from an identifier addresses the record with the identifier:
the request is routed to the operation, which reads the identifier again, at most one record has it,
no other record is changed, and none is read. -/
structure Addresses [Serde] [Ed25519] (op : RecordOperation) (id : String) (st : State) (env : Env)
    (body : String) (authorized admin : Bool) (actor : Option String) (store : Store) : Prop where
  routed : routedArm op.method (op.path id) body authorized admin actor =
    if authorized then op.arm (op.path id) body admin actor
    else .respond (failure .unauthorized "unauthenticated")
  extracted : op.extracted (op.path id) = id
  one : op.keys (op.part id store) = if id ∈ op.keys store then [id] else []
  changes : ChangesPart op id store
    (routeWithActor st env op.method (op.path id) body authorized admin actor store).2
  reads : env.PersistsPart op id → ∀ store', op.part id store = op.part id store' →
    SamePart op id
      (routeWithActor st env op.method (op.path id) body authorized admin actor store)
      (routeWithActor st env op.method (op.path id) body authorized admin actor store')

/-! ## Routing -/

namespace RecordOperation

/-- A valid identifier has no slash. -/
theorem slash_not_mem {id : String} (h : validNodeId id = true) : '/' ∉ id.toList := by
  simp only [validNodeId, Bool.and_eq_true, List.all_eq_true] at h
  exact fun hslash => absurd (h.2 _ hslash).2 (by decide)

/-- An operation reads the identifier that its path was built from. -/
theorem extracted_path (op : RecordOperation) {id : String} (hslash : '/' ∉ id.toList) :
    op.extracted (op.path id) = id := by
  cases op with
  | getTask => exact trim_root (by decide) hslash
  | _ => exact trim_root_leaf (by decide) (by decide) hslash

/-- A path begins with its root and ends with its leaf, so that it is no path elsewhere and is not
under another root or leaf. -/
theorem path_ends {root segment leaf path : String} (hpath : path = root ++ segment ++ leaf) :
    startsWith path root = true ∧ endsWith path leaf = true ∧
      (∀ literal, startsWith literal root = false → (path == literal) = false) ∧
      (∀ root', startsWith root root' = false → startsWith root' root = false →
        startsWith path root' = false) ∧
      ∀ leaf', endsWith leaf leaf' = false → endsWith leaf' leaf = false →
        endsWith path leaf' = false := by
  have hstart : startsWith path root = true := by
    rw [hpath, String.append_assoc]
    exact startsWith_append _ _
  have hend : endsWith path leaf = true := by
    rw [hpath]
    exact endsWith_append _ _
  exact ⟨hstart, hend, fun _ h => beq_eq_false_of_startsWith hstart h,
    fun _ h h' => startsWith_eq_false hstart h h', fun _ h h' => endsWith_eq_false hend h h'⟩

/-- The path of an operation is routed to the operation. -/
theorem routedArm_path (op : RecordOperation) (id body : String) (authorized admin : Bool)
    (actor : Option String) :
    routedArm op.method (op.path id) body authorized admin actor =
      if authorized then op.arm (op.path id) body admin actor
      else .respond (failure .unauthorized "unauthenticated") := by
  -- The arms before the operation's are passed over one by one: their paths and roots are literals,
  -- and none of them is a beginning of the operation's root.
  cases op with
  | revokeNode =>
    obtain ⟨hstart, hend, hne, hroot, -⟩ := path_ends (rfl : path id revokeNode = _)
    simp (disch := decide) [routedArm, method, arm, hstart, hend, hne, hroot]
    cases authorized <;> rfl
  | rotateNode =>
    -- The arm of a revocation has the same root, and another leaf.
    obtain ⟨hstart, hend, hne, hroot, hleaf⟩ := path_ends (rfl : path id rotateNode = _)
    simp (disch := decide) [routedArm, method, arm, hstart, hend, hne, hroot, hleaf]
    cases authorized <;> rfl
  | revokeGrant =>
    obtain ⟨hstart, hend, hne, -, -⟩ := path_ends (rfl : path id revokeGrant = _)
    -- The path of a redemption is under the root of the grants, and it does not end in the leaf.
    have hredeem : path id revokeGrant ≠ "/v1/grants/redeem" := by
      intro hpath
      rw [hpath] at hend
      exact absurd hend (by decide)
    simp (disch := decide) [routedArm, method, arm, hstart, hend, hne, hredeem]
    cases authorized <;> rfl
  | getTask =>
    have hpath : path id getTask = "/v1/tasks/" ++ id ++ "" := (String.append_empty).symm
    obtain ⟨hstart, -, hne, hroot, -⟩ := path_ends hpath
    simp (disch := decide) [routedArm, method, arm, hstart, hne, hroot]
    cases authorized <;> rfl
  | cancelTask =>
    obtain ⟨hstart, hend, hne, hroot, -⟩ := path_ends (rfl : path id cancelTask = _)
    simp (disch := decide) [routedArm, method, arm, hstart, hend, hne, hroot]
    cases authorized <;> rfl
  | agentResult =>
    obtain ⟨hstart, hend, hne, hroot, -⟩ := path_ends (rfl : path id agentResult = _)
    simp (disch := decide) [routedArm, method, arm, hstart, hend, hne, hroot]
    cases authorized <;> rfl

/-! ## What is changed -/

section Changes

variable {op : RecordOperation} {id path body : String} {store : Store}

/-- Nothing is changed. -/
theorem changesPart_self (op : RecordOperation) (id : String) (store : Store) :
    ChangesPart op id store store :=
  ⟨.refl (fun _ => .inl rfl) _, rfl, .refl (fun _ => .inl rfl) _, rfl,
    .refl (fun _ => .inl rfl) _, rfl, rfl⟩

/-- A task that belongs to the identifier is replaced by one that does. -/
theorem changesPart_setTask {p : Task → Bool} {task new : Task} (audit : List Activity)
    (hfound : store.tasks.find? p = some task) (htask : op.ownsTask id task = true)
    (hnew : op.ownsTask id new = true) :
    ChangesPart op id store
      { store with tasks := setFirst p new store.tasks, audit := audit } :=
  { changesPart_self op id store with
    tasks := .setFirst (fun _ => .inl rfl) hfound (.inr ⟨htask, hnew⟩)
    tasks_length := List.length_set }

/-- The task that an upload names is that of its path. -/
theorem parseResultUpload_task_id [Serde] {upload : ResultUpload}
    (h : parseResultUpload path body = .ok upload) : upload.task_id = resultTaskId path := by
  unfold parseResultUpload at h
  dsimp only at h
  split_ifs at h
  rw [← Except.ok.inj h]

variable [Serde] [Ed25519] {st : State} {env : Env} {actor : Option String} {response : Response}
  {new : Store}

/-- A refusal changes nothing. -/
theorem changesPart_refused (op : RecordOperation) (id : String)
    (h : Effect st env store adminRequired response new) : ChangesPart op id store new := by
  cases h
  exact changesPart_self op id store

/-- A revocation changes the node and its tasks. -/
theorem changesPart_revokeNode (h : Effect st env store (.revokeNode id actor) response new) :
    ChangesPart revokeNode id store new := by
  cases h with
  | unchanged => exact changesPart_self _ _ _
  | nodeRevoked id actor node hfound =>
    have hnode := List.find?_some hfound
    have htask (task : Task) :
        (if liveOn id task then cancelledTask task else task) = task ∨
          (task.node_id == id) = true ∧
            ((if liveOn id task then cancelledTask task else task).node_id == id) = true := by
      split_ifs with hlive
      · rw [liveOn, Bool.and_eq_true] at hlive
        exact .inr ⟨hlive.1, hlive.1⟩
      · exact .inl rfl
    exact { changesPart_self revokeNode id store with
      nodes := .setFirst (fun _ => .inl rfl) hfound (.inr ⟨hnode, hnode⟩)
      nodes_length := List.length_set
      tasks := .map htask store.tasks
      tasks_length := List.length_map _ }

/-- A rotation changes the node. -/
theorem changesPart_rotateNode (h : Effect st env store (.rotateNode id actor) response new) :
    ChangesPart rotateNode id store new := by
  cases h with
  | unchanged => exact changesPart_self _ _ _
  | nodeRotated id actor node credential hdrawn hfound hlive =>
    have hnode := List.find?_some hfound
    exact { changesPart_self rotateNode id store with
      nodes := .setFirst (fun _ => .inl rfl) hfound (.inr ⟨hnode, hnode⟩)
      nodes_length := List.length_set }

/-- A revocation changes the grant. -/
theorem changesPart_revokeGrant (h : Effect st env store (.revokeGrant path actor) response new) :
    ChangesPart revokeGrant (revokedGrantCode path) store new := by
  cases h with
  | unchanged => exact changesPart_self _ _ _
  | grantRevoked path actor grant hfound =>
    have hgrant := List.find?_some hfound
    exact { changesPart_self revokeGrant (revokedGrantCode path) store with
      grants := .setFirst (fun _ => .inl rfl) hfound (.inr ⟨hgrant, hgrant⟩)
      grants_length := List.length_set }

/-- A cancellation changes the task. -/
theorem changesPart_cancelTask (h : Effect st env store (.cancelTask path actor) response new) :
    ChangesPart cancelTask (cancelledTaskId path) store new := by
  cases h with
  | unchanged => exact changesPart_self _ _ _
  | taskCancelled path actor task h =>
    have htask := List.find?_some h.found
    exact changesPart_setTask _ h.found htask htask

/-- A result changes the task. -/
theorem changesPart_agentResult (h : Effect st env store (.agentResult path body) response new) :
    ChangesPart agentResult (resultTaskId path) store new := by
  cases h with
  | unchanged => exact changesPart_self _ _ _
  | resultAccepted path body upload task h =>
    have htask : (task.id == resultTaskId path) = true := by
      have htarget := List.find?_some h.found
      rw [uploadTarget, Bool.and_eq_true, parseResultUpload_task_id h.parsed] at htarget
      exact htarget.1
    exact changesPart_setTask _ h.found htask htask

/-- An operation changes records that belong to the identifier in its path. -/
theorem arm_changes (op : RecordOperation) {admin : Bool}
    (h : Effect st env store (op.arm path body admin actor) response new) :
    ChangesPart op (op.extracted path) store new := by
  cases op with
  | revokeNode =>
    simp only [arm] at h
    split_ifs at h
    · exact changesPart_revokeNode h
    · exact changesPart_refused _ _ h
  | rotateNode =>
    simp only [arm] at h
    split_ifs at h
    · exact changesPart_rotateNode h
    · exact changesPart_refused _ _ h
  | revokeGrant =>
    simp only [arm] at h
    split_ifs at h
    · exact changesPart_revokeGrant h
    · exact changesPart_refused _ _ h
  | getTask =>
    simp only [arm] at h
    split_ifs at h
    · cases h
      exact changesPart_self _ _ _
    · exact changesPart_refused _ _ h
  | cancelTask =>
    simp only [arm] at h
    split_ifs at h
    · exact changesPart_cancelTask h
    · exact changesPart_cancelTask h
    · exact changesPart_refused _ _ h
  | agentResult => exact changesPart_agentResult h

end Changes

/-! ## What is read -/

section Reads

variable {op : RecordOperation} {id path body : String} {st : State} {env : Env} {store : Store}
  {actor : Option String}

/-- The part of a part is the part. -/
theorem part_part (op : RecordOperation) (id : String) (store : Store) :
    op.part id (op.part id store) = op.part id store := by
  unfold part
  dsimp only
  rw [List.filter_filter, List.filter_filter, List.filter_filter]
  simp only [Bool.and_self]

/-- The operations on a node see what is about the node. -/
theorem part_node (hop : op = revokeNode ∨ op = rotateNode) (id : String) (store : Store) :
    op.part id store = store.about id := by
  rcases hop with rfl | rfl
  · simp [part, ownsNode, ownsGrant, ownsTask, Store.about, Store.empty]
  · simp [part, ownsNode, ownsGrant, ownsTask, Store.about, Store.empty]

/-- What leaves the store as it is leaves the part as it is. -/
theorem samePart_unchanged (op : RecordOperation) (id : String) (store : Store)
    (response : Response) : SamePart op id (response, store) (response, op.part id store) :=
  ⟨rfl, (part_part op id store).symm⟩

/-- The part stays the same when both stores are written. -/
theorem samePart_persistOrRollback {new new' : Store} (henv : env.PersistsPart op id)
    (hnew : op.part id new = op.part id new') (response : Response) :
    SamePart op id (persistOrRollback env new store response)
      (persistOrRollback env new' (op.part id store) response) := by
  obtain ⟨hresponse, hpart⟩ := persistOrRollback_alike (op.part id) (henv new new' hnew) hnew
    (part_part op id store).symm response
  exact ⟨hresponse, hpart⟩

/-- A task replaced is replaced in the part. -/
theorem part_setTask (op : RecordOperation) (id : String) {p : Task → Bool}
    (hp : ∀ task, p task = true → op.ownsTask id task = true)
    (task : Task) (htask : op.ownsTask id task = true) (store : Store)
    (audit audit' : List Activity) :
    op.part id { store with tasks := setFirst p task store.tasks, audit := audit } =
      op.part id { op.part id store with
        tasks := setFirst p task (op.part id store).tasks, audit := audit' } := by
  unfold part
  dsimp only
  rw [filter_setFirst hp htask, filter_setFirst hp htask, List.filter_filter, List.filter_filter,
    List.filter_filter]
  simp only [Bool.and_self]

/-- A grant replaced is replaced in the part. -/
theorem part_setGrant (op : RecordOperation) (id : String) {p : Grant → Bool}
    (hp : ∀ grant, p grant = true → op.ownsGrant id grant = true) (grant : Grant)
    (hgrant : op.ownsGrant id grant = true) (store : Store) (audit audit' : List Activity) :
    op.part id { store with grants := setFirst p grant store.grants, audit := audit } =
      op.part id { op.part id store with
        grants := setFirst p grant (op.part id store).grants, audit := audit' } := by
  unfold part
  dsimp only
  rw [filter_setFirst hp hgrant, filter_setFirst hp hgrant, List.filter_filter, List.filter_filter,
    List.filter_filter]
  simp only [Bool.and_self]

/-- A task that belongs to the identifier is found in the part. -/
theorem find?_part_tasks (op : RecordOperation) (id : String) {p : Task → Bool}
    (hp : ∀ task, p task = true → op.ownsTask id task = true) (store : Store) :
    (op.part id store).tasks.find? p = store.tasks.find? p :=
  find?_filter_of_imp hp store.tasks

/-- A grant that belongs to the identifier is found in the part. -/
theorem find?_part_grants (op : RecordOperation) (id : String) {p : Grant → Bool}
    (hp : ∀ grant, p grant = true → op.ownsGrant id grant = true) (store : Store) :
    (op.part id store).grants.find? p = store.grants.find? p :=
  find?_filter_of_imp hp store.grants

/-- `revoke_grant_as` on the part of the grant. -/
theorem revokeGrantAs_part (hid : revokedGrantCode path = id)
    (henv : env.PersistsPart revokeGrant id) :
    SamePart revokeGrant id (revokeGrantAs st env path actor store)
      (revokeGrantAs st env path actor (part revokeGrant id store)) := by
  have hfind : (part revokeGrant id store).grants.find? (fun grant => grant.code == id) =
      store.grants.find? fun grant => grant.code == id :=
    find?_part_grants revokeGrant id (fun _ h => h) store
  unfold revokeGrantAs
  dsimp only
  rw [hid, hfind]
  split_ifs
  · exact samePart_unchanged _ _ store _
  · cases hfound : store.grants.find? fun grant => grant.code == id with
    | none => exact samePart_unchanged _ _ store _
    | some grant =>
      have hgrant := List.find?_some hfound
      have hpart :=
        part_setGrant revokeGrant id (fun _ h => h) { grant with revoked := true } hgrant store
      exact samePart_persistOrRollback henv (hpart _ _) _

/-- `get_task` on the part of the task. -/
theorem getTask_part (hid : fetchedTaskId path = id) (store : Store) :
    ControlPlane.getTask path (part getTask id store) = ControlPlane.getTask path store := by
  have hfind : (part getTask id store).tasks.find? (fun task => task.id == id) =
      store.tasks.find? fun task => task.id == id :=
    find?_part_tasks getTask id (fun _ h => h) store
  unfold ControlPlane.getTask
  rw [hid, hfind]

/-- `cancel_task_as` on the part of the task. -/
theorem cancelTaskAs_part (hid : cancelledTaskId path = id)
    (henv : env.PersistsPart cancelTask id) :
    SamePart cancelTask id (cancelTaskAs st env path actor store)
      (cancelTaskAs st env path actor (part cancelTask id store)) := by
  have hfind : (part cancelTask id store).tasks.find? (fun task => task.id == id) =
      store.tasks.find? fun task => task.id == id :=
    find?_part_tasks cancelTask id (fun _ h => h) store
  unfold cancelTaskAs
  dsimp only
  rw [hid, hfind]
  cases hfound : store.tasks.find? fun task => task.id == id with
  | none => exact samePart_unchanged _ _ store _
  | some task =>
    have htask := List.find?_some hfound
    dsimp only
    split_ifs
    · exact samePart_unchanged _ _ store _
    · exact samePart_unchanged _ _ store _
    · exact samePart_persistOrRollback henv
        (part_setTask cancelTask id (fun _ h => h) (cancelledTask task) htask store _ _) _

/-- `agent_result` on the part of the task. -/
theorem agentResult_part [Serde] (hid : resultTaskId path = id)
    (henv : env.PersistsPart agentResult id) :
    SamePart agentResult id (ControlPlane.agentResult st env path body store)
      (ControlPlane.agentResult st env path body (part agentResult id store)) := by
  unfold ControlPlane.agentResult
  cases hparsed : parseResultUpload path body with
  | error refusal => exact samePart_unchanged _ _ store _
  | ok upload =>
    have howns (task : Task) (h : uploadTarget upload task = true) :
        ownsTask id task agentResult = true := by
      rw [uploadTarget, Bool.and_eq_true, parseResultUpload_task_id hparsed, hid] at h
      exact h.1
    have hfind : (part agentResult id store).tasks.find? (uploadTarget upload) =
        store.tasks.find? (uploadTarget upload) := find?_part_tasks agentResult id howns store
    dsimp only
    rw [hfind]
    cases hfound : store.tasks.find? (uploadTarget upload) with
    | none => exact samePart_unchanged _ _ store _
    | some task =>
      have htask := howns _ (List.find?_some hfound)
      dsimp only
      split
      · exact samePart_unchanged _ _ store _
      · exact samePart_persistOrRollback henv
          (part_setTask agentResult id howns (completed task upload) htask store _ _) _

/-- What is the same for a node is the same for an operation on the node. -/
theorem samePart_of_sameFor (hop : op = revokeNode ∨ op = rotateNode)
    {answer answer' : Response × Store} (h : SameFor id answer answer') :
    SamePart op id answer answer' := by
  refine ⟨h.response, ?_⟩
  rw [part_node hop, part_node hop]
  exact h.about

/-- An operation answers as it does on the part of the store. -/
theorem arm_part [Serde] [Ed25519] (op : RecordOperation) (st : State) (body : String)
    (admin : Bool) (actor : Option String) (store : Store) (hid : op.extracted path = id)
    (henv : env.PersistsPart op id) :
    SamePart op id ((op.arm path body admin actor).run st env store)
      ((op.arm path body admin actor).run st env (op.part id store)) := by
  have hrefused : SamePart op id (adminRequired.run st env store)
      (adminRequired.run st env (op.part id store)) := samePart_unchanged op id store _
  -- The part of an operation on a node is what is about the node, where the handlers are known.
  have hpersists (hop : op = revokeNode ∨ op = rotateNode) : env.Persists id := by
    intro new new' hagree
    refine henv new new' ?_
    rw [part_node hop, part_node hop]
    exact hagree
  cases op with
  | revokeNode =>
    simp only [arm]
    split_ifs
    · rw [show nodeOfPath path "/revoke" = id from hid, part_node (.inl rfl)]
      exact samePart_of_sameFor (.inl rfl) (revokeNodeAs_about (hpersists (.inl rfl)))
    · exact hrefused
  | rotateNode =>
    simp only [arm]
    split_ifs
    · rw [show nodeOfPath path "/rotate" = id from hid, part_node (.inr rfl)]
      exact samePart_of_sameFor (.inr rfl) (rotateNodeAs_about (hpersists (.inr rfl)))
    · exact hrefused
  | revokeGrant =>
    have hcode : revokedGrantCode path = id := hid
    simp only [arm]
    split_ifs
    · show SamePart revokeGrant id (revokeGrantAs st env path actor store)
        (revokeGrantAs st env path actor (part revokeGrant id store))
      exact revokeGrantAs_part hcode henv
    · exact hrefused
  | getTask =>
    have htask : fetchedTaskId path = id := hid
    simp only [arm]
    split_ifs
    · show SamePart getTask id (ControlPlane.getTask path store, store)
        (ControlPlane.getTask path (part getTask id store), part getTask id store)
      rw [getTask_part htask]
      exact samePart_unchanged getTask id store _
    · exact hrefused
  | cancelTask =>
    have htask : cancelledTaskId path = id := hid
    have hcancels (actor : Option String) : SamePart cancelTask id
        (cancelTaskAs st env path actor store)
        (cancelTaskAs st env path actor (part cancelTask id store)) :=
      cancelTaskAs_part htask henv
    simp only [arm]
    split_ifs
    · exact hcancels none
    · exact hcancels actor
    · exact hrefused
  | agentResult =>
    have htask : resultTaskId path = id := hid
    exact agentResult_part htask henv

end Reads

/-! ## One record -/

/-- An operation looks among the identifiers that are the one in its path. -/
theorem keys_part (op : RecordOperation) (id : String) (store : Store) :
    op.keys (op.part id store) = (op.keys store).filter (· == id) := by
  cases op with
  | _ =>
    simp only [keys, part, List.filter_map]
    rfl

/-- Where no identifier is twice, one record has the one in the path, or none. -/
theorem keys_part_one {op : RecordOperation} {store : Store} (h : (op.keys store).Nodup)
    (id : String) : op.keys (op.part id store) = if id ∈ op.keys store then [id] else [] := by
  rw [keys_part, List.filter_beq, h.count]
  split_ifs <;> rfl

end RecordOperation

section Requests

variable [Serde] [Ed25519]

/-- **A path addresses the record whose identifier it was built from**, and no other one. -/
theorem paths_address_one_record (op : RecordOperation) {id : String}
    (hvalid : validNodeId id = true) (st : State) (env : Env) (body : String)
    (authorized admin : Bool) (actor : Option String) {store : Store}
    (hdistinct : (op.keys store).Nodup) :
    Addresses op id st env body authorized admin actor store := by
  have hid := op.extracted_path (RecordOperation.slash_not_mem hvalid)
  have hrouted := op.routedArm_path id body authorized admin actor
  refine ⟨hrouted, hid, RecordOperation.keys_part_one hdistinct id, ?_, ?_⟩
  · unfold routeWithActor
    rw [hrouted]
    split_ifs
    · have heffect := (op.arm (op.path id) body admin actor).run_effect st env store
      have hchanges := op.arm_changes heffect
      rwa [hid] at hchanges
    · exact RecordOperation.changesPart_self op id store
  · intro henv store' hsame
    unfold routeWithActor
    rw [hrouted]
    split_ifs
    · -- Both stores answer as their part does, and the parts are the same.
      have hleft := op.arm_part st body admin actor store hid henv
      have hright := op.arm_part st body admin actor store' hid henv
      rw [← hsame] at hright
      exact ⟨hleft.response.trans hright.response.symm, hleft.part.trans hright.part.symm⟩
    · exact ⟨rfl, hsame⟩

end Requests

section Example

attribute [local instance] exampleParser noKeys

/-- Two tasks whose identifiers are words of the paths. -/
def wordStore : Store :=
  { Store.empty with
    tasks := [exampleTask "cancel" "admin" "n1", exampleTask "result" "admin" "n1"] }

/-- The path `/v1/tasks/cancel/cancel` addresses the task `cancel`. -/
theorem cancel_cancel : Addresses .cancelTask "cancel" exampleState (exampleEnv 0) "" true true none
    wordStore :=
  paths_address_one_record .cancelTask (by decide) _ _ _ _ _ _ (by decide)

end Example

end NodeWe.ControlPlane
