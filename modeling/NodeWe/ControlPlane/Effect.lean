import NodeWe.ControlPlane.Route

/-!
# What an arm can do to the store

`Effect` says, once and for all, what a request that reaches an arm can do: the response it gets
and the store it leaves behind, with the guards that hold where the store changes. The handlers are
unfolded here and nowhere else. Every invariant of the store is a case analysis on `Effect`, or on
the histories of the records that follow from it.
-/

namespace NodeWe.ControlPlane

open Text InPlace

/-! ## Refusals -/

section Refusals

variable {st : State} {env : Env} {store : Store} {response : Response}

/-- A heartbeat is refused with an error. -/
theorem heartbeatTarget_error [Serde] {body : String}
    (h : heartbeatTarget body store = .error response) :
    response.status.isSuccess = false ∧ response.reply.shownTasks = [] ∧
      response.reply.shownApprovals = [] := by
  unfold heartbeatTarget at h
  dsimp only at h
  repeat' split at h
  all_goals cases h
  all_goals decide

/-- A task creation is refused with an error. -/
theorem parseTaskRequest_error [Serde] {body : String} {actor : Option String}
    (h : parseTaskRequest st env body actor = .error response) :
    ∃ status code, response = failure status code ∧ status.isSuccess = false := by
  unfold parseTaskRequest at h
  dsimp only at h
  repeat' split at h
  all_goals cases h
  all_goals exact ⟨_, _, rfl, by decide⟩

/-- The gates of a task creation refuse it with an error. -/
theorem refusedByPolicy_some {req : TaskRequest}
    (h : refusedByPolicy st env store req = some response) :
    ∃ status code, response = failure status code ∧ status.isSuccess = false := by
  unfold refusedByPolicy at h
  repeat' split at h
  all_goals cases h
  all_goals exact ⟨_, _, rfl, by decide⟩

/-- The approval gate refuses a task creation with an error. -/
theorem approvalGate_error {req : TaskRequest}
    (h : approvalGate st env store req = .error response) :
    ∃ status code, response = failure status code ∧ status.isSuccess = false := by
  unfold approvalGate at h
  repeat' split at h
  all_goals cases h
  all_goals exact ⟨_, _, rfl, by decide⟩

/-- An upload is refused with an error. -/
theorem parseResultUpload_error [Serde] {path body : String}
    (h : parseResultUpload path body = .error response) :
    ∃ status code, response = failure status code ∧ status.isSuccess = false := by
  unfold parseResultUpload at h
  dsimp only at h
  repeat' split at h
  all_goals cases h
  all_goals exact ⟨_, _, rfl, by decide⟩

/-- A task refuses an upload with an error. -/
theorem refusedResult_some {task : Task} {upload : ResultUpload}
    (h : refusedResult env task upload = some response) :
    ∃ status code, response = failure status code ∧ status.isSuccess = false := by
  unfold refusedResult at h
  repeat' split at h
  all_goals cases h
  all_goals exact ⟨_, _, rfl, by decide⟩

/-- A poll that dispatches no task leaves the tasks as they were. -/
theorem dispatchLoop_nil {node_id : String} {k : ℕ} {tasks left : List Task}
    (h : dispatchLoop env node_id k tasks = (left, some [])) : left = tasks := by
  induction tasks generalizing k left with
  | nil =>
    rw [dispatchLoop] at h
    cases h
    rfl
  | cons task rest ih =>
    rw [dispatchLoop] at h
    split_ifs at h with hclaim
    · split at h
      · cases h
      · obtain ⟨-, hdispatched⟩ := Prod.mk.inj h
        obtain ⟨ds, -, hcons⟩ := Option.map_eq_some_iff.mp hdispatched
        exact absurd hcons (by simp)
    · obtain ⟨hleft, hdispatched⟩ := Prod.mk.inj h
      rw [← hleft]
      exact congrArg (task :: ·) (ih (Prod.ext rfl hdispatched))

end Refusals

variable [Serde] [Ed25519]

/-! ## The relation -/

/-- The arms that can succeed without a change: the readings of the store, a replayed task
creation, and a poll that finds no task. -/
def Arm.mayOnlyRead : Arm → Bool
  | respond _ | listNodes | listGrants | listApprovals | listTasks | getTask _ | createTask _ _
  | agentTasks _ | listAudit | exportAudit _ => true
  | _ => false

/-- The arms that show a task or an approval that they did not just write. -/
def Arm.discloses : Arm → Bool
  | respond _ | listApprovals | listTasks | getTask _ | createTask _ _ => true
  | _ => false

/-- The guards and the node of an enrolment, by the administrator or with a grant. -/
structure Enrols (env : Env) (body : String) (store : Store) (node : Node) : Prop where
  made : node = enrolledNode env ((jsonField body "node_id").getD "")
    ((jsonField body "name").getD ((jsonField body "node_id").getD "")) node.credential
    (nodeMetadata body)
  valid_id : validNodeId node.id = true
  valid_labels : validLabels node.labels = true
  fresh_id : ∀ other ∈ store.nodes, other.id ≠ node.id
  drawn : randomToken env 0 = some node.credential

/-- The guards of a poll: the node that it names, and that the node is fresh. -/
structure Polls (st : State) (env : Env) (path : String) (store : Store) (node_id : String) :
    Prop where
  query : queryField path "node_id" = some node_id
  fresh : store.nodes.any
    (fun node => node.id == node_id && !node.revoked && nodeIsFresh st env node) = true

/-- The guards of an upload: what it carries, the task that it names, and that the task takes it. -/
structure Uploads (env : Env) (path body : String) (store : Store) (upload : ResultUpload)
    (task : Task) : Prop where
  parsed : parseResultUpload path body = .ok upload
  found : store.tasks.find? (uploadTarget upload) = some task
  accepted : refusedResult env task upload = none

/-- The guards of a cancellation: the task that it names, the actor's right, and that the task is
not over. -/
structure Cancels (path : String) (actor : Option String) (store : Store) (task : Task) :
    Prop where
  found : store.tasks.find? (fun task => task.id == cancelledTaskId path) = some task
  allowed : ∀ a ∈ actor, task.actor = a
  live : task.state ∉ terminalStates

/-- The guards of a task creation: what it reads, and the node that has to be fresh. -/
structure Accepts (st : State) (env : Env) (body : String) (actor : Option String) (store : Store)
    (req : TaskRequest) : Prop where
  parsed : parseTaskRequest st env body actor = .ok req
  new_key : req.idempotency_key ≠ "" →
    ∀ task ∈ store.tasks, task.idempotency_key ≠ req.idempotency_key
  allowed : refusedByPolicy st env store req = none

/-- The guards and the record of an approval. -/
structure Approves (st : State) (env : Env) (body : String) (actor : Option String)
    (approval : Approval) : Prop where
  id : approval.id = newId st env "approval" .approvalId
  node_id : approval.node_id = (jsonField body "node_id").getD ""
  ability : (jsonField body "ability").getD "" = "task.exec" ∧ approval.ability = "task.exec"
  program : approval.program = (jsonField body "program").getD "echo"
  argument : approval.argument = (jsonField body "argument").getD ""
  resolved : resolveActor body actor = some approval.actor
  valid_node : validNodeId approval.node_id = true
  valid_actor : validActorId approval.actor = true
  expires_at : approval.expires_at = env.now .expiresAt + 300000
  unused : approval.used = false

/-- The grants that a redemption accepts. -/
def redeemedBy (st : State) (env : Env) (body : String) : Grant → Bool :=
  redeemable st env ((jsonField body "grant_code").getD "")
    ((jsonField body "grant_signature").getD "")

/-- A task as a cancellation leaves it. -/
def cancelledTask (task : Task) : Task := { task with state := "cancelled", lease_until := 0 }

/-- The tasks that the revocation of a node cancels. -/
def liveOn (id : String) (task : Task) : Bool :=
  task.node_id == id && (task.state == "queued" || task.state == "dispatched")

/-- What an arm can do: its response and the store that it leaves behind. -/
inductive Effect (st : State) (env : Env) (store : Store) : Arm → Response → Store → Prop
  | unchanged (arm : Arm) (response : Response)
      (hread : response.status.isSuccess = true → arm.mayOnlyRead = true)
      (hshown : arm.discloses = false →
        response.reply.shownTasks = [] ∧ response.reply.shownApprovals = []) :
      Effect st env store arm response store
  | nodeCreated (body : String) (actor : Option String) (node : Node)
      (h : Enrols env body store node) :
      Effect st env store (.createNode body actor)
        ⟨.created, .nodeWithCredential node (nodeIsFresh st env node) node.credential⟩
        { store with
          nodes := store.nodes ++ [node]
          audit := store.audit ++ [Activity.withActor st env 0 "node.created" (some node.id) none
            (some (auditActor actor))] }
  | nodeRevoked (id : String) (actor : Option String) (node : Node)
      (hfound : store.nodes.find? (fun node => node.id == id) = some node) :
      Effect st env store (.revokeNode id actor)
        ⟨.ok, .node { node with revoked := true, online := false }
          (nodeIsFresh st env { node with revoked := true, online := false })⟩
        { store with
          nodes := setFirst (fun node => node.id == id)
            { node with revoked := true, online := false } store.nodes
          tasks := store.tasks.map fun task => if liveOn id task then cancelledTask task else task
          audit := store.audit ++
            Activity.withActor st env 0 "node.revoked" (some id) none (some (auditActor actor)) ::
            ((store.tasks.filter (liveOn id)).map Task.id).mapIdx fun k task_id =>
              Activity.withActor st env (k + 1) "task.cancelled_by_node_revoke" (some id)
                (some task_id) (some (auditActor actor)) }
  | nodeRotated (id : String) (actor : Option String) (node : Node) (credential : String)
      (hdrawn : randomToken env 0 = some credential)
      (hfound : store.nodes.find? (fun node => node.id == id) = some node)
      (hlive : node.revoked = false) :
      Effect st env store (.rotateNode id actor)
        ⟨.ok, .nodeWithCredential { node with credential := credential }
          (nodeIsFresh st env { node with credential := credential }) credential⟩
        { store with
          nodes := setFirst (fun node => node.id == id) { node with credential := credential }
            store.nodes
          audit := store.audit ++ [Activity.withActor st env 0 "node.credential_rotated"
            (some id) none (some (auditActor actor))] }
  | nodeBeaten (body : String) (node : Node) (abilities : Option String)
      (htarget : heartbeatTarget body store = .ok node)
      (habilities : (jsonField body "abilities").map normalizeAbilities =
        abilities.map some) :
      Effect st env store (.heartbeat body)
        ⟨.ok, .heartbeat (beaten env body abilities node)
          (nodeIsFresh st env (beaten env body abilities node))⟩
        { store with
          nodes := setFirst (fun node => node.id == (jsonField body "node_id").getD "")
            (beaten env body abilities node) store.nodes
          audit := store.audit ++ [Activity.withActor st env 0 "node.heartbeat"
            (some ((jsonField body "node_id").getD "")) none
            (some ((jsonField body "node_id").getD ""))] }
  | heartbeatAborted (body : String) (node : Node)
      (htarget : heartbeatTarget body store = .ok node)
      (habilities : (jsonField body "abilities").map normalizeAbilities = some none) :
      Effect st env store (.heartbeat body)
        (failure .unprocessableEntity "unsupported_ability")
        { store with
          nodes := setFirst (fun node => node.id == (jsonField body "node_id").getD "")
            (markedOnline env node) store.nodes }
  | grantCreated (actor : Option String) (code signature : String)
      (hdrawn : randomToken env 0 = some code)
      (hsigned : signGrant env code (env.now .expiresAt + 300000) st.grant_secret =
        some signature) :
      Effect st env store (.createGrant actor)
        ⟨.created, .grantCreated ⟨code, signature, env.now .expiresAt + 300000, false, false⟩⟩
        { store with
          audit := store.audit ++ [Activity.withActor st env 0 "grant.created" none none
            (some (auditActor actor))]
          grants := store.grants ++ [⟨code, signature, env.now .expiresAt + 300000, false, false⟩] }
  | grantRevoked (path : String) (actor : Option String) (grant : Grant)
      (hfound : store.grants.find? (fun grant => grant.code == revokedGrantCode path) =
        some grant) :
      Effect st env store (.revokeGrant path actor) ⟨.ok, .grantRevoked (revokedGrantCode path)⟩
        { store with
          grants := setFirst (fun grant => grant.code == revokedGrantCode path)
            { grant with revoked := true } store.grants
          audit := store.audit ++ [Activity.withActor st env 0 "grant.revoked" none none
            (some (auditActor actor))] }
  | grantRedeemed (body : String) (grant : Grant) (node : Node) (h : Enrols env body store node)
      (hfound : store.grants.find? (redeemedBy st env body) = some grant) :
      Effect st env store (.redeemGrant body)
        ⟨.created, .nodeWithCredential node (nodeIsFresh st env node) node.credential⟩
        { store with
          grants := setFirst (redeemedBy st env body) { grant with used := true } store.grants
          nodes := store.nodes ++ [node]
          audit := store.audit ++ [Activity.withActor st env 0 "grant.redeemed" (some node.id) none
            (some node.id)] }
  | redemptionAborted (body : String) (grant : Grant)
      (hid : validNodeId ((jsonField body "node_id").getD "") = true)
      (hnew : ∀ other ∈ store.nodes, other.id ≠ (jsonField body "node_id").getD "")
      (hfound : store.grants.find? (redeemedBy st env body) = some grant)
      (hdrawn : randomToken env 0 = none) :
      Effect st env store (.redeemGrant body)
        (failure .internalServerError "secure_random_unavailable")
        { store with
          grants := setFirst (redeemedBy st env body) { grant with used := true } store.grants }
  | approvalCreated (body : String) (actor : Option String) (approval : Approval)
      (h : Approves st env body actor approval) :
      Effect st env store (.createApproval body actor) ⟨.created, .approval approval⟩
        { store with
          audit := store.audit ++ [Activity.withActor st env 0 "approval.created"
            (some approval.node_id) (some approval.id) (some (auditActor actor))]
          approvals := store.approvals ++ [approval] }
  | taskCreated (body : String) (actor : Option String) (req : TaskRequest) (approved : Store)
      (k : ℕ) (h : Accepts st env body actor store req)
      (happroved : approvalGate st env store req = .ok (approved, k)) :
      Effect st env store (.createTask body actor) ⟨.accepted, .task (queuedTask st env req)⟩
        { approved with
          audit := approved.audit ++
            [Activity.withActor st env k "task.accepted" (some req.node_id)
              (some (queuedTask st env req).id) (some (queuedTask st env req).actor),
             Activity.withActor st env (k + 1) "policy.allowed"
              (some (queuedTask st env req).node_id) (some (queuedTask st env req).id)
              (some (queuedTask st env req).actor)]
          tasks := approved.tasks ++ [queuedTask st env req] }
  | taskCancelled (path : String) (actor : Option String) (task : Task)
      (h : Cancels path actor store task) :
      Effect st env store (.cancelTask path actor) ⟨.ok, .task (cancelledTask task)⟩
        { store with
          tasks := setFirst (fun task => task.id == cancelledTaskId path) (cancelledTask task)
            store.tasks
          audit := store.audit ++ [Activity.withActor st env 0 "task.cancelled"
            (some task.node_id) (some (cancelledTaskId path)) (some (auditActor actor))] }
  | tasksDispatched (path node_id : String) (tasks dispatched : List Task)
      (h : Polls st env path store node_id)
      (hloop : dispatchLoop env node_id 0 store.tasks = (tasks, some dispatched))
      (hsome : dispatched ≠ []) :
      Effect st env store (.agentTasks path) ⟨.ok, .tasks dispatched⟩
        { store with
          tasks := tasks
          audit := store.audit ++ [Activity.withActor st env 0 "task.dispatched" (some node_id)
            none (some node_id)] }
  | dispatchAborted (path node_id : String) (tasks : List Task)
      (h : Polls st env path store node_id)
      (hloop : dispatchLoop env node_id 0 store.tasks = (tasks, none)) :
      Effect st env store (.agentTasks path)
        (failure .internalServerError "secure_random_unavailable") { store with tasks := tasks }
  | resultAccepted (path body : String) (upload : ResultUpload) (task : Task)
      (h : Uploads env path body store upload task) :
      Effect st env store (.agentResult path body) ⟨.ok, .task (completed task upload)⟩
        { store with
          tasks := setFirst (uploadTarget upload) (completed task upload) store.tasks
          audit := store.audit ++ [Activity.withActor st env 0 "task.completed"
            (some upload.node_id) (some upload.task_id) (some upload.node_id)] }

/-! ## Every arm has such an effect -/

section Arms

variable {st : State} {env : Env} {store new : Store} {arm : Arm} {response : Response}

/-- A refusal changes nothing and shows nothing. -/
theorem Effect.refusal (arm : Arm) (status : Status) (code : String)
    (h : status.isSuccess = false) : Effect st env store arm (failure status code) store := by
  refine .unchanged arm _ (fun hok => ?_) (fun _ => ⟨rfl, rfl⟩)
  rw [failure, h] at hok
  exact absurd hok Bool.false_ne_true

/-- The backend stores the change or the handler rolls it back. -/
theorem Effect.persistOrRollback (h : Effect st env store arm response new) :
    Effect st env store arm (persistOrRollback env new store response).1
      (persistOrRollback env new store response).2 := by
  unfold ControlPlane.persistOrRollback
  split_ifs
  · exact h
  · exact .refusal arm _ _ (by decide)

/-- `create_node_as`. -/
theorem createNodeAs_effect (st : State) (env : Env) (body : String) (actor : Option String)
    (store : Store) : Effect st env store (.createNode body actor)
      (createNodeAs st env body actor store).1 (createNodeAs st env body actor store).2 := by
  unfold createNodeAs
  dsimp only
  split_ifs with htypes hid hlabels hnew
  · exact .refusal _ _ _ (by decide)
  · exact .refusal _ _ _ (by decide)
  · exact .refusal _ _ _ (by decide)
  · exact .refusal _ _ _ (by decide)
  · split
    · exact .refusal _ _ _ (by decide)
    · next credential hdrawn =>
      refine .persistOrRollback (.nodeCreated body actor _ ⟨rfl, ?_, ?_, ?_, hdrawn⟩)
      · simpa [enrolledNode] using hid
      · simpa [enrolledNode] using hlabels
      · simpa [enrolledNode] using hnew

/-- `redeem_grant`. -/
theorem redeemGrant_effect (st : State) (env : Env) (body : String) (store : Store) :
    Effect st env store (.redeemGrant body) (redeemGrant st env body store).1
      (redeemGrant st env body store).2 := by
  unfold redeemGrant
  dsimp only
  split_ifs with htypes hcode hlabels hnew
  · exact .refusal _ _ _ (by decide)
  · exact .refusal _ _ _ (by decide)
  · exact .refusal _ _ _ (by decide)
  · exact .refusal _ _ _ (by decide)
  · have hid : validNodeId ((jsonField body "node_id").getD "") = true := by
      simp only [Bool.or_eq_true, not_or] at hcode
      simpa using hcode.2
    have hnew' : ∀ other ∈ store.nodes, other.id ≠ (jsonField body "node_id").getD "" := by
      simpa using hnew
    split
    · exact .refusal _ _ _ (by decide)
    · next grant hfound =>
      split
      · next hdrawn => exact .redemptionAborted body grant hid hnew' hfound hdrawn
      · next credential hdrawn =>
        refine .persistOrRollback
          (.grantRedeemed body grant _ ⟨rfl, hid, ?_, hnew', hdrawn⟩ hfound)
        simpa [enrolledNode] using hlabels

/-- `revoke_node_as`. -/
theorem revokeNodeAs_effect (st : State) (env : Env) (id : String) (actor : Option String)
    (store : Store) : Effect st env store (.revokeNode id actor)
      (revokeNodeAs st env id actor store).1 (revokeNodeAs st env id actor store).2 := by
  unfold revokeNodeAs
  split
  · exact .refusal _ _ _ (by decide)
  · next node hfound => exact .persistOrRollback (.nodeRevoked id actor node hfound)

/-- `rotate_node_as`. -/
theorem rotateNodeAs_effect (st : State) (env : Env) (id : String) (actor : Option String)
    (store : Store) : Effect st env store (.rotateNode id actor)
      (rotateNodeAs st env id actor store).1 (rotateNodeAs st env id actor store).2 := by
  unfold rotateNodeAs
  split
  · exact .refusal _ _ _ (by decide)
  · next credential hdrawn =>
    split
    · exact .refusal _ _ _ (by decide)
    · next node hfound =>
      split_ifs with hrevoked
      · exact .refusal _ _ _ (by decide)
      · exact .persistOrRollback (.nodeRotated id actor node credential hdrawn hfound
          (Bool.eq_false_iff.mpr hrevoked))

/-- `heartbeat`. -/
theorem heartbeat_effect (st : State) (env : Env) (body : String) (store : Store) :
    Effect st env store (.heartbeat body) (heartbeat st env body store).1
      (heartbeat st env body store).2 := by
  unfold heartbeat
  split
  · next refusal h =>
    obtain ⟨hstatus, hshown⟩ := heartbeatTarget_error h
    exact .unchanged _ _ (fun hok => by rw [hstatus] at hok; cases hok) (fun _ => hshown)
  · next node h =>
    dsimp only
    split
    · next habilities => exact .heartbeatAborted body node h habilities
    · next hsupported =>
      refine .persistOrRollback (.nodeBeaten body node _ h ?_)
      match hb : (jsonField body "abilities").map normalizeAbilities with
      | none => rfl
      | some none => exact absurd hb hsupported
      | some (some abilities) => rfl

/-- `create_grant_as`. -/
theorem createGrantAs_effect (st : State) (env : Env) (actor : Option String) (store : Store) :
    Effect st env store (.createGrant actor) (createGrantAs st env actor store).1
      (createGrantAs st env actor store).2 := by
  unfold createGrantAs
  split
  · exact .refusal _ _ _ (by decide)
  · next code hdrawn =>
    dsimp only
    split
    · exact .refusal _ _ _ (by decide)
    · next signature hsigned =>
      exact .persistOrRollback (.grantCreated actor code signature hdrawn hsigned)

/-- `revoke_grant_as`. -/
theorem revokeGrantAs_effect (st : State) (env : Env) (path : String) (actor : Option String)
    (store : Store) : Effect st env store (.revokeGrant path actor)
      (revokeGrantAs st env path actor store).1 (revokeGrantAs st env path actor store).2 := by
  unfold revokeGrantAs
  dsimp only
  split_ifs with hcode
  · exact .refusal _ _ _ (by decide)
  · split
    · exact .refusal _ _ _ (by decide)
    · next grant hfound => exact .persistOrRollback (.grantRevoked path actor grant hfound)

/-- `create_approval_as`. -/
theorem createApprovalAs_effect (st : State) (env : Env) (body : String)
    (actor : Option String) (store : Store) :
    Effect st env store (.createApproval body actor) (createApprovalAs st env body actor store).1
      (createApprovalAs st env body actor store).2 := by
  unfold createApprovalAs
  dsimp only
  split_ifs with htypes
  · exact .refusal _ _ _ (by decide)
  · split
    · exact .refusal _ _ _ (by decide)
    · next a hresolved =>
      split_ifs with hvalid
      · exact .refusal _ _ _ (by decide)
      · simp only [Bool.or_eq_true, decide_eq_true_eq, not_or, Bool.not_eq_true',
          Bool.not_eq_false, ne_eq, not_not] at hvalid
        obtain ⟨⟨⟨-, hability⟩, hnode⟩, hactor⟩ := hvalid
        exact .persistOrRollback (.approvalCreated body actor _
          ⟨rfl, rfl, ⟨hability, hability⟩, rfl, rfl, hresolved, hnode, hactor, rfl, rfl⟩)

/-- `create_task_as` for a key that is not in use. -/
theorem acceptTask_effect (st : State) (env : Env) (body : String) (actor : Option String)
    (store : Store) (req : TaskRequest) (hparsed : parseTaskRequest st env body actor = .ok req)
    (hkey : req.idempotency_key ≠ "" →
      ∀ task ∈ store.tasks, task.idempotency_key ≠ req.idempotency_key) :
    Effect st env store (.createTask body actor) (acceptTask st env store req).1
      (acceptTask st env store req).2 := by
  unfold acceptTask
  split
  · next h =>
    obtain ⟨status, code, rfl, hstatus⟩ := refusedByPolicy_some h
    exact .refusal _ status code hstatus
  · next hallowed =>
    split
    · next h =>
      obtain ⟨status, code, rfl, hstatus⟩ := approvalGate_error h
      exact .refusal _ status code hstatus
    · next approved k happroved =>
      exact .persistOrRollback
        (.taskCreated body actor req approved k ⟨hparsed, hkey, hallowed⟩ happroved)

/-- `create_task_as`. -/
theorem createTaskAs_effect (st : State) (env : Env) (body : String) (actor : Option String)
    (store : Store) : Effect st env store (.createTask body actor)
      (createTaskAs st env body actor store).1 (createTaskAs st env body actor store).2 := by
  unfold createTaskAs
  split
  · next h =>
    obtain ⟨status, code, rfl, hstatus⟩ := parseTaskRequest_error h
    exact .refusal _ status code hstatus
  · next req hparsed =>
    split_ifs with hkey
    · split
      · split_ifs
        · exact .unchanged _ _ (fun _ => rfl) nofun
        · exact .refusal _ _ _ (by decide)
      · next hnew =>
        refine acceptTask_effect st env body actor store req hparsed (fun _ task htask => ?_)
        simpa using List.find?_eq_none.mp hnew task htask
    · exact acceptTask_effect st env body actor store req hparsed (fun h => absurd h hkey)

/-- `cancel_task_as`. -/
theorem cancelTaskAs_effect (st : State) (env : Env) (path : String) (actor : Option String)
    (store : Store) : Effect st env store (.cancelTask path actor)
      (cancelTaskAs st env path actor store).1 (cancelTaskAs st env path actor store).2 := by
  unfold cancelTaskAs
  dsimp only
  split
  · exact .refusal _ _ _ (by decide)
  · next task hfound =>
    split_ifs with hactor hterminal
    · exact .refusal _ _ _ (by decide)
    · exact .refusal _ _ _ (by decide)
    · refine .persistOrRollback (.taskCancelled path actor task ⟨hfound, ?_, ?_⟩)
      · intro a ha
        rw [Option.mem_def.mp ha] at hactor
        simpa using hactor
      · simpa using hterminal

/-- `agent_result`. -/
theorem agentResult_effect (st : State) (env : Env) (path body : String) (store : Store) :
    Effect st env store (.agentResult path body) (agentResult st env path body store).1
      (agentResult st env path body store).2 := by
  unfold agentResult
  split
  · next h =>
    obtain ⟨status, code, rfl, hstatus⟩ := parseResultUpload_error h
    exact .refusal _ status code hstatus
  · next upload hparsed =>
    split
    · exact .refusal _ _ _ (by decide)
    · next task hfound =>
      split
      · next h =>
        obtain ⟨status, code, rfl, hstatus⟩ := refusedResult_some h
        exact .refusal _ status code hstatus
      · next haccepted =>
        exact .persistOrRollback
          (.resultAccepted path body upload task ⟨hparsed, hfound, haccepted⟩)

/-- `agent_tasks`. -/
theorem agentTasks_effect (st : State) (env : Env) (path : String) (store : Store) :
    Effect st env store (.agentTasks path) (agentTasks st env path store).1
      (agentTasks st env path store).2 := by
  unfold agentTasks
  split
  · exact .refusal _ _ _ (by decide)
  · next node_id hquery =>
    split_ifs with hfresh
    · exact .refusal _ _ _ (by decide)
    · have hpolls : Polls st env path store node_id := ⟨hquery, by simpa [and_assoc] using hfresh⟩
      split
      · next tasks hloop => exact .dispatchAborted path node_id tasks hpolls hloop
      · next tasks hloop =>
        rw [dispatchLoop_nil hloop]
        exact .unchanged _ _ (fun _ => rfl) (fun _ => ⟨rfl, rfl⟩)
      · next tasks dispatched hsome hloop =>
        exact .persistOrRollback
          (.tasksDispatched path node_id tasks dispatched hpolls hloop (hsome ·))

/-- An arm that only reads the store. -/
theorem Effect.read (response : Response) (hread : arm.mayOnlyRead = true)
    (hshown : arm.discloses = false →
      response.reply.shownTasks = [] ∧ response.reply.shownApprovals = []) :
    Effect st env store arm response store :=
  .unchanged arm response (fun _ => hread) hshown

/-- What an arm does is an effect of that arm. -/
theorem Arm.run_effect (st : State) (env : Env) (arm : Arm) (store : Store) :
    Effect st env store arm (arm.run st env store).1 (arm.run st env store).2 := by
  cases arm with
  | respond response => exact .read _ rfl nofun
  | redeemGrant body => exact redeemGrant_effect st env body store
  | listNodes => exact .read _ rfl (fun _ => ⟨rfl, rfl⟩)
  | createNode body actor => exact createNodeAs_effect st env body actor store
  | createGrant actor => exact createGrantAs_effect st env actor store
  | listGrants => exact .read _ rfl (fun _ => ⟨rfl, rfl⟩)
  | revokeGrant path actor => exact revokeGrantAs_effect st env path actor store
  | createApproval body actor => exact createApprovalAs_effect st env body actor store
  | listApprovals => exact .read _ rfl nofun
  | listTasks => exact .read _ rfl nofun
  | getTask path => exact .read _ rfl nofun
  | createTask body actor => exact createTaskAs_effect st env body actor store
  | cancelTask path actor => exact cancelTaskAs_effect st env path actor store
  | heartbeat body => exact heartbeat_effect st env body store
  | agentTasks path => exact agentTasks_effect st env path store
  | agentResult path body => exact agentResult_effect st env path body store
  | listAudit => exact .read _ rfl (fun _ => ⟨rfl, rfl⟩)
  | exportAudit path =>
    refine .read _ rfl (fun _ => ?_)
    unfold run ControlPlane.exportAudit
    dsimp only
    split_ifs <;> exact ⟨rfl, rfl⟩
  | revokeNode id actor => exact revokeNodeAs_effect st env id actor store
  | rotateNode id actor => exact rotateNodeAs_effect st env id actor store

end Arms

/-! ## Handlers whose guards hold -/

section Guarded

omit [Serde] [Ed25519]

variable {st : State} {env : Env} {store : Store} {path body node_id : String}

/-- A poll whose guards hold and whose random source answers. -/
theorem Polls.run {tasks dispatched : List Task} (h : Polls st env path store node_id)
    (hloop : dispatchLoop env node_id 0 store.tasks = (tasks, some dispatched))
    (hsome : dispatched ≠ []) :
    agentTasks st env path store = persistOrRollback env
      { store with
        tasks := tasks
        audit := store.audit ++ [Activity.withActor st env 0 "task.dispatched" (some node_id)
          none (some node_id)] }
      store ⟨.ok, .tasks dispatched⟩ := by
  unfold agentTasks
  rw [h.query]
  dsimp only
  rw [h.fresh, hloop]
  cases dispatched with
  | nil => exact absurd rfl hsome
  | cons task rest => rfl

/-- An upload whose guards hold. -/
theorem Uploads.run [Serde] {upload : ResultUpload} {task : Task} (st : State)
    (h : Uploads env path body store upload task) :
    agentResult st env path body store = persistOrRollback env
      { store with
        tasks := setFirst (uploadTarget upload) (completed task upload) store.tasks
        audit := store.audit ++ [Activity.withActor st env 0 "task.completed"
          (some upload.node_id) (some upload.task_id) (some upload.node_id)] }
      store ⟨.ok, .task (completed task upload)⟩ := by
  unfold agentResult
  rw [h.parsed]
  dsimp only
  rw [h.found]
  dsimp only
  rw [h.accepted]

/-- A heartbeat whose guards hold and whose abilities are supported. -/
theorem heartbeat_run [Serde] {node : Node} (abilities : Option String)
    (htarget : heartbeatTarget body store = .ok node)
    (habilities : (jsonField body "abilities").map normalizeAbilities = abilities.map some) :
    heartbeat st env body store = persistOrRollback env
      { store with
        nodes := setFirst (fun node => node.id == (jsonField body "node_id").getD "")
          (beaten env body abilities node) store.nodes
        audit := store.audit ++ [Activity.withActor st env 0 "node.heartbeat"
          (some ((jsonField body "node_id").getD "")) none
          (some ((jsonField body "node_id").getD ""))] }
      store ⟨.ok, .heartbeat (beaten env body abilities node)
        (nodeIsFresh st env (beaten env body abilities node))⟩ := by
  unfold heartbeat
  rw [htarget]
  dsimp only
  rw [habilities]
  cases abilities <;> rfl

/-- A heartbeat whose guards hold and whose abilities are not supported. -/
theorem heartbeat_abort [Serde] {node : Node} (htarget : heartbeatTarget body store = .ok node)
    (habilities : (jsonField body "abilities").map normalizeAbilities = some none) :
    heartbeat st env body store = (failure .unprocessableEntity "unsupported_ability",
      { store with
        nodes := setFirst (fun node => node.id == (jsonField body "node_id").getD "")
          (markedOnline env node) store.nodes }) := by
  unfold heartbeat
  rw [htarget]
  dsimp only
  rw [habilities]

/-- Surroundings at the same instants in which the random source and the backend work. -/
def Env.working (env : Env) : Env :=
  { env with random := fun _ => some (Vector.replicate 24 0), persist := fun _ => true }

end Guarded

end NodeWe.ControlPlane
