import NodeWe.ControlPlane.Nodes

/-!
# Handlers of approvals and tasks

The handlers that record approvals and that create, cancel, dispatch, and complete tasks.
`create_task_as` and `agent_result` are long functions of the source, and are cut at the points
where they take the store's lock: what they read from the request (`parseTaskRequest`,
`parseResultUpload`), then what they do to the store.
-/

namespace NodeWe.ControlPlane

open Text InPlace

/-! ## The policy -/

/-- `valid_relative_path`. -/
def validRelativePath (value : String) : Bool :=
  value ≠ "" && len value ≤ 512 &&
    !(value.toList.head? == some '/' || value.toList.head? == some '\\') &&
    !(value.toList.contains '\x00') &&
    (value.toList.splitOnP fun c => c == '/' || c == '\\').all fun segment =>
      segment ≠ [] && segment ≠ ['.', '.']

/-- `policy_allows_path`. -/
def policyAllowsPath (path : String) (allowed_paths : List String) : Bool :=
  if allowed_paths = [] then true
  else if !validRelativePath path then false
  else
    let normalized := (stripPrefix path "./").getD path
    allowed_paths.any fun allowed =>
      let allowed := (stripPrefix allowed "./").getD allowed
      normalized == allowed || (stripPrefix normalized allowed).any (startsWith · "/")

/-! ## Approvals -/

section Approvals

variable [Serde]

/-- `resolve_actor`. -/
def resolveActor (body : String) (actor : Option String) : Option String :=
  match actor, jsonField body "actor" with
  | some authenticated, some requested =>
    if authenticated ≠ requested then none else some authenticated
  | some authenticated, none => some authenticated
  | none, some requested => some requested
  | none, none => some "admin"

/-- `create_approval_as`. -/
def createApprovalAs (st : State) (env : Env) (body : String) (authenticated : Option String)
    (store : Store) : Response × Store :=
  let node_id := (jsonField body "node_id").getD ""
  let ability := (jsonField body "ability").getD ""
  let program := (jsonField body "program").getD "echo"
  let argument := (jsonField body "argument").getD ""
  if !jsonTypesValid body ["node_id", "ability", "program", "argument", "actor"] [] [] then
    (failure .badRequest "invalid_json_type", store)
  else
    match resolveActor body authenticated with
    | none => (failure .forbidden "actor_mismatch", store)
    | some actor =>
      if node_id = "" || ability ≠ "task.exec" || !validNodeId node_id || !validActorId actor then
        (failure .badRequest "invalid_approval", store)
      else
        let approval : Approval := ⟨newId st env "approval" .approvalId, node_id, ability, program,
          argument, actor, env.now .expiresAt + 300000, false⟩
        persistOrRollback env
          { store with
            audit := store.audit ++ [Activity.withActor st env 0 "approval.created"
              (some node_id) (some approval.id) (some (auditActor authenticated))]
            approvals := store.approvals ++ [approval] }
          store ⟨.created, .approval approval⟩

end Approvals

/-! ## Creation -/

section CreateTask

variable [Serde]

/-- What `create_task_as` reads from its request. -/
structure TaskRequest where
  node_id : String
  request_id : String
  actor : String
  ability : String
  idempotency_key : String
  program : String
  argument : String
  approval_id : Option String
  timeout_ms : ℕ
  output_limit : ℕ
  approved : Bool

/-- A numeric member of a body: its default where it is absent, and nothing where it is not an
unsigned integer. -/
def jsonNumberOr (body key : String) (default : ℕ) : Option ℕ :=
  if jsonKeyPresent body key then jsonNumber body key else some default

/-- `create_task_as` up to the store's lock: the request, or the response that refuses it. -/
def parseTaskRequest (st : State) (env : Env) (body : String) (authenticated : Option String) :
    Except Response TaskRequest :=
  if !jsonTypesValid body ["node_id", "request_id", "actor", "ability", "idempotency_key",
      "program", "argument", "approval_id"] ["timeout_ms", "output_limit"] ["approved"] then
    .error (failure .badRequest "invalid_json_type")
  else
    let request_id := (jsonField body "request_id").getD (newId st env "request" .requestId)
    match resolveActor body authenticated with
    | none => .error (failure .forbidden "actor_mismatch")
    | some actor =>
      match jsonNumberOr body "timeout_ms" defaultTaskTimeoutMs with
      | none => .error (failure .badRequest "invalid_timeout")
      | some timeout_ms =>
        match (jsonNumberOr body "output_limit" maxTaskOutputLimit).filter
            (fun value => 0 < value ∧ value ≤ maxTaskOutputLimit) with
        | none => .error (failure .badRequest "invalid_output_limit")
        | some output_limit =>
          if !validNodeId request_id then .error (failure .badRequest "invalid_request_id")
          else if !validNodeId actor then .error (failure .badRequest "invalid_actor")
          else if timeout_ms = 0 || timeout_ms > maxTaskTimeoutMs then
            .error (failure .badRequest "invalid_timeout")
          else .ok {
            node_id := (jsonField body "node_id").getD ""
            request_id := request_id
            actor := actor
            ability := (jsonField body "ability").getD ""
            idempotency_key := (jsonField body "idempotency_key").getD ""
            program := (jsonField body "program").getD "echo"
            argument := (jsonField body "argument").getD ""
            approval_id := jsonField body "approval_id"
            timeout_ms := timeout_ms
            output_limit := output_limit
            approved := jsonTrue body "approved" }

end CreateTask

/-- The parameters that the idempotency lookup compares. The output limit is not one of them. -/
def sameRequest (existing : Task) (req : TaskRequest) : Bool :=
  existing.node_id == req.node_id && existing.actor == req.actor &&
    existing.ability == req.ability && existing.program == req.program &&
    existing.argument == req.argument && existing.timeout_ms == req.timeout_ms

/-- The gates of `create_task_as` between the idempotency lookup and the approval: the refusal of
the first one that fails. -/
def refusedByPolicy (st : State) (env : Env) (store : Store) (req : TaskRequest) :
    Option Response :=
  if !store.nodes.any (fun node => node.id == req.node_id && nodeIsFresh st env node) then
    some (failure .conflict "node_unavailable")
  else if !(["file.read", "file.write", "task.exec", "system.inspect"].contains req.ability) then
    some (failure .forbidden "forbidden")
  else if !st.policy.allowed_abilities.contains req.ability then
    some (failure .forbidden "policy_denied")
  else if st.policy.allowed_actors ≠ [] && !st.policy.allowed_actors.contains req.actor then
    some (failure .forbidden "policy_denied")
  else if req.ability == "task.exec" && st.policy.allowed_commands ≠ [] &&
      !st.policy.allowed_commands.contains req.program then
    some (failure .forbidden "policy_denied")
  else if (req.ability == "file.read" || req.ability == "file.write") &&
      !policyAllowsPath req.program st.policy.allowed_paths then
    some (failure .forbidden "policy_denied")
  else if (store.nodes.find? fun node => node.id == req.node_id).any (fun node =>
      st.policy.allowed_data_classes ≠ [] &&
        !st.policy.allowed_data_classes.contains node.data_class) then
    some (failure .forbidden "policy_denied")
  else if !store.nodes.any (fun node => node.id == req.node_id &&
      (node.abilities.toList.splitOn ',').any (· == req.ability.toList)) then
    some (failure .forbidden "ability_unavailable")
  else none

/-- The approvals that a task request may consume. -/
def consumable (env : Env) (req : TaskRequest) (approval_id : String) (approval : Approval) :
    Bool :=
  approval.id == approval_id && approval.node_id == req.node_id &&
    approval.ability == req.ability && approval.program == req.program &&
    approval.argument == req.argument && approval.actor == req.actor && !approval.used &&
    decide (approval.expires_at > env.now (.approvalExpiry approval.id))

/-- The approval gate of `create_task_as`: the store with the approval consumed, the number of
audit records that it appended, or the refusal. -/
def approvalGate (st : State) (env : Env) (store : Store) (req : TaskRequest) :
    Except Response (Store × ℕ) :=
  if req.ability == "task.exec" || st.policy.approval_required.contains req.ability then
    if st.require_approval_records then
      match req.approval_id with
      | none => .error (failure .preconditionRequired "approval_required")
      | some approval_id =>
        match store.approvals.find? (consumable env req approval_id) with
        | none => .error (failure .forbidden "approval_invalid")
        | some approval => .ok
          ({ store with
            approvals := setFirst (consumable env req approval_id) { approval with used := true }
              store.approvals
            audit := store.audit ++ [Activity.withActor st env 0 "approval.consumed"
              (some req.node_id) (some approval_id) (some req.actor)] }, 1)
    else if req.approved then .ok (store, 0)
    else .error (failure .preconditionRequired "approval_required")
  else .ok (store, 0)

/-- The task that `create_task_as` queues. -/
def queuedTask (st : State) (env : Env) (req : TaskRequest) : Task where
  id := newId st env "task" .taskId
  request_id := req.request_id
  actor := req.actor
  node_id := req.node_id
  ability := req.ability
  state := "queued"
  idempotency_key := req.idempotency_key
  program := req.program
  argument := req.argument
  output := ""
  output_sha256 := ""
  output_truncated := false
  output_limit := req.output_limit
  exit_code := none
  lease_until := 0
  lease_token := ""
  timeout_ms := req.timeout_ms

/-- `create_task_as` from the store's lock on, for a request whose key is not in use. -/
def acceptTask (st : State) (env : Env) (store : Store) (req : TaskRequest) : Response × Store :=
  match refusedByPolicy st env store req with
  | some refusal => (refusal, store)
  | none =>
    match approvalGate st env store req with
    | .error refusal => (refusal, store)
    | .ok (approved, k) =>
      let task := queuedTask st env req
      persistOrRollback env
        { approved with
          audit := approved.audit ++
            [Activity.withActor st env k "task.accepted" (some req.node_id) (some task.id)
              (some task.actor),
             Activity.withActor st env (k + 1) "policy.allowed" (some task.node_id) (some task.id)
              (some task.actor)]
          tasks := approved.tasks ++ [task] }
        store ⟨.accepted, .task task⟩

/-- `create_task_as`. -/
def createTaskAs [Serde] (st : State) (env : Env) (body : String) (authenticated : Option String)
    (store : Store) : Response × Store :=
  match parseTaskRequest st env body authenticated with
  | .error refusal => (refusal, store)
  | .ok req =>
    if req.idempotency_key ≠ "" then
      match store.tasks.find? fun task => task.idempotency_key == req.idempotency_key with
      | some existing =>
        if sameRequest existing req then (⟨.ok, .task existing⟩, store)
        else (failure .conflict "idempotency_conflict", store)
      | none => acceptTask st env store req
    else acceptTask st env store req

/-! ## Reading and cancelling -/

/-- The task identifier in a path of `get_task`. -/
def fetchedTaskId (path : String) : String :=
  trimEndMatches (trimStartMatches path "/v1/tasks/") "/"

/-- `get_task`. -/
def getTask (path : String) (store : Store) : Response :=
  match store.tasks.find? fun task => task.id == fetchedTaskId path with
  | none => failure .notFound "task_not_found"
  | some task => ⟨.ok, .task task⟩

/-- The terminal states of a task. -/
def terminalStates : List String := ["succeeded", "failed", "cancelled", "timed_out"]

/-- The task identifier in a path of `cancel_task_as`. -/
def cancelledTaskId (path : String) : String :=
  trimEndMatches (trimEndMatches (trimStartMatches path "/v1/tasks/") "/cancel") "/"

/-- `cancel_task_as`. -/
def cancelTaskAs (st : State) (env : Env) (path : String) (actor : Option String)
    (store : Store) : Response × Store :=
  let task_id := cancelledTaskId path
  match store.tasks.find? fun task => task.id == task_id with
  | none => (failure .notFound "task_not_found", store)
  | some task =>
    if actor.any (task.actor ≠ ·) then (failure .forbidden "actor_forbidden", store)
    else if terminalStates.contains task.state then (failure .conflict "task_terminal", store)
    else
      let cancelled := { task with state := "cancelled", lease_until := 0 }
      persistOrRollback env
        { store with
          tasks := setFirst (fun task => task.id == task_id) cancelled store.tasks
          audit := store.audit ++ [Activity.withActor st env 0 "task.cancelled"
            (some task.node_id) (some task_id) (some (auditActor actor))] }
        store ⟨.ok, .task cancelled⟩

/-! ## Dispatch -/

/-- The filter of `agent_tasks`: the tasks of a node that are queued or whose lease is over. -/
def claimable (env : Env) (node_id : String) (task : Task) : Bool :=
  task.node_id == node_id &&
    (task.state == "queued" ||
      (task.state == "dispatched" && decide (task.lease_until ≤ env.now (.claim task.id))))

/-- A task as `agent_tasks` dispatches it. -/
def leased (env : Env) (token : String) (task : Task) : Task :=
  { task with
    state := "dispatched"
    lease_until := env.now (.lease task.id) + max task.timeout_ms defaultTaskTimeoutMs + 5000
    lease_token := token }

/-- The loop of `agent_tasks`, after `k` tokens are drawn: the tasks that it leaves behind, and
those that it dispatched unless the random source failed. -/
def dispatchLoop (env : Env) (node_id : String) : ℕ → List Task → List Task × Option (List Task)
  | _, [] => ([], some [])
  | k, task :: rest =>
    if claimable env node_id task then
      match randomToken env k with
      | none => (task :: rest, none)
      | some token =>
        let (left, dispatched) := dispatchLoop env node_id (k + 1) rest
        (leased env token task :: left, dispatched.map (leased env token task :: ·))
    else
      let (left, dispatched) := dispatchLoop env node_id k rest
      (task :: left, dispatched)

/-- `agent_tasks`. -/
def agentTasks (st : State) (env : Env) (path : String) (store : Store) : Response × Store :=
  match queryField path "node_id" with
  | none => (failure .badRequest "node_id_required", store)
  | some node_id =>
    if !store.nodes.any (fun node => node.id == node_id && !node.revoked && nodeIsFresh st env node)
    then (failure .forbidden "node_revoked", store)
    else
      match dispatchLoop env node_id 0 store.tasks with
      | (tasks, none) =>
        -- The source has already dispatched the tasks before the failure, and returns without a
        -- rollback.
        (failure .internalServerError "secure_random_unavailable", { store with tasks := tasks })
      | (tasks, some []) => (⟨.ok, .tasks []⟩, { store with tasks := tasks })
      | (tasks, some dispatched) =>
        persistOrRollback env
          { store with
            tasks := tasks
            audit := store.audit ++ [Activity.withActor st env 0 "task.dispatched" (some node_id)
              none (some node_id)] }
          store ⟨.ok, .tasks dispatched⟩

/-! ## Results -/

/-- The longest prefix of whole characters within a number of bytes. -/
def truncateChars : ℕ → List Char → List Char
  | _, [] => []
  | room, c :: cs => if c.utf8Size ≤ room then c :: truncateChars (room - c.utf8Size) cs else []

/-- `truncate_utf8`. -/
def truncateUtf8 (value : String) (max_bytes : ℕ) : String :=
  if len value ≤ max_bytes then value else String.ofList (truncateChars max_bytes value.toList)

/-- The task identifier in a path of `agent_result`. -/
def resultTaskId (path : String) : String :=
  trimEndMatches (trimEndMatches (trimStartMatches path "/v1/agent/tasks/") "/result") "/"

/-- What `agent_result` reads from its request. -/
structure ResultUpload where
  task_id : String
  node_id : String
  request_id : Option String
  lease_token : String
  state : String
  output : String
  output_sha256 : String
  exit_code : Option ℤ

/-- `agent_result` up to the store's lock: the upload, or the response that refuses it. -/
def parseResultUpload [Serde] (path body : String) : Except Response ResultUpload :=
  if !jsonTypesValid body ["node_id", "request_id", "lease_token", "state", "output",
      "output_sha256", "exit_code"] [] [] then
    .error (failure .badRequest "invalid_json_type")
  else if (jsonField body "request_id").any (!validNodeId ·) then
    .error (failure .badRequest "invalid_request_id")
  else
    let raw_output := (jsonField body "output").getD ""
    let computed := hexEncodeBytes (sha256 (bytes raw_output))
    if (jsonField body "output_sha256").any (fun value =>
        !(len value == 64 && value.toList.all isAsciiHexdigit &&
          constantTimeEq (toAsciiLowercase value) computed)) then
      .error (failure .badRequest "output_hash_mismatch")
    else .ok {
      task_id := resultTaskId path
      node_id := (jsonField body "node_id").getD ""
      request_id := jsonField body "request_id"
      lease_token := (jsonField body "lease_token").getD ""
      state := (jsonField body "state").getD "failed"
      output := raw_output
      output_sha256 := computed
      exit_code := (jsonField body "exit_code").bind fun value => parseI32 value.toList }

/-- The refusals of `agent_result` for the task that an upload names. -/
def refusedResult (env : Env) (task : Task) (upload : ResultUpload) : Option Response :=
  if upload.request_id.any (· ≠ task.request_id) then
    some (failure .conflict "request_id_mismatch")
  else if task.state ≠ "dispatched" || task.lease_until < env.now .result then
    some (failure .conflict "task_expired")
  else if task.lease_token = "" || !constantTimeEq task.lease_token upload.lease_token then
    some (failure .conflict "lease_token_mismatch")
  else if !terminalStates.contains upload.state then
    some (failure .badRequest "invalid_task_state")
  else none

/-- A task as `agent_result` completes it. -/
def completed (task : Task) (upload : ResultUpload) : Task :=
  let limit := min task.output_limit maxPersistedOutputBytes
  { task with
    state := upload.state
    output := truncateUtf8 upload.output limit
    output_sha256 := upload.output_sha256
    output_truncated := decide (len upload.output > limit)
    exit_code := upload.exit_code }

/-- The task that an upload names. -/
def uploadTarget (upload : ResultUpload) (task : Task) : Bool :=
  task.id == upload.task_id && task.node_id == upload.node_id

/-- `agent_result`. -/
def agentResult [Serde] (st : State) (env : Env) (path body : String) (store : Store) :
    Response × Store :=
  match parseResultUpload path body with
  | .error refusal => (refusal, store)
  | .ok upload =>
    match store.tasks.find? (uploadTarget upload) with
    | none => (failure .notFound "task_not_found", store)
    | some task =>
      match refusedResult env task upload with
      | some refusal => (refusal, store)
      | none =>
        persistOrRollback env
          { store with
            tasks := setFirst (uploadTarget upload) (completed task upload) store.tasks
            audit := store.audit ++ [Activity.withActor st env 0 "task.completed"
              (some upload.node_id) (some upload.task_id) (some upload.node_id)] }
          store ⟨.ok, .task (completed task upload)⟩

end NodeWe.ControlPlane
