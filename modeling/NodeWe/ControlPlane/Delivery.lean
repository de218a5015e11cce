import Mathlib.Tactic.Linarith
import NodeWe.ControlPlane.Runs
import NodeWe.ControlPlane.Transport
import NodeWe.NodeRuntime.Transport

/-!
# Dispatched tasks on their way

`agent_tasks` leases all tasks that wait for a node, and the store that says so is persisted before
the reply is framed. Nothing bounds the reply: it takes what the tasks take (`dispatchSize`). The
reply arrives exactly when it is within the limit of its channel, 1 MiB for a frame and 8 MiB for a
response.
-/

namespace NodeWe.ControlPlane

open Text Wire

/-! ## The size of a reply -/

/-- The bytes of a task as `agent_tasks` sends it. -/
def dispatchedSize (env : Env) (task : Task) : ℕ :=
  310 + ([task.id, task.request_id, task.actor, task.node_id, task.ability, task.idempotency_key,
      task.program, task.argument, task.output, task.output_sha256].map escapedLen).sum +
    len (boolText task.output_truncated) + len task.output_limit.repr +
    len ((task.exit_code.map Int.repr).getD "null") +
    len (env.now (.lease task.id) + max task.timeout_ms defaultTaskTimeoutMs + 5000).repr +
    len task.timeout_ms.repr

/-- The bytes of the array of the tasks that a poll of a node dispatches. -/
def dispatchSize (env : Env) (node_id : String) (tasks : List Task) : ℕ :=
  1 + ((tasks.filter (claimable env node_id)).map fun task => dispatchedSize env task + 1).sum

/-- The bytes of an envelope, less those of its payload. -/
def envelopeSize (node_id request_id message_type : String) : ℕ :=
  96 + escapedLen node_id + escapedLen request_id + escapedLen message_type

/-- The bytes of a JSON response, less those of its body. -/
def responseSize (size : ℕ) : ℕ := 279 + len size.repr

/-- A token takes 48 characters. -/
theorem escapedLen_randomToken {env : Env} {k : ℕ} {token : String}
    (h : randomToken env k = some token) : escapedLen token = 48 := by
  obtain ⟨drawn, -, rfl⟩ := Option.map_eq_some_iff.mp h
  rw [escapedLen_hexEncodeBytes, Vector.length_toList]

/-- A task takes what its fields take, and its members' names. -/
theorem len_taskJson (task : Task) :
    len (taskJson task) = 252 + ([task.id, task.request_id, task.actor, task.node_id, task.ability,
      task.state, task.idempotency_key, task.program, task.argument, task.output,
      task.output_sha256, task.lease_token].map escapedLen).sum +
    len (boolText task.output_truncated) + len task.output_limit.repr +
    len ((task.exit_code.map Int.repr).getD "null") + len task.lease_until.repr +
    len task.timeout_ms.repr := by
  have hmembers : (["\x7b\"task_id\":", ",\"request_id\":", ",\"actor\":", ",\"node_id\":",
      ",\"ability\":", ",\"state\":", ",\"idempotency_key\":", ",\"program\":", ",\"argument\":",
      ",\"output\":", ",\"output_sha256\":", ",\"output_truncated\":", ",\"output_limit\":",
      ",\"exit_code\":", ",\"lease_until\":", ",\"lease_token\":", ",\"timeout_ms\":",
      "\x7d"].map len).sum = 228 := rfl
  unfold taskJson
  simp only [len_append, len_quoted, List.map_cons, List.map_nil, List.sum_cons, List.sum_nil]
    at hmembers ⊢
  linarith

/-- A task that is dispatched takes its size. -/
theorem len_taskJson_leased {env : Env} {k : ℕ} {token : String} (task : Task)
    (h : randomToken env k = some token) :
    len (taskJson (leased env token task)) = dispatchedSize env task := by
  have hstate : escapedLen "dispatched" = 10 := rfl
  have htoken := escapedLen_randomToken h
  rw [len_taskJson, dispatchedSize]
  simp only [leased, List.map_cons, List.map_nil, List.sum_cons, List.sum_nil, hstate, htoken]
  omega

/-- An envelope takes its payload and its own members. -/
theorem len_websocketEnvelope (node_id request_id message_type payload : String) :
    len (websocketEnvelope node_id request_id message_type payload) =
      envelopeSize node_id request_id message_type + len payload := by
  have hmembers : (["\x7b\"protocol_version\":1,\"agent_version\":\"", version, "\",\"node_id\":",
      ",\"request_id\":", ",\"type\":", ",\"payload\":", "\x7d"].map len).sum = 90 := rfl
  unfold websocketEnvelope envelopeSize
  simp only [len_append, len_quoted, List.map_cons, List.map_nil, List.sum_cons, List.sum_nil]
    at hmembers ⊢
  linarith

/-- A JSON response takes its body and its header. -/
theorem len_writeResponse {response : String} (hjson : startsWith response "<!doctype html>" = false) :
    len (writeResponse "200 OK" response) = responseSize (len response) + len response := by
  have hheader : (["HTTP/1.1 ", "200 OK", "\r\nContent-Type: ", "application/json; charset=utf-8",
      "\r\nContent-Length: ", "\r\nCache-Control: no-store\r\nPragma: no-cache\r\n",
      "X-Content-Type-Options: nosniff\r\nContent-Security-Policy: default-src 'none'; ",
      "script-src 'unsafe-inline'; style-src 'unsafe-inline'\r\nConnection: close\r\n\r\n"].map
        len).sum = 279 := rfl
  unfold writeResponse responseSize
  rw [hjson, if_neg Bool.false_ne_true]
  simp only [len_append, List.map_cons, List.map_nil, List.sum_cons, List.sum_nil] at hheader ⊢
  linarith

/-- The tasks that a poll dispatches take their sizes. -/
theorem dispatchLoop_sizes {env : Env} {node_id : String} {k : ℕ} {tasks left dispatched : List Task}
    (h : dispatchLoop env node_id k tasks = (left, some dispatched)) :
    dispatched.map (fun task => len (taskJson task)) =
      (tasks.filter (claimable env node_id)).map (dispatchedSize env) := by
  induction tasks generalizing k left dispatched with
  | nil =>
    rw [dispatchLoop] at h
    cases h
    rw [List.filter_nil, List.map_nil, List.map_nil]
  | cons task rest ih =>
    rw [dispatchLoop] at h
    split_ifs at h with hclaim
    · split at h
      · cases h
      · next token htoken =>
        obtain ⟨-, hdispatched⟩ := Prod.mk.inj h
        obtain ⟨ds, hds, rfl⟩ := Option.map_eq_some_iff.mp hdispatched
        rw [List.filter_cons_of_pos hclaim, List.map_cons, List.map_cons,
          len_taskJson_leased task htoken, ih (Prod.ext rfl hds)]
    · obtain ⟨-, hdispatched⟩ := Prod.mk.inj h
      rw [List.filter_cons_of_neg hclaim, ih (Prod.ext rfl hdispatched)]

/-! ## A poll -/

/-- The path of a poll. -/
def tasksPath (node_id : String) : String := "/v1/agent/tasks?node_id=" ++ node_id

/-- The characters of the path of a poll. -/
theorem toList_tasksPath (node_id : String) :
    (tasksPath node_id).toList =
      "/v1/agent/tasks".toList ++ '?' :: ("node_id".toList ++ '=' :: node_id.toList) := by
  calc (tasksPath node_id).toList
    _ = "/v1/agent/tasks?node_id=".toList ++ node_id.toList := String.toList_append
    _ = "/v1/agent/tasks".toList ++ '?' :: ("node_id".toList ++ ['=']) ++ node_id.toList :=
      congrArg (· ++ node_id.toList) (by rfl)
    _ = "/v1/agent/tasks".toList ++ '?' :: ("node_id".toList ++ '=' :: node_id.toList) := by
      rw [List.append_assoc, List.cons_append, List.append_assoc, List.singleton_append]

/-- A poll names its node. -/
theorem queryField_tasksPath {node_id : String} (h : validNodeId node_id = true) :
    queryField (tasksPath node_id) "node_id" = some node_id := by
  have hand : '&' ∉ "node_id".toList ++ '=' :: node_id.toList := by
    intro hc
    simp only [validNodeId, Bool.and_eq_true, List.all_eq_true] at h
    rcases List.mem_append.mp hc with hc | hc
    · exact absurd hc (by decide)
    · rcases List.mem_cons.mp hc with hc | hc
      · exact absurd hc (by decide)
      · exact absurd (h.2 _ hc).2 (by decide)
  have hquestion : '?' ∉ "/v1/agent/tasks".toList := by decide
  have hequals : '=' ∉ "node_id".toList := by decide
  rw [queryField, toList_tasksPath, splitOnce_cons hquestion, Option.bind_some]
  dsimp only
  rw [List.splitOn_eq_singleton hand, List.findSome?_cons, splitOnce_cons hequals,
    Option.bind_some]
  show (if "node_id".toList = "node_id".toList then some (String.ofList node_id.toList) else none) = _
  rw [if_pos (Eq.refl "node_id".toList), String.ofList_toList]

/-- A poll that is authenticated is routed to `agent_tasks`. -/
theorem routedArm_tasksPath (node_id body : String) (admin : Bool) (actor : Option String) :
    routedArm "GET" (tasksPath node_id) body true admin actor = .agentTasks (tasksPath node_id) := by
  have hstarts : startsWith (tasksPath node_id) "/v1/agent/tasks" = true := by
    rw [startsWith, toList_tasksPath, List.isPrefixOf_iff_prefix]
    exact List.prefix_append _ _
  have hne (literal : String) (hliteral : startsWith literal "/v1/agent/tasks" = false) :
      (tasksPath node_id == literal) = false := beq_eq_false_of_startsWith hstarts hliteral
  have hother : startsWith (tasksPath node_id) "/v1/tasks/" = false :=
    startsWith_eq_false hstarts (by decide) (by decide)
  unfold routedArm
  simp [hne "/health" (by decide), hne "/" (by decide), hne "/v1/nodes" (by decide),
    hne "/v1/grants" (by decide), hne "/v1/approvals" (by decide), hne "/v1/tasks" (by decide),
    hstarts, hother]

/-- The body of a poll that dispatches tasks takes what they take. -/
theorem len_render_dispatched {st : State} {env : Env} {path node_id : String} {store : Store}
    {dispatched : List Task} (hquery : queryField path "node_id" = some node_id)
    (h : (agentTasks st env path store).1 = ⟨.ok, .tasks dispatched⟩) (hsome : dispatched ≠ []) :
    len (Reply.tasks dispatched).render = dispatchSize env node_id store.tasks := by
  have hloop := agentTasks_dispatched hquery (Prod.ext h rfl)
  have hitems : dispatched.map taskJson ≠ [] := by
    rwa [Ne, List.map_eq_nil_iff]
  have hsizes : (dispatched.map taskJson).map (fun item => len item + 1) =
      (store.tasks.filter (claimable env node_id)).map (fun task => dispatchedSize env task + 1) := by
    have hadded := congrArg (List.map (· + 1)) (dispatchLoop_sizes hloop)
    rw [List.map_map, List.map_map] at hadded
    rw [List.map_map]
    exact hadded
  show len (jsonArray (dispatched.map taskJson)) = _
  rw [len_jsonArray hitems, hsizes]
  rfl

/-! ## The channels -/

section Channels

variable [Serde] {st : State} {env : Env} {store : Store} {node : Node} {dispatched : List Task}

/-- A message that asks for tasks is answered with tasks. -/
theorem messageCall_tasks {message expected_node presented path : String} {call : MessageCall}
    (h : messageCall st env store message expected_node presented = .ok call)
    (harm : call.arm = .agentTasks path) : call.response_type = "tasks.available" := by
  unfold messageCall at h
  dsimp only at h
  split_ifs at h
  · rw [← Except.ok.inj h] at harm
    cases harm
  · rw [← Except.ok.inj h]
  · split at h
    · cases h
    · rw [← Except.ok.inj h] at harm
      cases harm

variable [Ed25519]

/-- The text of the response to a poll. -/
def polledText (st : State) (env : Env) (store : Store) (node_id presented : String) : String :=
  let response := (serve st env store "GET" (tasksPath node_id) "" presented).1
  writeResponse response.status.text response.reply.render

/-- The answer to a message that dispatches tasks. -/
theorem websocketMessage_dispatched {message presented : String} {call : MessageCall}
    (hcall : messageCall st env store message node.id presented = .ok call)
    (harm : call.arm = .agentTasks (tasksPath node.id))
    (hdispatched : (agentTasks st env (tasksPath node.id) store).1 = ⟨.ok, .tasks dispatched⟩) :
    (websocketMessage st env store message node.id presented).1 =
      websocketEnvelope node.id call.request_id "tasks.available"
        (Reply.tasks dispatched).render := by
  have hrun : (call.arm.run st env store).1 = ⟨.ok, .tasks dispatched⟩ := by
    rw [harm]
    exact hdispatched
  have hpayload : messagePayload ⟨.ok, .tasks dispatched⟩ = (Reply.tasks dispatched).render :=
    if_pos (show Status.isSuccess .ok = true by decide)
  unfold websocketMessage
  rw [hcall]
  dsimp only
  rw [hrun, hpayload, messageCall_tasks hcall harm]

/-- The response to a poll that dispatches tasks. -/
theorem polledText_dispatched {presented : String}
    (hvalid : credentialAuthorized store (tasksPath node.id) "" presented = true)
    (hdispatched : (agentTasks st env (tasksPath node.id) store).1 = ⟨.ok, .tasks dispatched⟩) :
    polledText st env store node.id presented =
      writeResponse "200 OK" (Reply.tasks dispatched).render := by
  have hauthorized :
      (authenticateRequest st env store (tasksPath node.id) "" presented).authorized = true := by
    unfold authenticateRequest
    split_ifs
    · rfl
    · rfl
  have hserve : (serve st env store "GET" (tasksPath node.id) "" presented).1 =
      ⟨.ok, .tasks dispatched⟩ := by
    unfold serve routeWithActor
    dsimp only
    rw [hauthorized, routedArm_tasksPath]
    exact hdispatched
  unfold polledText
  rw [hserve]
  rfl

/-- The answer to a message arrives exactly when it is within the limit of a frame. -/
theorem message_arrives_iff {message presented : String} {call : MessageCall}
    (hvalid : validNodeId node.id = true)
    (hcall : messageCall st env store message node.id presented = .ok call)
    (harm : call.arm = .agentTasks (tasksPath node.id))
    (hdispatched : (agentTasks st env (tasksPath node.id) store).1 = ⟨.ok, .tasks dispatched⟩)
    (hsome : dispatched ≠ []) :
    (∃ frame, websocketWriteFrame 1
        (bytes (websocketMessage st env store message node.id presented).1) = .ok frame ∧
      ∀ rest, NodeRuntime.websocketReadFrame (frame ++ rest) = .ok (some (1,
        bytes (websocketMessage st env store message node.id presented).1), rest)) ↔
      envelopeSize node.id call.request_id "tasks.available" +
        dispatchSize env node.id store.tasks ≤ 1024 * 1024 := by
  have hbody := len_render_dispatched (queryField_tasksPath hvalid) hdispatched hsome
  have hanswer := websocketMessage_dispatched hcall harm hdispatched
  have harrives := @frame_arrives_iff none nofun
    (bytes (websocketMessage st env store message node.id presented).1)
  rw [← len_eq_length, hanswer, len_websocketEnvelope, hbody] at harrives
  rw [hanswer]
  exact harrives

/-- The response to a poll arrives exactly when it is within the limit of a response. -/
theorem response_arrives_iff {presented : String} (hvalid : validNodeId node.id = true)
    (hauthorized : credentialAuthorized store (tasksPath node.id) "" presented = true)
    (hdispatched : (agentTasks st env (tasksPath node.id) store).1 = ⟨.ok, .tasks dispatched⟩)
    (hsome : dispatched ≠ []) {pieces : List (List UInt8)}
    (hpieces : PiecesOf 8192 (bytes (polledText st env store node.id presented)) pieces) :
    NodeRuntime.readResponse pieces = .ok (polledText st env store node.id presented) ↔
      responseSize (dispatchSize env node.id store.tasks) +
        dispatchSize env node.id store.tasks ≤ NodeRuntime.maxHttpResponseBytes := by
  have hbody := len_render_dispatched (queryField_tasksPath hvalid) hdispatched hsome
  have hjson : startsWith (Reply.tasks dispatched).render "<!doctype html>" = false := by
    show startsWith ("[" ++ ",".intercalate (dispatched.map taskJson) ++ "]") _ = false
    rw [startsWith, String.toList_append, String.toList_append]
    rfl
  have hread := NodeRuntime.readResponse_iff hpieces
  rw [polledText_dispatched hauthorized hdispatched] at hread ⊢
  rw [len_writeResponse hjson, hbody] at hread
  exact hread

/-- **Dispatched tasks arrive exactly when** they are within the limit of their channel. -/
theorem dispatch_delivered_iff (hreach : Reachable store) (hnode : node ∈ store.nodes)
    (hauthorized : credentialAuthorized store (tasksPath node.id) "" node.credential = true)
    (hdispatched : (agentTasks st env (tasksPath node.id) store).1 = ⟨.ok, .tasks dispatched⟩)
    (hsome : dispatched ≠ []) :
    (∀ message call, messageCall st env store message node.id node.credential = .ok call →
      call.arm = .agentTasks (tasksPath node.id) →
      ((∃ frame, websocketWriteFrame 1
          (bytes (websocketMessage st env store message node.id node.credential).1) = .ok frame ∧
        ∀ rest, NodeRuntime.websocketReadFrame (frame ++ rest) = .ok (some (1,
          bytes (websocketMessage st env store message node.id node.credential).1), rest)) ↔
        envelopeSize node.id call.request_id "tasks.available" +
          dispatchSize env node.id store.tasks ≤ 1024 * 1024)) ∧
    ∀ pieces, PiecesOf 8192 (bytes (polledText st env store node.id node.credential)) pieces →
      (NodeRuntime.readResponse pieces = .ok (polledText st env store node.id node.credential) ↔
        responseSize (dispatchSize env node.id store.tasks) +
          dispatchSize env node.id store.tasks ≤ NodeRuntime.maxHttpResponseBytes) := by
  have hvalid : validNodeId node.id = true := hreach.wellFormed.nodes node hnode
  constructor
  · intro message call hcall harm
    exact message_arrives_iff hvalid hcall harm hdispatched hsome
  · intro pieces hpieces
    exact response_arrives_iff hvalid hauthorized hdispatched hsome hpieces

end Channels

/-! ## A node with many tasks -/

section Example

/-- The bodies that enrol the node `n1` and queue a task for it, and a message that asks for its
tasks. -/
def crowdTexts : String × String × String :=
  ("\x7b\"node_id\":\"n1\"\x7d",
    "\x7b\"node_id\":\"n1\",\"request_id\":\"r\",\"ability\":\"system.inspect\"\x7d",
    "\x7b\"node_id\":\"n1\",\"request_id\":\"q\",\"type\":\"tasks.request\"\x7d")

/-- A parser that knows the three texts. -/
@[reducible] def crowdParser : Serde := tableParser
  [(crowdTexts.1, .object [("node_id", .string "n1")]),
    (crowdTexts.2.1, .object [("node_id", .string "n1"), ("request_id", .string "r"),
      ("ability", .string "system.inspect")]),
    (crowdTexts.2.2, .object [("node_id", .string "n1"), ("request_id", .string "q"),
      ("type", .string "tasks.request")])]

attribute [local instance] crowdParser noKeys

/-- Surroundings whose counter has come to a number. -/
def countedEnv (n : ℕ) : Env := { exampleEnv 0 with sequence := fun _ => n }

/-- The store after the node is enrolled and some tasks are queued for it. -/
def crowdedStore : ℕ → Store
  | 0 => ((Arm.createNode crowdTexts.1 none).run exampleState (exampleEnv 0) .empty).2
  | n + 1 =>
    ((Arm.createTask crowdTexts.2.1 none).run exampleState (countedEnv n) (crowdedStore n)).2

/-- Every request is a step. -/
theorem reachable_crowdedStore (n : ℕ) : Reachable (crowdedStore n) := by
  induction n with
  | zero =>
    have hempty : Reachable Store.empty := ⟨[], .start⟩
    exact hempty.step (.handled _ _ _ (.handled _ _ _ _))
  | succ n ih => exact ih.step (.handled _ _ _ (.handled _ _ _ _))

/-- What is read from the texts. -/
theorem crowdFields : jsonField crowdTexts.2.1 "request_id" = some "r" ∧
    jsonField "" "node_id" = none ∧ jsonField crowdTexts.2.2 "node_id" = some "n1" ∧
    jsonField crowdTexts.2.2 "request_id" = some "q" ∧
    jsonField crowdTexts.2.2 "type" = some "tasks.request" ∧
    ((parseTaskRequest exampleState (countedEnv 0) crowdTexts.2.1 none).toOption.map
      fun req => (req.node_id, req.ability, req.idempotency_key)) =
        some ("n1", "system.inspect", "") := by
  decide +kernel

/-- The first store has the node, which is fresh and able, and no task. -/
theorem crowdedStore_zero :
    (crowdedStore 0).nodes.any (fun node => node.id == "n1" &&
      nodeIsFresh exampleState (exampleEnv 0) node) = true ∧
    (crowdedStore 0).nodes.any (fun node => node.id == "n1" &&
      (node.abilities.toList.splitOn ',').any (· == "system.inspect".toList)) = true ∧
    ((crowdedStore 0).nodes.find? fun node => node.id == "n1").any (fun node =>
      exampleState.policy.allowed_data_classes ≠ [] &&
        !exampleState.policy.allowed_data_classes.contains node.data_class) = false ∧
    (crowdedStore 0).nodes.any (fun node => node.id == "n1" && !node.revoked &&
      nodeIsFresh exampleState (exampleEnv 0) node) = true ∧
    (crowdedStore 0).nodes.map (fun node => (node.id, node.revoked)) = [("n1", false)] ∧
    (crowdedStore 0).tasks.length = 0 := by
  decide +kernel

/-- What the body of a task asks for. -/
theorem parseTaskRequest_crowd (n : ℕ) : ∃ req,
    parseTaskRequest exampleState (countedEnv n) crowdTexts.2.1 none = .ok req ∧
      req.node_id = "n1" ∧ req.ability = "system.inspect" ∧ req.idempotency_key = "" := by
  obtain ⟨hname, -, -, -, -, hzero⟩ := crowdFields
  have hsame : parseTaskRequest exampleState (countedEnv n) crowdTexts.2.1 none =
      parseTaskRequest exampleState (countedEnv 0) crowdTexts.2.1 none := by
    unfold parseTaskRequest
    rw [hname]
    rfl
  rw [hsame]
  cases hparsed : parseTaskRequest exampleState (countedEnv 0) crowdTexts.2.1 none with
  | error response =>
    rw [hparsed] at hzero
    cases hzero
  | ok req =>
    rw [hparsed] at hzero
    have hreq := Option.some.inj hzero
    rw [Prod.mk.injEq, Prod.mk.injEq] at hreq
    exact ⟨req, rfl, hreq⟩

/-- A request for a task of the node is accepted. -/
theorem acceptTask_crowd {env : Env} (hnow : env.now = (exampleEnv 0).now)
    (hpersist : env.persist = fun _ => true) {store : Store}
    (hnodes : store.nodes = (crowdedStore 0).nodes) {req : TaskRequest} (hid : req.node_id = "n1")
    (hability : req.ability = "system.inspect") :
    (acceptTask exampleState env store req).2.nodes = store.nodes ∧
      (acceptTask exampleState env store req).2.tasks =
        store.tasks ++ [queuedTask exampleState env req] := by
  obtain ⟨hfresh, hable, hclasses, -⟩ := crowdedStore_zero
  have hallowed : refusedByPolicy exampleState env store req = none := by
    have hclock (node : Node) :
        nodeIsFresh exampleState env node = nodeIsFresh exampleState (exampleEnv 0) node := by
      rw [nodeIsFresh, nodeIsFresh, hnow]
    unfold refusedByPolicy
    simp only [hclock, hnodes, hid, hability, hfresh, hable, hclasses]
    rfl
  have hgate : approvalGate exampleState env store req = .ok (store, 0) := by
    unfold approvalGate
    rw [hability]
    rfl
  unfold acceptTask
  rw [hallowed]
  dsimp only
  rw [hgate]
  dsimp only
  rw [persistOrRollback, hpersist]
  exact ⟨rfl, rfl⟩

/-- The node keeps its tasks, and they are queued. -/
theorem crowdedStore_tasks (n : ℕ) :
    (crowdedStore n).nodes = (crowdedStore 0).nodes ∧ (crowdedStore n).tasks.length = n ∧
      ∀ task ∈ (crowdedStore n).tasks, task.node_id = "n1" ∧ task.state = "queued" := by
  induction n with
  | zero =>
    have hnone : (crowdedStore 0).tasks.length = 0 := crowdedStore_zero.2.2.2.2.2
    refine ⟨rfl, hnone, fun task htask => ?_⟩
    rw [List.eq_nil_of_length_eq_zero hnone] at htask
    cases htask
  | succ n ih =>
    obtain ⟨hnodes, hlength, hqueued⟩ := ih
    obtain ⟨req, hparsed, hid, hability, hkey⟩ := parseTaskRequest_crowd n
    have hstep : crowdedStore (n + 1) =
        (acceptTask exampleState (countedEnv n) (crowdedStore n) req).2 := by
      show (createTaskAs exampleState (countedEnv n) crowdTexts.2.1 none (crowdedStore n)).2 = _
      unfold createTaskAs
      rw [hparsed]
      dsimp only
      rw [if_neg (not_not.mpr hkey)]
    obtain ⟨hkept, htasks⟩ := acceptTask_crowd (show (countedEnv n).now = _ from rfl) rfl hnodes hid
      hability
    rw [hstep, hkept, htasks]
    refine ⟨hnodes, ?_, ?_⟩
    · rw [List.length_append, hlength]
      rfl
    · rw [List.forall_mem_append, List.forall_mem_singleton]
      exact ⟨hqueued, hid, rfl⟩

/-- A poll dispatches all of them. -/
theorem crowdedStore_dispatched (n : ℕ) (hn : 0 < n) : ∃ dispatched ≠ [],
    (agentTasks exampleState (exampleEnv 0) (tasksPath "n1") (crowdedStore n)).1 =
      ⟨.ok, .tasks dispatched⟩ ∧
    311 * n ≤ dispatchSize (exampleEnv 0) "n1" (crowdedStore n).tasks := by
  obtain ⟨hnodes, hlength, hqueued⟩ := crowdedStore_tasks n
  have hclaim : ∀ task ∈ (crowdedStore n).tasks, claimable (exampleEnv 0) "n1" task = true := by
    intro task htask
    obtain ⟨hid, hstate⟩ := hqueued task htask
    unfold claimable
    rw [hid, hstate]
    rfl
  have hpolls : Polls exampleState (exampleEnv 0) (tasksPath "n1") (crowdedStore n) "n1" := by
    refine ⟨queryField_tasksPath (by decide), ?_⟩
    rw [hnodes]
    exact crowdedStore_zero.2.2.2.1
  obtain ⟨dispatched, hloop, hcount⟩ := dispatchLoop_some (exampleEnv 0) "n1" 0
    (crowdedStore n).tasks fun _ => rfl
  rw [List.countP_eq_length.mpr hclaim, hlength] at hcount
  have hsome : dispatched ≠ [] := List.ne_nil_of_length_pos (by omega)
  refine ⟨dispatched, hsome, ?_, ?_⟩
  · rw [hpolls.run (Prod.ext rfl hloop) hsome]
    rfl
  · have hsizes : ∀ size ∈ (crowdedStore n).tasks.map
        (fun task => dispatchedSize (exampleEnv 0) task + 1), 311 ≤ size := by
      intro size hsize
      obtain ⟨task, -, rfl⟩ := List.mem_map.mp hsize
      unfold dispatchedSize
      omega
    have hsum := List.card_nsmul_le_sum _ 311 hsizes
    rw [List.length_map, hlength, smul_eq_mul] at hsum
    unfold dispatchSize
    rw [List.filter_eq_self.mpr hclaim]
    omega

/-- The node of the store presents its credential on both channels. -/
theorem crowdedStore_node (n : ℕ) : ∃ node ∈ (crowdedStore n).nodes, node.id = "n1" ∧
    credentialAuthorized (crowdedStore n) (tasksPath node.id) "" node.credential = true ∧
    messageCall exampleState (exampleEnv 0) (crowdedStore n) crowdTexts.2.2 node.id
      node.credential = .ok ⟨"q", .agentTasks (tasksPath node.id), "tasks.available"⟩ := by
  obtain ⟨-, hnone, hnamed, hrequest, htype, -⟩ := crowdFields
  have hnodes : (crowdedStore 0).nodes.map (fun node => (node.id, node.revoked)) =
      [("n1", false)] := crowdedStore_zero.2.2.2.2.1
  rw [← (crowdedStore_tasks n).1] at hnodes
  obtain ⟨node, hnode, hids⟩ := List.map_eq_singleton_iff.mp hnodes
  obtain ⟨hid, hlive⟩ := Prod.mk.inj hids
  have hmem : node ∈ (crowdedStore n).nodes := by
    rw [hnode]
    exact List.mem_singleton_self node
  refine ⟨node, hmem, hid, ?_, ?_⟩
  · refine credentialAuthorized_iff.mpr ⟨node, hmem, ?_, rfl, hlive⟩
    rw [namedNode, hnone, Option.none_or, hid]
    exact queryField_tasksPath (by decide)
  · have hauthorized : credentialAuthorized (crowdedStore n) crowdTexts.2.2 crowdTexts.2.2
        node.credential = true := by
      refine credentialAuthorized_iff.mpr ⟨node, hmem, ?_, rfl, hlive⟩
      rw [namedNode, hnamed, Option.some_or, hid]
    unfold messageCall
    rw [hnamed, hrequest, htype, hauthorized, hid]
    rfl

/-- A task for the node: the response arrives if it is within the limit. -/
theorem dispatch_delivered_one : ∃ node ∈ (crowdedStore 1).nodes, ∀ pieces,
    PiecesOf 8192 (bytes (polledText exampleState (exampleEnv 0) (crowdedStore 1) node.id
      node.credential)) pieces →
    (NodeRuntime.readResponse pieces = .ok (polledText exampleState (exampleEnv 0)
        (crowdedStore 1) node.id node.credential) ↔
      responseSize (dispatchSize (exampleEnv 0) node.id (crowdedStore 1).tasks) +
        dispatchSize (exampleEnv 0) node.id (crowdedStore 1).tasks ≤
          NodeRuntime.maxHttpResponseBytes) := by
  obtain ⟨node, hnode, hid, hauthorized, -⟩ := crowdedStore_node 1
  obtain ⟨dispatched, hsome, hdispatched, -⟩ := crowdedStore_dispatched 1 (by omega)
  rw [← hid] at hdispatched
  exact ⟨node, hnode, (dispatch_delivered_iff (reachable_crowdedStore 1) hnode hauthorized
    hdispatched hsome).2⟩

/-- 27,000 tasks of 311 bytes and more are dispatched and reach the node on neither channel. -/
theorem dispatch_undelivered :
    Reachable (crowdedStore 27000) ∧ ∃ node ∈ (crowdedStore 27000).nodes,
      (∃ dispatched ≠ [], (agentTasks exampleState (exampleEnv 0) (tasksPath node.id)
        (crowdedStore 27000)).1 = ⟨.ok, .tasks dispatched⟩) ∧
      (∃ call, messageCall exampleState (exampleEnv 0) (crowdedStore 27000) crowdTexts.2.2 node.id
        node.credential = .ok call ∧ call.arm = .agentTasks (tasksPath node.id)) ∧
      (∀ frame, websocketWriteFrame 1 (bytes (websocketMessage exampleState (exampleEnv 0)
        (crowdedStore 27000) crowdTexts.2.2 node.id node.credential).1) ≠ .ok frame) ∧
      ∀ pieces, PiecesOf 8192 (bytes (polledText exampleState (exampleEnv 0) (crowdedStore 27000)
          node.id node.credential)) pieces →
        NodeRuntime.readResponse pieces ≠ .ok (polledText exampleState (exampleEnv 0)
          (crowdedStore 27000) node.id node.credential) := by
  obtain ⟨node, hnode, hid, hauthorized, hcall⟩ := crowdedStore_node 27000
  obtain ⟨dispatched, hsome, hdispatched, hsize⟩ := crowdedStore_dispatched 27000 (by omega)
  rw [← hid] at hdispatched hsize
  have hvalid : validNodeId node.id = true := by
    rw [hid]
    decide
  refine ⟨reachable_crowdedStore _, node, hnode, ⟨dispatched, hsome, hdispatched⟩,
    ⟨_, hcall, rfl⟩, fun frame hframe => ?_, fun pieces hpieces hread => ?_⟩
  · have harrives := message_arrives_iff hvalid hcall rfl hdispatched hsome
    have hlarge := harrives.mp ⟨frame, hframe,
      @readFrame_writeFrame none nofun _ (by decide) _ _ hframe⟩
    omega
  · have hlarge := (response_arrives_iff hvalid hauthorized hdispatched hsome hpieces).mp hread
    unfold NodeRuntime.maxHttpResponseBytes at hlarge
    omega

end Example

end NodeWe.ControlPlane
