import NodeWe.ControlPlane.Effect

/-!
# Histories of tasks and nodes

What one request can make of one record. A task or a node keeps its index in the store and goes
through the steps `TaskStep` and `NodeStep`; a record that was not there before was just created.
-/

namespace NodeWe.ControlPlane

open Text InPlace

/-! ## Dispatch -/

section Dispatch

variable {env : Env} {node_id : String} {tasks left dispatched : List Task} {k : ℕ}

/-- A task after a poll: untouched, or dispatched under a drawn token. -/
inductive Dispatches (env : Env) (node_id : String) (task : Task) : Task → Prop
  | same : Dispatches env node_id task task
  | leased (k : ℕ) (token : String) (hclaim : claimable env node_id task = true)
      (htoken : randomToken env k = some token) :
      Dispatches env node_id task (leased env token task)

/-- What the loop of `agent_tasks` does to each task. -/
theorem dispatchLoop_evolves (env : Env) (node_id : String) (k : ℕ) (tasks : List Task) :
    Evolves (Dispatches env node_id) tasks (dispatchLoop env node_id k tasks).1 := by
  induction tasks generalizing k with
  | nil => exact Evolves.refl (fun _ => .same) []
  | cons task rest ih =>
    intro i x hx
    rw [dispatchLoop]
    split_ifs with hclaim
    · split
      · exact ⟨x, hx, .same⟩
      · next token htoken =>
        cases i with
        | zero =>
          rw [List.getElem?_cons_zero, Option.some.injEq] at hx
          exact ⟨leased env token task, rfl, hx ▸ .leased k token hclaim htoken⟩
        | succ i => exact ih (k + 1) i x hx
    · cases i with
      | zero =>
        rw [List.getElem?_cons_zero, Option.some.injEq] at hx
        exact ⟨task, rfl, hx ▸ .same⟩
      | succ i => exact ih k i x hx

/-- The loop of `agent_tasks` neither adds nor drops a task. -/
theorem dispatchLoop_length (env : Env) (node_id : String) (k : ℕ) (tasks : List Task) :
    (dispatchLoop env node_id k tasks).1.length = tasks.length := by
  induction tasks generalizing k with
  | nil => rfl
  | cons task rest ih =>
    rw [dispatchLoop]
    split_ifs
    · split
      · rfl
      · exact congrArg (· + 1) (ih (k + 1))
    · exact congrArg (· + 1) (ih k)

/-- When the random source answers, the reply has the claimable tasks as they are now, in order. -/
theorem dispatchLoop_dispatched
    (h : dispatchLoop env node_id k tasks = (left, some dispatched)) :
    ∀ task ∈ dispatched, ∃ (i : ℕ) (before : Task) (token : String),
      tasks[i]? = some before ∧ left[i]? = some task ∧ claimable env node_id before = true ∧
      randomToken env (k + (tasks.take i).countP (claimable env node_id)) = some token ∧
      task = leased env token before := by
  induction tasks generalizing k left dispatched with
  | nil =>
    rw [dispatchLoop] at h
    cases h
    exact fun _ h => absurd h List.not_mem_nil
  | cons task rest ih =>
    intro t ht
    rw [dispatchLoop] at h
    split_ifs at h with hclaim
    · split at h
      · cases h
      · next token htoken =>
        obtain ⟨hleft, hdispatched⟩ := Prod.mk.inj h
        obtain ⟨ds, hds, hcons⟩ := Option.map_eq_some_iff.mp hdispatched
        subst hcons hleft
        rcases List.mem_cons.mp ht with rfl | ht
        · exact ⟨0, task, token, rfl, rfl, hclaim, htoken, rfl⟩
        · obtain ⟨i, before, token, hi, hl, hc, hr, rfl⟩ := ih (Prod.ext rfl hds) t ht
          refine ⟨i + 1, before, token, hi, hl, hc, ?_, rfl⟩
          rwa [List.take_succ_cons, List.countP_cons_of_pos hclaim, Nat.add_comm _ 1,
            ← Nat.add_assoc]
    · obtain ⟨hleft, hdispatched⟩ := Prod.mk.inj h
      subst hleft
      obtain ⟨i, before, token, hi, hl, hc, hr, rfl⟩ := ih (Prod.ext rfl hdispatched) t ht
      refine ⟨i + 1, before, token, hi, hl, hc, ?_, rfl⟩
      rwa [List.take_succ_cons, List.countP_cons_of_neg hclaim]

/-- The reply is a part of the tasks that the loop leaves, in the same order. -/
theorem dispatchLoop_sublist (h : dispatchLoop env node_id k tasks = (left, some dispatched)) :
    dispatched.Sublist left := by
  induction tasks generalizing k left dispatched with
  | nil =>
    rw [dispatchLoop] at h
    cases h
    exact .slnil
  | cons task rest ih =>
    rw [dispatchLoop] at h
    split_ifs at h
    · split at h
      · cases h
      · obtain ⟨hleft, hdispatched⟩ := Prod.mk.inj h
        obtain ⟨later, hlater, rfl⟩ := Option.map_eq_some_iff.mp hdispatched
        rw [← hleft]
        exact (ih (Prod.ext rfl hlater)).cons_cons _
    · obtain ⟨hleft, hdispatched⟩ := Prod.mk.inj h
      rw [← hleft]
      exact (ih (Prod.ext rfl hdispatched)).cons _

/-- A poll that answers with tasks has dispatched them. -/
theorem agentTasks_dispatched {st : State} {path : String} {store new : Store}
    (hquery : queryField path "node_id" = some node_id)
    (h : agentTasks st env path store = (⟨.ok, .tasks dispatched⟩, new)) :
    dispatchLoop env node_id 0 store.tasks = (new.tasks, some dispatched) := by
  unfold agentTasks at h
  rw [hquery] at h
  dsimp only at h
  split_ifs at h
  · cases h
  · split at h
    · cases h
    · next hloop =>
      cases h
      exact hloop
    · next hloop =>
      unfold persistOrRollback at h
      split_ifs at h
      · cases h
        exact hloop
      · cases h

/-- What the loop of `agent_tasks` does to the task at an index: the token is the one that it draws
after those of the claimable tasks before it. -/
theorem dispatchLoop_getElem? (env : Env) (node_id : String) (k : ℕ) {i : ℕ} {task : Task}
    (h : tasks[i]? = some task) :
    (dispatchLoop env node_id k tasks).1[i]? = some task ∨
      claimable env node_id task = true ∧ ∃ token,
        randomToken env (k + (tasks.take i).countP (claimable env node_id)) = some token ∧
        (dispatchLoop env node_id k tasks).1[i]? = some (leased env token task) := by
  induction tasks generalizing i k with
  | nil => cases h
  | cons first rest ih =>
    rw [dispatchLoop]
    split_ifs with hclaim
    · split
      · exact .inl h
      · next token htoken =>
        cases i with
        | zero =>
          rw [List.getElem?_cons_zero, Option.some.injEq] at h
          subst h
          exact .inr ⟨hclaim, token, htoken, rfl⟩
        | succ i =>
          rcases ih (k + 1) h with hsame | ⟨hclaim', token', htoken', hleased⟩
          · exact .inl hsame
          · refine .inr ⟨hclaim', token', ?_, hleased⟩
            rwa [List.take_succ_cons, List.countP_cons_of_pos hclaim, Nat.add_comm _ 1,
              ← Nat.add_assoc]
    · cases i with
      | zero => exact .inl h
      | succ i =>
        rcases ih k h with hsame | ⟨hclaim', token', htoken', hleased⟩
        · exact .inl hsame
        · refine .inr ⟨hclaim', token', ?_, hleased⟩
          rwa [List.take_succ_cons, List.countP_cons_of_neg hclaim]

/-- A poll fails for want of a token only at a task that it would have dispatched. -/
theorem dispatchLoop_none (h : (dispatchLoop env node_id k tasks).2 = none) :
    ∃ task ∈ tasks, claimable env node_id task = true := by
  induction tasks generalizing k with
  | nil => cases h
  | cons task rest ih =>
    by_cases hclaim : claimable env node_id task = true
    · exact ⟨task, List.mem_cons_self, hclaim⟩
    · rw [dispatchLoop, if_neg hclaim] at h
      obtain ⟨t, ht, hclaim'⟩ := ih h
      exact ⟨t, List.mem_cons_of_mem _ ht, hclaim'⟩

/-- A poll whose random source answers dispatches every claimable task. -/
theorem dispatchLoop_some (env : Env) (node_id : String) (k : ℕ) (tasks : List Task)
    (hrandom : ∀ k, (randomToken env k).isSome = true) :
    ∃ ds, (dispatchLoop env node_id k tasks).2 = some ds ∧
      ds.length = tasks.countP (claimable env node_id) := by
  induction tasks generalizing k with
  | nil => exact ⟨[], rfl, rfl⟩
  | cons task rest ih =>
    rw [dispatchLoop]
    by_cases hclaim : claimable env node_id task = true
    · obtain ⟨token, htoken⟩ := Option.isSome_iff_exists.mp (hrandom k)
      obtain ⟨ds, hds, hlength⟩ := ih (k + 1)
      rw [if_pos hclaim, htoken, List.countP_cons_of_pos hclaim]
      exact ⟨leased env token task :: ds, congrArg (Option.map _) hds, congrArg (· + 1) hlength⟩
    · rw [if_neg hclaim, List.countP_cons_of_neg hclaim]
      exact ih k

end Dispatch

/-! ## The other lookups -/

/-- A heartbeat that passes its guards names a node and finds it, and it is not revoked. -/
structure Beats [Serde] (body : String) (store : Store) (node : Node) : Prop where
  named : (jsonField body "node_id").getD "" ≠ ""
  found : store.nodes.find? (fun node => node.id == (jsonField body "node_id").getD "") = some node
  live : node.revoked = false

/-- The guards of a heartbeat. -/
theorem heartbeatTarget_ok [Serde] {body : String} {store : Store} {node : Node}
    (h : heartbeatTarget body store = .ok node) : Beats body store node := by
  unfold heartbeatTarget at h
  dsimp only at h
  split at h
  · cases h
  · split_ifs at h with htypes hnamed hprotocol himmutable
    · split at h
      · cases h
      · split_ifs at h
    · split at h
      · cases h
      · next node' hfound =>
        split_ifs at h with hrevoked
        rw [← Except.ok.inj h]
        exact ⟨hnamed, hfound, Bool.eq_false_iff.mpr hrevoked⟩

/-- The node that a heartbeat finds has the identifier that it names. -/
theorem Beats.id [Serde] {body : String} {store : Store} {node : Node}
    (h : Beats body store node) : node.id = (jsonField body "node_id").getD "" := by
  simpa using List.find?_some h.found

/-- An upload names the node in its body. -/
theorem parseResultUpload_node [Serde] {path body : String} {upload : ResultUpload}
    (h : parseResultUpload path body = .ok upload) :
    upload.node_id = (jsonField body "node_id").getD "" := by
  unfold parseResultUpload at h
  dsimp only at h
  split_ifs at h
  rw [← Except.ok.inj h]

/-- A task that a poll takes is a task of the node that polls. -/
theorem claimable_node {env : Env} {node_id : String} {task : Task}
    (h : claimable env node_id task = true) : task.node_id = node_id := by
  unfold claimable at h
  exact eq_of_beq (Bool.and_eq_true_iff.mp h).1

/-- A task that an upload names is a task of the node that it names. -/
theorem uploadTarget_node {upload : ResultUpload} {task : Task}
    (h : uploadTarget upload task = true) : task.node_id = upload.node_id := by
  unfold uploadTarget at h
  exact eq_of_beq (Bool.and_eq_true_iff.mp h).2

/-- A task that takes a result: it is dispatched, its lease is not over, the upload carries its
token, and the state that it reports is terminal. -/
structure TakesResult (env : Env) (task : Task) (upload : ResultUpload) : Prop where
  dispatched : task.state = "dispatched"
  current : env.now .result ≤ task.lease_until
  leased : task.lease_token ≠ ""
  token : task.lease_token = upload.lease_token
  terminal : upload.state ∈ terminalStates

/-- What a task that does not refuse an upload is like. -/
theorem refusedResult_none {env : Env} {task : Task} {upload : ResultUpload}
    (h : refusedResult env task upload = none) : TakesResult env task upload := by
  unfold refusedResult at h
  split_ifs at h with hrequest hstate htoken hterminal
  simp only [Bool.or_eq_true, decide_eq_true_eq, not_or, not_not, not_lt] at hstate
  simp only [Bool.or_eq_true, decide_eq_true_eq, not_or, Bool.not_eq_true', Bool.not_eq_false,
    constantTimeEq_iff] at htoken
  simp only [Bool.not_eq_true', Bool.not_eq_false, List.contains_iff_mem] at hterminal
  exact ⟨hstate.1, hstate.2, htoken.1, htoken.2, hterminal⟩

/-- A poll that finds a task dispatches it, in working surroundings. -/
theorem Polls.run_working {st : State} {env : Env} {path node_id : String} {store : Store}
    {task : Task} (h : Polls st env path store node_id) (htask : task ∈ store.tasks)
    (hclaim : claimable env node_id task = true) :
    ∃ dispatched : List Task, dispatched ≠ [] ∧ (∀ t ∈ dispatched, t.node_id = node_id) ∧
      agentTasks st env.working path store = (⟨.ok, .tasks dispatched⟩,
        { store with
          tasks := (dispatchLoop env.working node_id 0 store.tasks).1
          audit := store.audit ++ [Activity.withActor st env.working 0 "task.dispatched"
            (some node_id) none (some node_id)] }) := by
  obtain ⟨ds, hds, hlength⟩ := dispatchLoop_some env.working node_id 0 store.tasks
    (fun _ => rfl)
  have hsome : ds ≠ [] := by
    refine List.ne_nil_of_length_pos ?_
    rw [hlength]
    exact List.countP_pos_iff.mpr ⟨task, htask, hclaim⟩
  have hpolls : Polls st env.working path store node_id := ⟨h.query, h.fresh⟩
  refine ⟨ds, hsome, fun t ht => ?_, hpolls.run (Prod.ext rfl hds) hsome⟩
  obtain ⟨-, before, token, -, -, hclaim', -, hleased⟩ :=
    dispatchLoop_dispatched (Prod.ext rfl hds) t ht
  have hbefore : before.node_id = node_id := claimable_node hclaim'
  rw [hleased]
  exact hbefore

/-- The approval gate touches the approvals and appends to the audit list. -/
structure ApprovalFrame (store approved : Store) : Prop where
  nodes : approved.nodes = store.nodes
  tasks : approved.tasks = store.tasks
  grants : approved.grants = store.grants
  audit : store.audit <+: approved.audit

/-- The approval gate leaves the rest of the store as it is. -/
theorem approvalGate_frame {st : State} {env : Env} {store approved : Store} {req : TaskRequest}
    {k : ℕ} (h : approvalGate st env store req = .ok (approved, k)) :
    ApprovalFrame store approved := by
  unfold approvalGate at h
  repeat' split at h
  all_goals cases h
  · exact ⟨rfl, rfl, rfl, List.prefix_append _ _⟩
  · exact ⟨rfl, rfl, rfl, List.prefix_rfl⟩
  · exact ⟨rfl, rfl, rfl, List.prefix_rfl⟩

/-! ## Tasks -/

variable [Serde]

/-- What one request can make of one task. -/
inductive TaskStep (env : Env) : Arm → Task → Task → Prop
  | same (arm : Arm) (task : Task) : TaskStep env arm task task
  | cancelled (path : String) (actor : Option String) (task : Task)
      (htarget : task.id = cancelledTaskId path) (hallowed : ∀ a ∈ actor, task.actor = a)
      (hlive : task.state ∉ terminalStates) :
      TaskStep env (.cancelTask path actor) task (cancelledTask task)
  | revoked (id : String) (actor : Option String) (task : Task) (hlive : liveOn id task = true) :
      TaskStep env (.revokeNode id actor) task (cancelledTask task)
  | leased (path node_id : String) (k : ℕ) (token : String) (task : Task)
      (hquery : queryField path "node_id" = some node_id)
      (hclaim : claimable env node_id task = true) (htoken : randomToken env k = some token) :
      TaskStep env (.agentTasks path) task (leased env token task)
  | completed (path body : String) (upload : ResultUpload) (task : Task)
      (hparsed : parseResultUpload path body = .ok upload)
      (htarget : uploadTarget upload task = true)
      (haccepted : refusedResult env task upload = none) :
      TaskStep env (.agentResult path body) task (completed task upload)

/-- What one request can make of one node. -/
inductive NodeStep (env : Env) : Arm → Node → Node → Prop
  | same (arm : Arm) (node : Node) : NodeStep env arm node node
  | revoked (id : String) (actor : Option String) (node : Node) (hid : node.id = id) :
      NodeStep env (.revokeNode id actor) node { node with revoked := true, online := false }
  | rotated (id : String) (actor : Option String) (node : Node) (credential : String)
      (hid : node.id = id) (hlive : node.revoked = false)
      (hdrawn : randomToken env 0 = some credential) :
      NodeStep env (.rotateNode id actor) node { node with credential := credential }
  | beaten (body : String) (abilities : Option String) (node : Node)
      (hid : node.id = (jsonField body "node_id").getD "") (hlive : node.revoked = false)
      (habilities : (jsonField body "abilities").map normalizeAbilities = abilities.map some) :
      NodeStep env (.heartbeat body) node (beaten env body abilities node)
  | marked (body : String) (node : Node)
      (hid : node.id = (jsonField body "node_id").getD "") (hlive : node.revoked = false) :
      NodeStep env (.heartbeat body) node (markedOnline env node)

/-- What a poll does to a task is a step of it. -/
theorem Dispatches.taskStep {env : Env} {path node_id : String} {task task' : Task}
    (h : Dispatches env node_id task task') (hquery : queryField path "node_id" = some node_id) :
    TaskStep env (.agentTasks path) task task' := by
  cases h with
  | same => exact .same _ task
  | leased k token hclaim htoken => exact .leased path node_id k token task hquery hclaim htoken

section Steps

variable [Ed25519] {st : State} {env : Env} {store new : Store} {arm : Arm} {response : Response}

/-- Every task stays at its index and takes a step. -/
theorem Effect.tasks_evolve (h : Effect st env store arm response new) :
    Evolves (TaskStep env arm) store.tasks new.tasks := by
  cases h with
  | nodeRevoked id actor node hfound =>
    refine Evolves.map (fun task => ?_) store.tasks
    split_ifs with hlive
    · exact .revoked id actor task hlive
    · exact .same _ task
  | taskCreated body actor req approved k h happroved =>
    rw [(approvalGate_frame happroved).tasks]
    exact Evolves.append (.same _) store.tasks _
  | taskCancelled path actor task h =>
    have htarget : task.id = cancelledTaskId path := by simpa using List.find?_some h.found
    exact Evolves.setFirst (.same _) h.found (.cancelled path actor task htarget h.allowed h.live)
  | tasksDispatched path node_id tasks dispatched h hloop hsome =>
    have hevolves := dispatchLoop_evolves env node_id 0 store.tasks
    rw [hloop] at hevolves
    exact hevolves.mono fun _ _ hstep => hstep.taskStep h.query
  | dispatchAborted path node_id tasks h hloop =>
    have hevolves := dispatchLoop_evolves env node_id 0 store.tasks
    rw [hloop] at hevolves
    exact hevolves.mono fun _ _ hstep => hstep.taskStep h.query
  | resultAccepted path body upload task h =>
    exact Evolves.setFirst (.same _) h.found
      (.completed path body upload task h.parsed (List.find?_some h.found) h.accepted)
  | _ => exact Evolves.refl (.same _) store.tasks

/-- No task is dropped, and one that was not there was just created. -/
theorem Effect.tasks_length (h : Effect st env store arm response new) :
    new.tasks.length = store.tasks.length ∨
      ∃ body actor req, arm = .createTask body actor ∧ Accepts st env body actor store req ∧
        new.tasks = store.tasks ++ [queuedTask st env req] := by
  cases h with
  | nodeRevoked id actor node hfound => exact .inl (List.length_map _)
  | taskCreated body actor req approved k h happroved =>
    exact .inr ⟨body, actor, req, rfl, h, by rw [(approvalGate_frame happroved).tasks]⟩
  | taskCancelled path actor task h => exact .inl List.length_set
  | tasksDispatched path node_id tasks dispatched h hloop hsome =>
    have hlength := dispatchLoop_length env node_id 0 store.tasks
    rw [hloop] at hlength
    exact .inl hlength
  | dispatchAborted path node_id tasks h hloop =>
    have hlength := dispatchLoop_length env node_id 0 store.tasks
    rw [hloop] at hlength
    exact .inl hlength
  | resultAccepted path body upload task h => exact .inl List.length_set
  | _ => exact .inl rfl

/-- A task after a request was there before, or was just created. -/
theorem Effect.mem_tasks (h : Effect st env store arm response new) {task' : Task}
    (htask' : task' ∈ new.tasks) :
    (∃ task ∈ store.tasks, TaskStep env arm task task') ∨
      ∃ body actor req, arm = .createTask body actor ∧ Accepts st env body actor store req ∧
        task' = queuedTask st env req := by
  rcases h.tasks_evolve.of_mem htask' with hold | hnew
  · exact .inl hold
  · rcases h.tasks_length with hlength | ⟨body, actor, req, harm, haccepts, htasks⟩
    · rw [← hlength, List.drop_length] at hnew
      exact absurd hnew List.not_mem_nil
    · rw [htasks, List.drop_left] at hnew
      exact .inr ⟨body, actor, req, harm, haccepts, List.mem_singleton.mp hnew⟩

/-- Every node stays at its index and takes a step. -/
theorem Effect.nodes_evolve (h : Effect st env store arm response new) :
    Evolves (NodeStep env arm) store.nodes new.nodes := by
  cases h with
  | nodeCreated body actor node h => exact Evolves.append (.same _) store.nodes _
  | nodeRevoked id actor node hfound =>
    have hid : node.id = id := by simpa using List.find?_some hfound
    exact Evolves.setFirst (.same _) hfound (.revoked id actor node hid)
  | nodeRotated id actor node credential hdrawn hfound hlive =>
    have hid : node.id = id := by simpa using List.find?_some hfound
    exact Evolves.setFirst (.same _) hfound (.rotated id actor node credential hid hlive hdrawn)
  | nodeBeaten body node abilities htarget habilities =>
    have h := heartbeatTarget_ok htarget
    exact Evolves.setFirst (.same _) h.found (.beaten body abilities node h.id h.live habilities)
  | heartbeatAborted body node htarget habilities =>
    have h := heartbeatTarget_ok htarget
    exact Evolves.setFirst (.same _) h.found (.marked body node h.id h.live)
  | grantRedeemed body grant node h hfound => exact Evolves.append (.same _) store.nodes _
  | taskCreated body actor req approved k h happroved =>
    rw [(approvalGate_frame happroved).nodes]
    exact Evolves.refl (.same _) store.nodes
  | _ => exact Evolves.refl (.same _) store.nodes

/-- No node is dropped, and one that was not there was just enrolled. -/
theorem Effect.nodes_length (h : Effect st env store arm response new) :
    new.nodes.length = store.nodes.length ∨
      ∃ body node, ((∃ actor, arm = .createNode body actor) ∨ arm = .redeemGrant body) ∧
        Enrols env body store node ∧ new.nodes = store.nodes ++ [node] := by
  cases h with
  | nodeCreated body actor node h => exact .inr ⟨body, node, .inl ⟨actor, rfl⟩, h, rfl⟩
  | grantRedeemed body grant node h hfound => exact .inr ⟨body, node, .inr rfl, h, rfl⟩
  | taskCreated body actor req approved k h happroved =>
    exact .inl (congrArg List.length (approvalGate_frame happroved).nodes)
  | nodeRevoked id actor node hfound => exact .inl List.length_set
  | nodeRotated id actor node credential hdrawn hfound hlive => exact .inl List.length_set
  | nodeBeaten body node abilities htarget habilities => exact .inl List.length_set
  | heartbeatAborted body node htarget habilities => exact .inl List.length_set
  | _ => exact .inl rfl

/-- A node after a request was there before, or was just enrolled. -/
theorem Effect.mem_nodes (h : Effect st env store arm response new) {node' : Node}
    (hnode' : node' ∈ new.nodes) :
    (∃ node ∈ store.nodes, NodeStep env arm node node') ∨
      ∃ body, ((∃ actor, arm = .createNode body actor) ∨ arm = .redeemGrant body) ∧
        Enrols env body store node' := by
  rcases h.nodes_evolve.of_mem hnode' with hold | hnew
  · exact .inl hold
  · rcases h.nodes_length with hlength | ⟨body, node, harm, henrols, hnodes⟩
    · rw [← hlength, List.drop_length] at hnew
      exact absurd hnew List.not_mem_nil
    · rw [hnodes, List.drop_left] at hnew
      rw [List.mem_singleton.mp hnew]
      exact .inr ⟨body, harm, henrols⟩

/-- Audit records are only appended. -/
theorem Effect.audit_prefix (h : Effect st env store arm response new) :
    store.audit <+: new.audit := by
  cases h with
  | unchanged => exact List.prefix_rfl
  | heartbeatAborted => exact List.prefix_rfl
  | redemptionAborted => exact List.prefix_rfl
  | dispatchAborted => exact List.prefix_rfl
  | taskCreated body actor req approved k h happroved =>
    exact (approvalGate_frame happroved).audit.trans (List.prefix_append _ _)
  | _ => exact List.prefix_append _ _

end Steps

end NodeWe.ControlPlane
