import NodeWe.ControlPlane.History

/-!
# Isolation of node credentials

A request under a node's credential reaches one of the handlers for agents, and each of these
touches the records of one node only. The node that a handler acts on need not be the node that was
authenticated: `credential_authorized` reads the body first and the query string second, the poll
reads the query string only, and the upload the body only. The request stays within its own node
exactly when the handler does not act for another one.
-/

namespace NodeWe.ControlPlane

open Text InPlace

/-- A request leaves everything but the records of the node `n` alone, and shows no task of another
node. -/
structure Isolated (n : String) (store : Store) (response : Response) (new : Store) : Prop where
  nodes : Evolves (fun node node' => node.id = n ∧ node'.id = n ∨ node' = node)
    store.nodes new.nodes
  nodes_length : new.nodes.length = store.nodes.length
  tasks : Evolves (fun task task' => task.node_id = n ∧ task'.node_id = n ∨ task' = task)
    store.tasks new.tasks
  tasks_length : new.tasks.length = store.tasks.length
  audit : store.audit <+: new.audit
  grants : new.grants = store.grants
  approvals : new.approvals = store.approvals
  shown : ∀ task ∈ response.reply.shownTasks, task.node_id = n

section Agents

variable [Serde] [Ed25519] {st : State} {env : Env} {store new : Store} {arm : Arm}
  {response : Response} {n : String}

omit [Ed25519] in
/-- A step of a task under a handler for agents that acts on `n` is a step of a task of `n`. -/
theorem TaskStep.own {task task' : Task} (h : TaskStep env arm task task')
    (hagent : arm.isAgent = true) (hacts : ∀ m, arm.actsOn = some m → m = n) :
    task.node_id = n ∧ task'.node_id = n ∨ task' = task := by
  cases h with
  | same => exact .inr rfl
  | cancelled => cases hagent
  | revoked => cases hagent
  | leased path node_id k token task hquery hclaim htoken =>
    have hnode : task.node_id = n := (claimable_node hclaim).trans (hacts node_id hquery)
    exact .inl ⟨hnode, hnode⟩
  | completed path body upload task hparsed htarget haccepted =>
    have hupload : upload.node_id = n :=
      hacts _ (congrArg some (parseResultUpload_node hparsed).symm)
    have hnode : task.node_id = n := (uploadTarget_node htarget).trans hupload
    exact .inl ⟨hnode, hnode⟩

omit [Ed25519] in
/-- A step of a node under a handler for agents that acts on `n` is a step of `n`. -/
theorem NodeStep.own {node node' : Node} (h : NodeStep env arm node node')
    (hagent : arm.isAgent = true) (hacts : ∀ m, arm.actsOn = some m → m = n) :
    node.id = n ∧ node'.id = n ∨ node' = node := by
  cases h with
  | same => exact .inr rfl
  | revoked => cases hagent
  | rotated => cases hagent
  | beaten body abilities node hid hlive habilities =>
    have hnode : node.id = n := hid.trans (hacts _ rfl)
    exact .inl ⟨hnode, hnode⟩
  | marked body node hid hlive =>
    have hnode : node.id = n := hid.trans (hacts _ rfl)
    exact .inl ⟨hnode, hnode⟩

/-- What a handler for agents shows belongs to the node that it acts on. -/
theorem Effect.shown_own (h : Effect st env store arm response new) (hagent : arm.isAgent = true)
    (hacts : ∀ m, arm.actsOn = some m → m = n) :
    ∀ task ∈ response.reply.shownTasks, task.node_id = n := by
  cases h with
  | unchanged arm response hread hshown =>
    have hdiscloses : arm.discloses = false := by cases arm <;> first | rfl | cases hagent
    rw [(hshown hdiscloses).1]
    exact fun _ h => absurd h List.not_mem_nil
  | tasksDispatched path node_id tasks dispatched h hloop hsome =>
    intro task htask
    obtain ⟨-, before, token, -, -, hclaim, -, rfl⟩ :=
      dispatchLoop_dispatched hloop task htask
    exact (claimable_node hclaim).trans (hacts node_id h.query)
  | resultAccepted path body upload task h =>
    intro t ht
    rw [List.mem_singleton.mp ht]
    have hupload : upload.node_id = n :=
      hacts _ (congrArg some (parseResultUpload_node h.parsed).symm)
    exact (uploadTarget_node (List.find?_some h.found)).trans hupload
  | nodeBeaten => exact fun _ h => absurd h List.not_mem_nil
  | heartbeatAborted => exact fun _ h => absurd h List.not_mem_nil
  | dispatchAborted => exact fun _ h => absurd h List.not_mem_nil
  | _ => cases hagent

/-- A handler for agents stays within the node that it acts on. -/
theorem Effect.isolated (h : Effect st env store arm response new) (hagent : arm.isAgent = true)
    (hacts : ∀ m, arm.actsOn = some m → m = n) : Isolated n store response new where
  nodes := h.nodes_evolve.mono fun _ _ hstep => hstep.own hagent hacts
  nodes_length := by
    rcases h.nodes_length with hlength | ⟨_, _, ⟨_, rfl⟩ | rfl, -, -⟩
    · exact hlength
    · cases hagent
    · cases hagent
  tasks := h.tasks_evolve.mono fun _ _ hstep => hstep.own hagent hacts
  tasks_length := by
    rcases h.tasks_length with hlength | ⟨_, _, _, rfl, -, -⟩
    · exact hlength
    · cases hagent
  audit := h.audit_prefix
  grants := by cases h <;> first | rfl | cases hagent
  approvals := by cases h <;> first | rfl | cases hagent
  shown := h.shown_own hagent hacts

omit [Serde] [Ed25519] in
/-- A request that changes nothing and shows no task is isolated. -/
theorem Isolated.of_unchanged (hshown : response.reply.shownTasks = []) :
    Isolated n store response store :=
  ⟨Evolves.refl (fun _ => .inr rfl) _, rfl, Evolves.refl (fun _ => .inr rfl) _, rfl,
    List.prefix_rfl, rfl, rfl, fun _ h => by rw [hshown] at h; cases h⟩

/-! ## Requests under a credential -/

/-- A handler for agents acts for a node other than `n`: a poll finds a task of another node, or a
task of another node takes an upload. -/
inductive ActsForAnother (st : State) (env : Env) (store : Store) (n : String) : Arm → Prop
  | poll (path m : String) (task : Task) (hm : m ≠ n) (h : Polls st env path store m)
      (htask : task ∈ store.tasks) (hclaim : claimable env m task = true) :
      ActsForAnother st env store n (.agentTasks path)
  | upload (path body : String) (upload : ResultUpload) (task : Task) (hm : upload.node_id ≠ n)
      (h : Uploads env path body store upload task) :
      ActsForAnother st env store n (.agentResult path body)

omit [Ed25519] in
/-- Under the same clock a handler acts for another node in any surroundings. -/
theorem ActsForAnother.congr {env' : Env} (hnow : env'.now = env.now)
    (h : ActsForAnother st env' store n arm) : ActsForAnother st env store n arm := by
  cases h with
  | poll path m task hm h htask hclaim =>
    refine .poll path m task hm ⟨h.query, ?_⟩ htask ?_
    · simpa only [nodeIsFresh, hnow] using h.fresh
    · simpa only [claimable, hnow] using hclaim
  | upload path body upload task hm h =>
    refine .upload path body upload task hm ⟨h.parsed, h.found, ?_⟩
    simpa only [refusedResult, hnow] using h.accepted

/-- A redemption under a credential is refused: the node that it names is enrolled. -/
theorem Effect.redemption_unchanged {path body : String}
    (h : Effect st env store (.redeemGrant body) response new)
    (hnamed : namedNode path body = some n) (hmem : ∃ node ∈ store.nodes, node.id = n) :
    new = store ∧ response.reply.shownTasks = [] := by
  obtain ⟨node, hnode, rfl⟩ := hmem
  -- A redemption that gets further names a node that is not there.
  have hknown (hid : validNodeId ((jsonField body "node_id").getD "") = true)
      (hnew : ∀ other ∈ store.nodes, other.id ≠ (jsonField body "node_id").getD "") : False := by
    have hsome : (jsonField body "node_id").getD "" ≠ "" := by
      intro hempty
      rw [hempty] at hid
      exact absurd hid (by decide)
    rw [namedNode_of_body hsome, Option.some.injEq] at hnamed
    exact hnew node hnode hnamed.symm
  cases h with
  | unchanged arm response hread hshown => exact ⟨rfl, (hshown rfl).1⟩
  | grantRedeemed body grant enrolled h hfound =>
    have hid : enrolled.id = (jsonField body "node_id").getD "" := by rw [h.made]; rfl
    exact (hknown (hid ▸ h.valid_id) (hid ▸ h.fresh_id)).elim
  | redemptionAborted body grant hid hnew hfound hdrawn => exact (hknown hid hnew).elim

/-- An arm that is open to a node stays within the node that was authenticated, unless it acts for
another one. -/
theorem Effect.isolated_or_acts {method path body : String}
    (h : Effect st env store arm response new)
    (hreached : Unprivileged method path body none arm) (hnamed : namedNode path body = some n)
    (hmem : ∃ node ∈ store.nodes, node.id = n) (hacts : ¬ActsForAnother st env store n arm)
    (hrespond : ∀ fixed, arm = .respond fixed → response = fixed ∧ new = store) :
    Isolated n store response new := by
  cases hreached with
  | respond fixed htasks happrovals =>
    obtain ⟨rfl, rfl⟩ := hrespond fixed rfl
    exact .of_unchanged htasks
  | redeemGrant =>
    obtain ⟨rfl, hshown⟩ := h.redemption_unchanged hnamed hmem
    exact .of_unchanged hshown
  | cancelTask a hactor => cases hactor
  | heartbeat =>
    -- A heartbeat that passes its guards names its node in the body, as authentication read it.
    by_cases hfield : (jsonField body "node_id").getD "" = ""
    · cases h with
      | unchanged arm response hread hshown => exact .of_unchanged (hshown rfl).1
      | nodeBeaten body node abilities htarget habilities =>
        exact absurd hfield (heartbeatTarget_ok htarget).named
      | heartbeatAborted body node htarget habilities =>
        exact absurd hfield (heartbeatTarget_ok htarget).named
    · rw [namedNode_of_body hfield] at hnamed
      exact h.isolated rfl fun m hm => (Option.some.inj hm).symm.trans (Option.some.inj hnamed)
  | agentTasks =>
    by_cases hquery : queryField path "node_id" = some n
    · refine h.isolated rfl fun m hm => ?_
      exact Option.some.inj (hm.symm.trans hquery)
    · have hother (m : String) (hm : queryField path "node_id" = some m) : m ≠ n :=
        fun hmn => hquery (hmn ▸ hm)
      cases h with
      | unchanged arm response hread hshown => exact .of_unchanged (hshown rfl).1
      | tasksDispatched path m tasks dispatched h hloop hsome =>
        obtain ⟨task, htask⟩ := List.exists_mem_of_ne_nil dispatched hsome
        obtain ⟨i, before, -, hi, -, hclaim, -⟩ := dispatchLoop_dispatched hloop task htask
        exact absurd (.poll path m before (hother m h.query) h (List.mem_of_getElem? hi) hclaim)
          hacts
      | dispatchAborted path m tasks h hloop =>
        obtain ⟨task, htask, hclaim⟩ := dispatchLoop_none (congrArg Prod.snd hloop)
        exact absurd (.poll path m task (hother m h.query) h htask hclaim) hacts
  | agentResult =>
    cases h with
    | unchanged arm response hread hshown => exact .of_unchanged (hshown rfl).1
    | resultAccepted path body upload task h =>
      have hupload : upload.node_id = n := by
        by_contra hm
        exact hacts (.upload path body upload task hm h)
      refine Effect.isolated (.resultAccepted path body upload task h) rfl fun m hm => ?_
      rw [← hupload, parseResultUpload_node h.parsed]
      exact (Option.some.inj hm).symm

/-- In working surroundings a handler that acts for another node shows a task of that node. -/
theorem ActsForAnother.shows (h : ActsForAnother st env store n arm) :
    ∃ task ∈ (arm.run st env.working store).1.reply.shownTasks, task.node_id ≠ n := by
  cases h with
  | poll path m task hm h htask hclaim =>
    obtain ⟨dispatched, hsome, hnode, hrun⟩ := h.run_working htask hclaim
    obtain ⟨first, hfirst⟩ := List.exists_mem_of_ne_nil dispatched hsome
    refine ⟨first, ?_, fun hn => hm ((hnode first hfirst).symm.trans hn)⟩
    rw [Arm.run, hrun]
    exact hfirst
  | upload path body upload task hm h =>
    have huploads : Uploads env.working path body store upload task :=
      ⟨h.parsed, h.found, h.accepted⟩
    have hnode : task.node_id = upload.node_id := uploadTarget_node (List.find?_some h.found)
    refine ⟨completed task upload, ?_, fun hn => hm (hnode.symm.trans hn)⟩
    rw [Arm.run, huploads.run st]
    exact List.mem_singleton_self _

/-- **A node's credential reaches that node only, exactly when** the handler does not act for
another node: whatever the random source and the backend do, the request stays within the records
of the node that was authenticated. -/
theorem node_request_isolated_iff (st : State) (env : Env) (store : Store)
    (method path body presented : String) (node : Node) (hadmin : presented ≠ st.admin_token)
    (hmem : node ∈ store.nodes) (hnamed : namedNode path body = some node.id)
    (hcredential : node.credential = presented) (hlive : node.revoked = false) :
    (∀ env' : Env, env'.now = env.now →
      Isolated node.id store (serve st env' store method path body presented).1
        (serve st env' store method path body presented).2) ↔
    ¬ActsForAnother st env store node.id (routedArm method path body true false none) := by
  have hauth (env' : Env) :
      serve st env' store method path body presented =
        (routedArm method path body true false none).run st env' store := by
    unfold serve routeWithActor
    rw [authenticateRequest_of_credential hadmin
      (credentialAuthorized_iff.mpr ⟨node, hmem, hnamed, hcredential, hlive⟩)]
  constructor
  · intro hisolated hacts
    obtain ⟨task, htask, hother⟩ := hacts.shows
    have h := hisolated env.working rfl
    rw [hauth] at h
    exact hother (h.shown task htask)
  · intro hacts env' hnow
    rw [hauth]
    refine (Arm.run_effect st env' _ store).isolated_or_acts
      (unprivileged_routedArm method path body true none) hnamed ⟨node, hmem, rfl⟩
      (fun h => hacts (h.congr hnow)) (fun fixed harm => ?_)
    rw [harm]
    exact ⟨rfl, rfl⟩

end Agents

section Example

/-- Two nodes, and a task for the second one. -/
def twoNodes : Store where
  nodes := [exampleNode "a" "key-a", exampleNode "b" "key-b"]
  tasks := [exampleTask "t" "admin" "b"]
  audit := []
  grants := []
  approvals := []

/-- A body that names the node `a`. -/
def bodyOfA : String := "\x7b\"node_id\":\"a\"\x7d"

local instance bodyOfAParser : Serde := tableParser [(bodyOfA, .object [("node_id", .string "a")])]

attribute [local instance] noKeys

/-- A poll of `a` for itself. -/
theorem node_request_isolated_poll :
    (∀ env' : Env, env'.now = (exampleEnv 1000).now →
      Isolated "a" twoNodes
        (serve exampleState env' twoNodes "GET" "/v1/agent/tasks?node_id=a" "" "key-a").1
        (serve exampleState env' twoNodes "GET" "/v1/agent/tasks?node_id=a" "" "key-a").2) ↔
    ¬ActsForAnother exampleState (exampleEnv 1000) twoNodes "a"
      (routedArm "GET" "/v1/agent/tasks?node_id=a" "" true false none) :=
  node_request_isolated_iff exampleState (exampleEnv 1000) twoNodes "GET"
    "/v1/agent/tasks?node_id=a" "" "key-a" (exampleNode "a" "key-a") (by decide) (by decide)
    (by decide) (by decide) (by decide)

/-- A poll under the credential of `a` that names `a` in its body and `b` in its query string is
handed the task of `b`. -/
theorem node_request_not_isolated :
    authenticateRequest exampleState (exampleEnv 1000) twoNodes "/v1/agent/tasks?node_id=b"
        bodyOfA "key-a" = ⟨true, false, true, none⟩ ∧
      namedNode "/v1/agent/tasks?node_id=b" bodyOfA = some "a" ∧
      ¬Isolated "a" twoNodes
        (serve exampleState (exampleEnv 1000) twoNodes "GET" "/v1/agent/tasks?node_id=b" bodyOfA
          "key-a").1
        (serve exampleState (exampleEnv 1000) twoNodes "GET" "/v1/agent/tasks?node_id=b" bodyOfA
          "key-a").2 := by
  refine ⟨by decide, by decide, fun h => ?_⟩
  have hshown : (serve exampleState (exampleEnv 1000) twoNodes "GET"
      "/v1/agent/tasks?node_id=b" bodyOfA "key-a").1.reply.shownTasks.map Task.node_id =
        ["b"] := by decide +kernel
  obtain ⟨task, htask, hnode⟩ := List.mem_map.mp (hshown ▸ List.mem_singleton_self "b")
  exact absurd ((h.shown task htask).symm.trans hnode) (by decide)

end Example

end NodeWe.ControlPlane
