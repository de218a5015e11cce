import NodeWe.ControlPlane.History

/-!
# Least privilege of operators

An operator who is no administrator may cancel the tasks that carry the operator's own name. The
routes for agents come before the last checks of `route_with_actor` and do not ask who calls, so
the same operator can also report heartbeats, poll, and upload results for any node. These three
are the only way beyond the operator's own tasks.
-/

namespace NodeWe.ControlPlane

open Text InPlace

/-- The store is as it was, or one live task of the actor `s` is cancelled and recorded. -/
def OwnCancel (s : String) (store new : Store) : Prop :=
  new = store ∨ ∃ (i : ℕ) (task : Task) (record : Activity), store.tasks[i]? = some task ∧
    task.actor = s ∧ task.state ∉ terminalStates ∧ record.event = "task.cancelled" ∧
    record.task_id = some task.id ∧
    new = { store with
      tasks := store.tasks.set i (cancelledTask task)
      audit := store.audit ++ [record] }

/-- A request changes nothing but a task of the actor `s`, and shows no other task and no
approval. -/
structure WithinActor (s : String) (store : Store) (response : Response) (new : Store) :
    Prop where
  change : OwnCancel s store new
  shown : ∀ task ∈ response.reply.shownTasks, task.actor = s
  approvals : response.reply.shownApprovals = []

section Operators

variable [Serde] {st : State} {env : Env} {store new : Store} {arm : Arm} {response : Response}
  {s : String}

/-- A handler for agents acts: a heartbeat marks a node or is recorded, a poll finds a task, or a
task takes an upload. -/
inductive AgentActs (st : State) (env : Env) (store : Store) : Arm → Prop
  | beat (body : String) (node : Node) (htarget : heartbeatTarget body store = .ok node)
      (hacts : (jsonField body "abilities").map normalizeAbilities ≠ some none ∨
        markedOnline env node ≠ node) :
      AgentActs st env store (.heartbeat body)
  | poll (path node_id : String) (task : Task) (h : Polls st env path store node_id)
      (htask : task ∈ store.tasks) (hclaim : claimable env node_id task = true) :
      AgentActs st env store (.agentTasks path)
  | upload (path body : String) (upload : ResultUpload) (task : Task)
      (h : Uploads env path body store upload task) :
      AgentActs st env store (.agentResult path body)

/-- Under the same clock a handler for agents acts in any surroundings. -/
theorem AgentActs.congr {env' : Env} (hnow : env'.now = env.now)
    (h : AgentActs st env' store arm) : AgentActs st env store arm := by
  cases h with
  | beat body node htarget hacts =>
    exact .beat body node htarget (by simpa only [markedOnline, hnow] using hacts)
  | poll path node_id task h htask hclaim =>
    refine .poll path node_id task ⟨h.query, ?_⟩ htask ?_
    · simpa only [nodeIsFresh, hnow] using h.fresh
    · simpa only [claimable, hnow] using hclaim
  | upload path body upload task h =>
    refine .upload path body upload task ⟨h.parsed, h.found, ?_⟩
    simpa only [refusedResult, hnow] using h.accepted

omit [Serde] in
/-- A request that changes nothing and shows nothing is within its actor. -/
theorem WithinActor.of_unchanged (htasks : response.reply.shownTasks = [])
    (happrovals : response.reply.shownApprovals = []) : WithinActor s store response store :=
  ⟨.inl rfl, fun _ h => absurd (htasks ▸ h) List.not_mem_nil, happrovals⟩

variable [Ed25519]

/-- An arm that is open to the operator `s` is within `s`, unless a handler for agents acts. -/
theorem Effect.withinActor_or_acts {method path body : String}
    (h : Effect st env store arm response new)
    (hreached : Unprivileged method path body (some s) arm)
    (hredeem : ¬(method = "POST" ∧ path = "/v1/grants/redeem"))
    (hacts : ¬AgentActs st env store arm)
    (hrespond : ∀ fixed, arm = .respond fixed → response = fixed ∧ new = store) :
    WithinActor s store response new := by
  cases hreached with
  | respond fixed htasks happrovals =>
    obtain ⟨rfl, rfl⟩ := hrespond fixed rfl
    exact .of_unchanged htasks happrovals
  | redeemGrant hmethod hpath => exact absurd ⟨hmethod, hpath⟩ hredeem
  | cancelTask a hactor =>
    obtain rfl := Option.some.inj hactor
    cases h with
    | unchanged arm response hread hshown => exact .of_unchanged (hshown rfl).1 (hshown rfl).2
    | taskCancelled path actor task h =>
      have hactor : task.actor = s := h.allowed s rfl
      have hid : task.id = cancelledTaskId path := by simpa using List.find?_some h.found
      refine ⟨.inr ⟨_, task, _, getElem?_findIdx h.found, hactor, h.live, rfl, ?_, rfl⟩, ?_, rfl⟩
      · rw [hid]
        rfl
      · intro t ht
        rw [List.mem_singleton.mp ht]
        exact hactor
  | heartbeat =>
    cases h with
    | unchanged arm response hread hshown => exact .of_unchanged (hshown rfl).1 (hshown rfl).2
    | nodeBeaten body node abilities htarget habilities =>
      refine absurd (.beat body node htarget (.inl ?_)) hacts
      rw [habilities]
      cases abilities <;> simp
    | heartbeatAborted body node htarget habilities =>
      -- Marking the node online is no change where it was online at this instant already.
      by_cases hsame : markedOnline env node = node
      · rw [hsame, setFirst_self (heartbeatTarget_ok htarget).found]
        exact .of_unchanged rfl rfl
      · exact absurd (.beat body node htarget (.inr hsame)) hacts
  | agentTasks =>
    cases h with
    | unchanged arm response hread hshown => exact .of_unchanged (hshown rfl).1 (hshown rfl).2
    | tasksDispatched path node_id tasks dispatched h hloop hsome =>
      obtain ⟨task, htask⟩ := List.exists_mem_of_ne_nil dispatched hsome
      obtain ⟨i, before, -, hi, -, hclaim, -⟩ := dispatchLoop_dispatched hloop task htask
      exact absurd (.poll path node_id before h (List.mem_of_getElem? hi) hclaim) hacts
    | dispatchAborted path node_id tasks h hloop =>
      obtain ⟨task, htask, hclaim⟩ := dispatchLoop_none (congrArg Prod.snd hloop)
      exact absurd (.poll path node_id task h htask hclaim) hacts
  | agentResult =>
    cases h with
    | unchanged arm response hread hshown => exact .of_unchanged (hshown rfl).1 (hshown rfl).2
    | resultAccepted path body upload task h =>
      exact absurd (.upload path body upload task h) hacts

omit [Serde] [Ed25519] in
/-- An audit record of another event is no cancellation of an own task. -/
theorem OwnCancel.event_eq {record : Activity} (h : OwnCancel s store new)
    (haudit : new.audit = store.audit ++ [record]) : record.event = "task.cancelled" := by
  rcases h with rfl | ⟨i, task, record', -, -, -, hevent, -, rfl⟩
  · exact absurd (congrArg List.length haudit) (by simp)
  · have hrecord : record' = record := by simpa using haudit
    exact hrecord ▸ hevent

/-- In working surroundings a handler for agents that acts goes beyond any actor. -/
theorem AgentActs.beyond (h : AgentActs st env store arm) (s : String) :
    ¬WithinActor s store (arm.run st env.working store).1 (arm.run st env.working store).2 := by
  intro hwithin
  have hchange := hwithin.change
  cases h with
  | beat body node htarget hacts =>
    match habilities : (jsonField body "abilities").map normalizeAbilities with
    | none =>
      rw [Arm.run, heartbeat_run none htarget habilities] at hchange
      have hevent : "node.heartbeat" = "task.cancelled" := hchange.event_eq rfl
      exact absurd hevent (by decide)
    | some (some abilities) =>
      rw [Arm.run, heartbeat_run (some abilities) htarget habilities] at hchange
      have hevent : "node.heartbeat" = "task.cancelled" := hchange.event_eq rfl
      exact absurd hevent (by decide)
    | some none =>
      -- Nothing is recorded, so the node itself shows the change.
      have hmarked : markedOnline env node ≠ node :=
        hacts.resolve_left (fun hne => hne habilities)
      have hfound := (heartbeatTarget_ok htarget).found
      rw [Arm.run, heartbeat_abort htarget habilities] at hchange
      rcases hchange with heq | ⟨i, task, record, -, -, -, -, -, heq⟩
      · have hset := InPlace.setFirst_eq_self hfound (congrArg Store.nodes heq)
        exact hmarked hset
      · exact absurd (congrArg (fun store => store.audit.length) heq) (by simp)
  | poll path node_id task h htask hclaim =>
    obtain ⟨dispatched, -, -, hrun⟩ := h.run_working htask hclaim
    rw [Arm.run, hrun] at hchange
    have hevent : "task.dispatched" = "task.cancelled" := hchange.event_eq rfl
    exact absurd hevent (by decide)
  | upload path body upload task h =>
    have huploads : Uploads env.working path body store upload task :=
      ⟨h.parsed, h.found, h.accepted⟩
    rw [Arm.run, huploads.run st] at hchange
    have hevent : "task.completed" = "task.cancelled" := hchange.event_eq rfl
    exact absurd hevent (by decide)

/-- **An operator reaches the operator's own tasks only, exactly when** no handler for agents acts:
whatever the random source and the backend do, a request that OIDC authenticates as `s` without the
administrators' group, and that is no redemption, stays within `s`. -/
theorem operator_request_within_iff (st : State) (env : Env) (store : Store)
    (method path body presented s : String)
    (hauth : authenticateRequest st env store path body presented = ⟨true, false, false, some s⟩)
    (hredeem : ¬(method = "POST" ∧ path = "/v1/grants/redeem")) :
    (∀ env' : Env, env'.now = env.now →
      WithinActor s store (serve st env' store method path body presented).1
        (serve st env' store method path body presented).2) ↔
    ¬AgentActs st env store (routedArm method path body true false (some s)) := by
  have hserve (env' : Env) (hnow : env'.now = env.now) :
      serve st env' store method path body presented =
        (routedArm method path body true false (some s)).run st env' store := by
    unfold serve routeWithActor
    rw [authenticateRequest_congr hnow, hauth]
  constructor
  · intro hwithin hacts
    have h := hwithin env.working rfl
    rw [hserve env.working rfl] at h
    exact hacts.beyond s h
  · intro hacts env' hnow
    rw [hserve env' hnow]
    refine (Arm.run_effect st env' _ store).withinActor_or_acts
      (unprivileged_routedArm method path body true (some s)) hredeem
      (fun h => hacts (h.congr hnow)) (fun fixed harm => ?_)
    rw [harm]
    exact ⟨rfl, rfl⟩

end Operators

section Example

/-- A process that accepts OIDC tokens. -/
def oidcState : State :=
  { exampleState with
    oidc := some ⟨"https://idp", "nodewe", bytes "0123456789abcdef0123456789abcdef",
      "nodewe-admin", "groups"⟩ }

/-- The header of the token below. -/
def aliceHeader : String := "\x7b\"alg\":\"HS256\",\"typ\":\"JWT\"\x7d"

/-- The payload of the token below. -/
def alicePayload : String :=
  "\x7b\"iss\":\"https://idp\",\"aud\":\"nodewe\",\"exp\":9,\"sub\":\"alice\"\x7d"

/-- A token of the operator `alice`, who is in no group. -/
def aliceToken : String :=
  "eyJhbGciOiJIUzI1NiIsInR5cCI6IkpXVCJ9." ++
    "eyJpc3MiOiJodHRwczovL2lkcCIsImF1ZCI6Im5vZGV3ZSIsImV4cCI6OSwic3ViIjoiYWxpY2UifQ." ++
    "fcqRgwM4nM9t2uDwSOycOuuEGKc1lZhn9GrgJg2PQZA"

/-- A node, a task of the administrator, and a task of `alice`. -/
def aliceStore : Store where
  nodes := [exampleNode "a" "key-a"]
  tasks := [exampleTask "t" "admin" "a", exampleTask "u" "alice" "a"]
  audit := []
  grants := []
  approvals := []

local instance aliceParser : Serde := tableParser
  [(aliceHeader, .object [("alg", .string "HS256"), ("typ", .string "JWT")]),
   (alicePayload, .object [("iss", .string "https://idp"), ("aud", .string "nodewe"),
      ("exp", .number (.posInt 9)), ("sub", .string "alice")])]

attribute [local instance] noKeys

/-- The token is valid and names `alice`. -/
theorem validateOidcToken_alice :
    (oidcState.oidc.bind (validateOidcToken (exampleEnv 1000) aliceToken)) =
      some ⟨"alice", []⟩ := by decide +kernel

/-- The token authenticates `alice`, who is no administrator. -/
theorem authenticateRequest_alice (path body : String)
    (hnode : credentialAuthorized aliceStore path body aliceToken = false) :
    authenticateRequest oidcState (exampleEnv 1000) aliceStore path body aliceToken =
      ⟨true, false, false, some "alice"⟩ := by
  have hadmin : constantTimeEq aliceToken oidcState.admin_token = false := by decide +kernel
  have hclaims := validateOidcToken_alice
  unfold authenticateRequest
  rw [hadmin, hnode]
  cases hoidc : oidcState.oidc with
  | none => rw [hoidc] at hclaims; cases hclaims
  | some config =>
    rw [hoidc, Option.bind_some] at hclaims
    simp only [Bool.false_eq_true, if_false, hclaims]
    rfl

/-- `alice` cancels a task. -/
theorem operator_request_within_cancel :
    (∀ env' : Env, env'.now = (exampleEnv 1000).now →
      WithinActor "alice" aliceStore
        (serve oidcState env' aliceStore "POST" "/v1/tasks/u/cancel" "" aliceToken).1
        (serve oidcState env' aliceStore "POST" "/v1/tasks/u/cancel" "" aliceToken).2) ↔
    ¬AgentActs oidcState (exampleEnv 1000) aliceStore
      (routedArm "POST" "/v1/tasks/u/cancel" "" true false (some "alice")) :=
  operator_request_within_iff oidcState (exampleEnv 1000) aliceStore "POST" "/v1/tasks/u/cancel"
    "" aliceToken "alice" (authenticateRequest_alice _ _ (by decide)) (by decide)

/-- `alice` polls for the node `a` and is handed the administrator's task. -/
theorem operator_request_not_within :
    authenticateRequest oidcState (exampleEnv 1000) aliceStore "/v1/agent/tasks?node_id=a" ""
        aliceToken = ⟨true, false, false, some "alice"⟩ ∧
      ¬WithinActor "alice" aliceStore
        (serve oidcState (exampleEnv 1000) aliceStore "GET" "/v1/agent/tasks?node_id=a" ""
          aliceToken).1
        (serve oidcState (exampleEnv 1000) aliceStore "GET" "/v1/agent/tasks?node_id=a" ""
          aliceToken).2 := by
  have hauth := authenticateRequest_alice "/v1/agent/tasks?node_id=a" "" (by decide +kernel)
  refine ⟨hauth, fun h => ?_⟩
  have hactors : (serve oidcState (exampleEnv 1000) aliceStore "GET" "/v1/agent/tasks?node_id=a"
      "" aliceToken).1.reply.shownTasks.map Task.actor = ["admin", "alice"] := by
    simp only [serve, routeWithActor, hauth]
    decide +kernel
  obtain ⟨task, htask, hactor⟩ := List.mem_map.mp (hactors ▸ List.mem_cons_self (a := "admin"))
  exact absurd ((h.shown task htask).symm.trans hactor) (by decide)

end Example

end NodeWe.ControlPlane
