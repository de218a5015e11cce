import NodeWe.ControlPlane.LeastPrivilege
import NodeWe.ControlPlane.Runs

/-!
# What a request leaves behind

A request that is rejected leaves the store as it was, where the handler works on a copy that
`persist_or_rollback` puts back. A request that succeeds leaves records behind, in the name of the
operator who made it. Both are read off the list of effects.
-/

namespace NodeWe.ControlPlane

open Text InPlace

/-! ## Rejected requests -/

/-- The handlers that change the store as a whole or not at all. The other three that change it,
`heartbeat`, `agent_tasks`, and `redeem_grant`, touch a record before their last check. -/
def Arm.isTransaction : Arm → Bool
  | createNode _ _ | createGrant _ | revokeGrant _ _ | revokeNode _ _ | rotateNode _ _
  | createApproval _ _ | createTask _ _ | cancelTask _ _ | agentResult _ _ => true
  | _ => false

section Rejected

variable [Serde] [Ed25519] {st : State} {env : Env} {store new : Store} {arm : Arm}
  {response : Response}

/-- An effect of such a handler with a response that is no success is none. -/
theorem Effect.rolled_back (h : Effect st env store arm response new)
    (harm : arm.isTransaction = true) (hstatus : response.status.isSuccess = false) :
    new = store := by
  have hok : Status.isSuccess .ok = true := by decide
  have hcreated : Status.isSuccess .created = true := by decide
  have haccepted : Status.isSuccess .accepted = true := by decide
  cases h with
  | unchanged => rfl
  -- The three effects that stay behind an error belong to the other handlers.
  | heartbeatAborted => cases harm
  | redemptionAborted => cases harm
  | dispatchAborted => cases harm
  | nodeCreated => exact absurd (hcreated.symm.trans hstatus) (by decide)
  | grantCreated => exact absurd (hcreated.symm.trans hstatus) (by decide)
  | grantRedeemed => exact absurd (hcreated.symm.trans hstatus) (by decide)
  | approvalCreated => exact absurd (hcreated.symm.trans hstatus) (by decide)
  | taskCreated => exact absurd (haccepted.symm.trans hstatus) (by decide)
  | _ => exact absurd (hok.symm.trans hstatus) (by decide)

/-- **A rejected request leaves the store as it was.** -/
theorem rejected_unchanged (st : State) (env : Env) (arm : Arm) (store : Store)
    (harm : arm.isTransaction = true)
    (hstatus : (arm.run st env store).1.status.isSuccess = false) :
    (arm.run st env store).2 = store :=
  (arm.run_effect st env store).rolled_back harm hstatus

end Rejected

section Rejection

attribute [local instance] exampleParser noKeys

/-- The backend fails while a node is enrolled. -/
theorem rejected_enrolment_unchanged :
    ((Arm.createNode exampleBodies.1 none).run exampleState
      { exampleEnv 0 with persist := fun _ => false } queuedStore).2 = queuedStore :=
  rejected_unchanged exampleState _ _ queuedStore rfl (by decide +kernel)

end Rejection

/-! ## Records in the operator's name -/

/-- The operator that a handler is called for. -/
def Arm.onBehalf : Arm → Option String
  | createNode _ actor | createGrant actor | revokeGrant _ actor | createApproval _ actor
  | createTask _ actor | cancelTask _ actor | revokeNode _ actor | rotateNode _ actor => actor
  | _ => none

/-- The arms that read the store. -/
def Arm.isReading : Arm → Bool
  | respond _ | listNodes | listGrants | listApprovals | listTasks | getTask _ | listAudit
  | exportAudit _ => true
  | _ => false

/-- A request that cancels a task. -/
structure CancelsTask (method path : String) : Prop where
  posts : method = "POST"
  under : startsWith path "/v1/tasks/" = true
  cancel : endsWith path "/cancel" = true

/-- A request that redeems a grant. -/
structure RedeemsGrant (method path : String) : Prop where
  posts : method = "POST"
  redeem : path = "/v1/grants/redeem"

/-- The arms that the request of the operator `a` is routed to. -/
inductive Operated (method path body : String) (admin : Bool) (a : String) : Arm → Prop
  | named (arm : Arm) (h : arm.onBehalf = some a) : Operated method path body admin a arm
  | reading (arm : Arm) (h : arm.isReading = true) : Operated method path body admin a arm
  | agent (arm : Arm) (h : arm.isAgent = true) : Operated method path body admin a arm
  | cancels (h : CancelsTask method path) (hadmin : admin = true) :
      Operated method path body admin a (.cancelTask path none)
  | redeems (h : RedeemsGrant method path) :
      Operated method path body admin a (.redeemGrant body)

/-- An operator's request is routed to one of these arms. -/
theorem operated_routedArm (method path body a : String) (authorized admin : Bool) :
    Operated method path body admin a (routedArm method path body authorized admin (some a)) := by
  unfold routedArm
  repeat' refine iteInduction (fun h => ?_) (fun h => ?_)
  all_goals
    first
    | exact .reading _ rfl
    | exact .named _ rfl
    | exact .agent _ rfl
    | have ⟨hmethod, hpath⟩ := Bool.and_eq_true_iff.mp h
      exact .redeems ⟨eq_of_beq hmethod, eq_of_beq hpath⟩
    -- What is left is the administrator's cancellation, below the guard of its path.
    | rename_i hguard
      have ⟨hmethod, hunder⟩ := Bool.and_eq_true_iff.mp hguard
      have ⟨hstart, hend⟩ := Bool.and_eq_true_iff.mp hunder
      exact .cancels ⟨eq_of_beq hmethod, hstart, hend⟩ h

/-- The administrator's cancellation is called for nobody. -/
theorem CancelsTask.routedArm {method path : String} (h : CancelsTask method path)
    (body : String) (actor : Option String) :
    routedArm method path body true true actor = .cancelTask path none := by
  obtain ⟨rfl, hstart, hend⟩ := h
  have hne (literal : String) (hliteral : startsWith literal "/v1/tasks/" = false) :
      (path == literal) = false := beq_eq_false_of_startsWith hstart hliteral
  -- The path of a revocation begins otherwise.
  have hgrant : startsWith path "/v1/grants/" = false :=
    startsWith_eq_false hstart (by decide) (by decide)
  unfold ControlPlane.routedArm
  simp [hne "/v1/grants/redeem" (by decide),
    hne "/v1/nodes" (by decide), hne "/v1/grants" (by decide),
    hne "/v1/approvals" (by decide), hne "/v1/tasks" (by decide),
    hgrant, hstart, hend]

/-- A redemption is for everyone. -/
theorem RedeemsGrant.routedArm {method path : String} (h : RedeemsGrant method path)
    (body : String) (authorized admin : Bool) (actor : Option String) :
    routedArm method path body authorized admin actor = .redeemGrant body := by
  obtain ⟨rfl, rfl⟩ := h
  rfl

/-- A request that redeems a grant cancels no task. -/
theorem RedeemsGrant.not_cancelsTask {method path : String} (h : RedeemsGrant method path) :
    ¬CancelsTask method path := by
  obtain ⟨rfl, rfl⟩ := h
  exact fun h => absurd h.under (by decide)

section Named

variable [Serde]

/-- An authenticated operator is who acts. -/
theorem resolveActor_some {body a actor : String}
    (h : resolveActor body (some a) = some actor) : actor = a := by
  unfold resolveActor at h
  cases hrequested : jsonField body "actor" with
  | none =>
    rw [hrequested] at h
    exact (Option.some.inj h).symm
  | some requested =>
    rw [hrequested] at h
    dsimp only at h
    split_ifs at h with hsame
    exact (Option.some.inj h).symm

/-- A task that an operator requests is the operator's. -/
theorem parseTaskRequest_actor {st : State} {env : Env} {body a : String} {req : TaskRequest}
    (h : parseTaskRequest st env body (some a) = .ok req) : req.actor = a := by
  unfold parseTaskRequest at h
  dsimp only at h
  split at h
  · cases h
  · split at h
    · cases h
    · next actor hactor =>
      repeat' split at h
      all_goals cases h
      exact resolveActor_some hactor

omit [Serde] in
/-- The approval gate appends records of the actor who requests the task. -/
theorem approvalGate_named {st : State} {env : Env} {store approved : Store} {req : TaskRequest}
    {k : ℕ} (h : approvalGate st env store req = .ok (approved, k)) :
    ∃ consumed, approved.audit = store.audit ++ consumed ∧
      ∀ record ∈ consumed, record.actor = some req.actor := by
  unfold approvalGate at h
  repeat' split at h
  all_goals cases h
  · exact ⟨_, rfl, List.forall_mem_singleton.mpr rfl⟩
  · exact ⟨[], (List.append_nil _).symm, List.forall_mem_nil _⟩
  · exact ⟨[], (List.append_nil _).symm, List.forall_mem_nil _⟩

variable [Ed25519] {st : State} {env : Env} {store new : Store} {arm : Arm}
  {response : Response} {a : String}

/-- The audit records that a request appends. -/
def appended (store new : Store) : List Activity := new.audit.drop store.audit.length

omit [Serde] [Ed25519] in
/-- What is behind the records that were there is appended. -/
theorem appended_eq {records : List Activity} (h : new.audit = store.audit ++ records) :
    appended store new = records := by
  rw [appended, h, List.drop_left]

/-- A handler that is called for an operator records the operator. -/
theorem Effect.named (h : Effect st env store arm response new) (harm : arm.onBehalf = some a) :
    ∀ record ∈ appended store new, record.actor = some a := by
  have hsingle (k : ℕ) (event : String) (node_id task_id actor : Option String)
      (hactor : actor = some a) :
      ∀ record ∈ [Activity.withActor st env k event node_id task_id (some (auditActor actor))],
        record.actor = some a := by
    rw [hactor]
    exact List.forall_mem_singleton.mpr rfl
  cases h with
  | unchanged =>
    rw [appended_eq (List.append_nil _).symm]
    exact List.forall_mem_nil _
  | nodeBeaten => cases harm
  | heartbeatAborted => cases harm
  | grantRedeemed => cases harm
  | redemptionAborted => cases harm
  | tasksDispatched => cases harm
  | dispatchAborted => cases harm
  | resultAccepted => cases harm
  | nodeRevoked id actor node hfound =>
    obtain rfl : actor = some a := harm
    rw [appended_eq rfl]
    refine List.forall_mem_cons.mpr ⟨rfl, fun record hrecord => ?_⟩
    -- One record for each task that the revocation cancels.
    obtain ⟨k, hk, hrecord⟩ := List.mem_mapIdx.mp hrecord
    rw [← hrecord]
    rfl
  | taskCreated body actor req approved k h happroved =>
    obtain rfl : actor = some a := harm
    have hactor : req.actor = a := parseTaskRequest_actor h.parsed
    obtain ⟨consumed, hconsumed, hnamed⟩ := approvalGate_named happroved
    rw [hactor] at hnamed
    rw [appended_eq (by rw [hconsumed, List.append_assoc])]
    refine List.forall_mem_append.mpr ⟨hnamed, ?_⟩
    refine List.forall_mem_cons.mpr ⟨congrArg some hactor, List.forall_mem_singleton.mpr ?_⟩
    exact congrArg some hactor
  | _ =>
    rw [appended_eq rfl]
    exact hsingle _ _ _ _ _ harm

/-- A reading appends nothing. -/
theorem Effect.reading_appends (h : Effect st env store arm response new)
    (harm : arm.isReading = true) : appended store new = [] := by
  cases h with
  | unchanged => exact appended_eq (List.append_nil _).symm
  | _ => cases harm

/-- The administrator's cancellation records `admin`. -/
theorem Effect.cancel_records {path : String}
    (h : Effect st env store (.cancelTask path none) response new)
    (hstatus : response.status.isSuccess = true) :
    ∃ record, appended store new = [record] ∧ record.actor = some "admin" := by
  cases h with
  | unchanged arm response hread hshown => exact absurd (hread hstatus) Bool.false_ne_true
  | taskCancelled path actor task h => exact ⟨_, appended_eq rfl, rfl⟩

/-- A redemption records the node. -/
theorem Effect.redemption_records {body : String}
    (h : Effect st env store (.redeemGrant body) response new)
    (hstatus : response.status.isSuccess = true) :
    ∃ record, appended store new = [record] ∧
      record.actor = some ((jsonField body "node_id").getD "") := by
  cases h with
  | unchanged arm response hread hshown => exact absurd (hread hstatus) Bool.false_ne_true
  | grantRedeemed body grant node h hfound =>
    refine ⟨_, appended_eq rfl, ?_⟩
    exact congrArg (fun node : Node => some node.id) h.made
  | redemptionAborted => exact absurd hstatus (by decide)

omit [Ed25519] in
/-- Who acts is authenticated. -/
theorem authenticateRequest_actor {path body presented : String}
    (h : (authenticateRequest st env store path body presented).actor = some a) :
    (authenticateRequest st env store path body presented).authorized = true := by
  unfold authenticateRequest at h ⊢
  repeat' split
  all_goals simp_all [AuthContext.default]

/-- **An operator's request is recorded in the operator's name, exactly when** it is neither an
administrator's cancellation, which is recorded as `admin`, nor a redemption, which is recorded as
the node. -/
theorem operator_records_named_iff (st : State) (env : Env) (store : Store)
    (method path body presented a : String)
    (hactor : (authenticateRequest st env store path body presented).actor = some a)
    (hroute : (routedArm method path body
      (authenticateRequest st env store path body presented).authorized
      (authenticateRequest st env store path body presented).admin
      (authenticateRequest st env store path body presented).actor).isAgent = false)
    (hstatus : (serve st env store method path body presented).1.status.isSuccess = true) :
    (∀ record ∈ appended store (serve st env store method path body presented).2,
      record.actor = some a) ↔
    ¬(CancelsTask method path ∧
        (authenticateRequest st env store path body presented).admin = true ∧ a ≠ "admin") ∧
      ¬(RedeemsGrant method path ∧ (jsonField body "node_id").getD "" ≠ a) := by
  have hauthorized := authenticateRequest_actor hactor
  unfold serve routeWithActor at hstatus ⊢
  dsimp only at hstatus ⊢
  rw [hauthorized, hactor] at hroute hstatus ⊢
  generalize (authenticateRequest st env store path body presented).admin = admin at *
  have hoperated := operated_routedArm method path body a true admin
  have heffect := Arm.run_effect st env (routedArm method path body true admin (some a)) store
  -- A cancellation by an administrator is recorded under `admin`, and a redemption under its node.
  by_cases hcancel : CancelsTask method path ∧ admin = true
  · obtain ⟨hcancel, rfl⟩ := hcancel
    have hredeem : ¬RedeemsGrant method path := fun h => h.not_cancelsTask hcancel
    rw [hcancel.routedArm body (some a)] at heffect hstatus ⊢
    obtain ⟨record, happended, hadmin⟩ := heffect.cancel_records hstatus
    rw [happended, List.forall_mem_singleton, hadmin, Option.some.injEq]
    constructor
    · rintro rfl
      exact ⟨fun h => h.2.2 rfl, fun h => hredeem h.1⟩
    · intro h
      by_contra ha
      exact h.1 ⟨hcancel, rfl, Ne.symm ha⟩
  · by_cases hredeem : RedeemsGrant method path
    · rw [hredeem.routedArm body true admin (some a)] at heffect hstatus ⊢
      obtain ⟨record, happended, hnode⟩ := heffect.redemption_records hstatus
      rw [happended, List.forall_mem_singleton, hnode, Option.some.injEq]
      constructor
      · intro ha
        exact ⟨fun h => hcancel ⟨h.1, h.2.1⟩, fun h => h.2 ha⟩
      · intro h
        by_contra ha
        exact h.2 ⟨hredeem, ha⟩
    · have hnamed : ∀ record ∈ appended store
          ((routedArm method path body true admin (some a)).run st env store).2,
          record.actor = some a := by
        generalize routedArm method path body true admin (some a) = arm at *
        cases hoperated with
        | named arm harm => exact heffect.named harm
        | reading arm harm =>
          rw [heffect.reading_appends harm]
          exact List.forall_mem_nil _
        | agent arm harm => exact absurd (harm.symm.trans hroute) (by decide)
        | cancels h hadmin => exact absurd ⟨h, hadmin⟩ hcancel
        | redeems h => exact absurd h hredeem
      exact ⟨fun _ => ⟨fun h => hcancel ⟨h.1, h.2.1⟩, fun h => hredeem h.1⟩, fun _ => hnamed⟩

end Named

section Example

/-- The payload of the token below. -/
def carolPayload : String :=
  "\x7b\"iss\":\"https://idp\",\"aud\":\"nodewe\",\"exp\":9,\"sub\":\"carol\"," ++
    "\"groups\":[\"nodewe-admin\"]\x7d"

/-- A token of the operator `carol`, who is in the administrators' group. -/
def carolToken : String :=
  "eyJhbGciOiJIUzI1NiIsInR5cCI6IkpXVCJ9." ++
    "eyJpc3MiOiJodHRwczovL2lkcCIsImF1ZCI6Im5vZGV3ZSIsImV4cCI6OSwic3ViIjoiY2Fyb2wiLCJncm91cHMi" ++
    "Olsibm9kZXdlLWFkbWluIl19.Zpx8HPoJ_PPuWxxA1xfeupDTEirFbbSRQkNqLO17BbE"

local instance carolParser : Serde := tableParser
  [(aliceHeader, .object [("alg", .string "HS256"), ("typ", .string "JWT")]),
   (carolPayload, .object [("iss", .string "https://idp"), ("aud", .string "nodewe"),
      ("exp", .number (.posInt 9)), ("sub", .string "carol"),
      ("groups", .array [.string "nodewe-admin"])])]

attribute [local instance] noKeys

/-- The token authenticates the administrator `carol`. -/
theorem authenticateRequest_carol (path body : String)
    (hnode : credentialAuthorized aliceStore path body carolToken = false) :
    authenticateRequest oidcState (exampleEnv 1000) aliceStore path body carolToken =
      ⟨true, true, false, some "carol"⟩ := by
  have hadmin : constantTimeEq carolToken oidcState.admin_token = false := by decide +kernel
  have hclaims : oidcState.oidc.bind (validateOidcToken (exampleEnv 1000) carolToken) =
      some ⟨"carol", ["nodewe-admin"]⟩ := by decide +kernel
  unfold authenticateRequest
  rw [hadmin, hnode]
  cases hoidc : oidcState.oidc with
  | none => rw [hoidc] at hclaims; cases hclaims
  | some config =>
    have hgroup : config.admin_group = "nodewe-admin" :=
      congrArg OidcConfig.admin_group (Option.some.inj hoidc).symm
    rw [hoidc, Option.bind_some] at hclaims
    simp only [Bool.false_eq_true, if_false, hclaims, hgroup]
    rfl

/-- `carol` revokes the node `a`. -/
theorem operator_records_named_revoke :
    (∀ record ∈ appended aliceStore
        (serve oidcState (exampleEnv 1000) aliceStore "POST" "/v1/nodes/a/revoke" ""
          carolToken).2, record.actor = some "carol") ↔
    ¬(CancelsTask "POST" "/v1/nodes/a/revoke" ∧
        (authenticateRequest oidcState (exampleEnv 1000) aliceStore "/v1/nodes/a/revoke" ""
          carolToken).admin = true ∧ "carol" ≠ "admin") ∧
      ¬(RedeemsGrant "POST" "/v1/nodes/a/revoke" ∧
        (jsonField "" "node_id").getD "" ≠ "carol") := by
  have hauth := authenticateRequest_carol "/v1/nodes/a/revoke" "" (by decide +kernel)
  refine operator_records_named_iff oidcState (exampleEnv 1000) aliceStore "POST"
    "/v1/nodes/a/revoke" "" carolToken "carol" ?_ ?_ ?_
  · rw [hauth]
  · rw [hauth]
    decide +kernel
  · simp only [serve, routeWithActor, hauth]
    decide +kernel

/-- `carol` cancels the task `t`, and the record names `admin`. -/
theorem operator_records_not_named :
    authenticateRequest oidcState (exampleEnv 1000) aliceStore "/v1/tasks/t/cancel" ""
        carolToken = ⟨true, true, false, some "carol"⟩ ∧
      (routedArm "POST" "/v1/tasks/t/cancel" "" true true (some "carol")).isAgent = false ∧
      (serve oidcState (exampleEnv 1000) aliceStore "POST" "/v1/tasks/t/cancel" ""
        carolToken).1.status.isSuccess = true ∧
      (appended aliceStore (serve oidcState (exampleEnv 1000) aliceStore "POST"
        "/v1/tasks/t/cancel" "" carolToken).2).map Activity.actor = [some "admin"] := by
  have hauth := authenticateRequest_carol "/v1/tasks/t/cancel" "" (by decide +kernel)
  refine ⟨hauth, by decide +kernel, ?_, ?_⟩
  · simp only [serve, routeWithActor, hauth]
    decide +kernel
  · simp only [serve, routeWithActor, hauth]
    decide +kernel

end Example

end NodeWe.ControlPlane
