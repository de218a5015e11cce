import NodeWe.ControlPlane.Fencing

/-!
# What a request hands to the backend

A handler ends with `persist_or_rollback` or does without the backend. So a request hands one store
to the backend at most, and what it answers and leaves behind is a function of whether that store is
persisted (`Moment.hands_or_quiet`).
-/

namespace NodeWe.ControlPlane

open Text InPlace Transition

/-- An environment whose backend answers as it is told. -/
def Env.answering (env : Env) (persist : Store → Bool) : Env := { env with persist := persist }

/-- What a handler does with the backend, as a function of the answer: it does without it, or hands
it a store and ends with `persist_or_rollback`. -/
inductive AsksOnce (before : Store) (run : (Store → Bool) → Response × Store) : Prop
  | never (h : ∀ persist persist', run persist = run persist')
  | once (new : Store) (response : Response)
      (h : ∀ persist, run persist =
        if persist new then (response, new) else (storageUnavailable, before))

section Handlers

variable {before : Store} {f g : (Store → Bool) → Response × Store}

/-- An answer without the backend. -/
theorem AsksOnce.const (out : Response × Store) : AsksOnce before fun _ => out :=
  .never fun _ _ => rfl

/-- A handler that branches before it asks. -/
theorem AsksOnce.ite {c : Prop} [Decidable c] (hf : AsksOnce before f) (hg : AsksOnce before g) :
    AsksOnce before fun persist => if c then f persist else g persist := by
  split_ifs
  · exact hf
  · exact hg

/-- A handler that ends with `persist_or_rollback`. -/
theorem AsksOnce.settles
    (h : ∀ persist, f persist = if persist (f fun _ => true).2 then f fun _ => true
      else (storageUnavailable, before)) : AsksOnce before f :=
  .once _ _ h

variable (st : State) (env : Env) (store : Store) (persist : Store → Bool)

/-- The loop of a poll does not look at the backend. -/
theorem dispatchLoop_answering (node_id : String) (k : ℕ) (tasks : List Task) :
    dispatchLoop (env.answering persist) node_id k tasks = dispatchLoop env node_id k tasks := by
  induction tasks generalizing k with
  | nil => rfl
  | cons task rest ih =>
    unfold dispatchLoop
    rw [ih, ih]
    rfl

/-- Nor does the random source. -/
theorem randomToken_answering (k : ℕ) :
    randomToken (env.answering persist) k = randomToken env k := rfl

/-- Nor does the freshness of a node. -/
theorem nodeIsFresh_answering (node : Node) :
    nodeIsFresh st (env.answering persist) node = nodeIsFresh st env node := rfl

/-- Nor do the refusals of a result. -/
theorem refusedResult_answering (task : Task) (upload : ResultUpload) :
    refusedResult (env.answering persist) task upload = refusedResult env task upload := rfl

/-- Nor do the gates of a new task. -/
theorem refusedByPolicy_answering (req : TaskRequest) :
    refusedByPolicy st (env.answering persist) store req = refusedByPolicy st env store req := rfl

/-- Nor does the gate of its approval. -/
theorem approvalGate_answering (req : TaskRequest) :
    approvalGate st (env.answering persist) store req = approvalGate st env store req := rfl

/-- `revoke_node_as` asks for every node that it finds. -/
theorem revokeNodeAs_asks (id : String) (actor : Option String) :
    AsksOnce store fun persist => revokeNodeAs st (env.answering persist) id actor store := by
  unfold revokeNodeAs
  cases store.nodes.find? fun node => node.id == id with
  | none => exact .const _
  | some node => exact .settles fun persist => rfl

/-- `rotate_node_as` asks for a node that is not revoked, with a new credential. -/
theorem rotateNodeAs_asks (id : String) (actor : Option String) :
    AsksOnce store fun persist => rotateNodeAs st (env.answering persist) id actor store := by
  unfold rotateNodeAs
  simp only [randomToken_answering]
  cases randomToken env 0 with
  | none => exact .const _
  | some credential =>
    cases store.nodes.find? fun node => node.id == id with
    | none => exact .const _
    | some node => exact .ite (.const _) (.settles fun persist => rfl)

/-- `cancel_task_as` asks for a task that has not ended. -/
theorem cancelTaskAs_asks (path : String) (actor : Option String) :
    AsksOnce store fun persist => cancelTaskAs st (env.answering persist) path actor store := by
  unfold cancelTaskAs
  dsimp only
  cases store.tasks.find? fun task => task.id == cancelledTaskId path with
  | none => exact .const _
  | some task => exact .ite (.const _) (.ite (.const _) (.settles fun persist => rfl))

/-- `create_task_as` asks for a request that passes its gates. -/
theorem acceptTask_asks (req : TaskRequest) :
    AsksOnce store fun persist => acceptTask st (env.answering persist) store req := by
  unfold acceptTask
  simp only [refusedByPolicy_answering, approvalGate_answering]
  cases refusedByPolicy st env store req with
  | some refusal => exact .const _
  | none =>
    match approvalGate st env store req with
    | .error refusal => exact .const _
    | .ok (approved, k) => exact .settles fun persist => rfl

/-- `agent_tasks` asks when its loop has dispatched a task. A loop without tasks or without
random bytes does without the backend. -/
theorem agentTasks_asks (path : String) :
    AsksOnce store fun persist => agentTasks st (env.answering persist) path store := by
  unfold agentTasks
  cases queryField path "node_id" with
  | none => exact .const _
  | some node_id =>
    simp only [dispatchLoop_answering, nodeIsFresh_answering]
    refine .ite (.const _) ?_
    match dispatchLoop env node_id 0 store.tasks with
    | (tasks, none) => exact .const _
    | (tasks, some []) => exact .const _
    | (tasks, some (task :: rest)) => exact .settles fun persist => rfl

/-- `create_grant_as` asks for a grant that it has signed. -/
theorem createGrantAs_asks [Ed25519] (actor : Option String) :
    AsksOnce store fun persist => createGrantAs st (env.answering persist) actor store := by
  have hsigned (persist : Store → Bool) (code : String) :
      signGrant (env.answering persist) code ((env.answering persist).now .expiresAt + 300000)
        st.grant_secret = signGrant env code (env.now .expiresAt + 300000) st.grant_secret := rfl
  unfold createGrantAs
  simp only [randomToken_answering, hsigned]
  cases randomToken env 0 with
  | none => exact .const _
  | some code =>
    dsimp only
    cases signGrant env code (env.now .expiresAt + 300000) st.grant_secret with
    | none => exact .const _
    | some signature => exact .settles fun persist => rfl

/-- `revoke_grant_as` asks for every grant that it finds. -/
theorem revokeGrantAs_asks (path : String) (actor : Option String) :
    AsksOnce store fun persist => revokeGrantAs st (env.answering persist) path actor store := by
  unfold revokeGrantAs
  refine .ite (.const _) ?_
  cases store.grants.find? fun grant => grant.code == revokedGrantCode path with
  | none => exact .const _
  | some grant => exact .settles fun persist => rfl

variable [Serde]

/-- `create_node_as` asks for a node that passes its checks. -/
theorem createNodeAs_asks (body : String) (actor : Option String) :
    AsksOnce store fun persist => createNodeAs st (env.answering persist) body actor store := by
  unfold createNodeAs
  simp only [randomToken_answering]
  refine .ite (.const _) (.ite (.const _) (.ite (.const _) (.ite (.const _) ?_)))
  cases randomToken env 0 with
  | none => exact .const _
  | some credential => exact .settles fun persist => rfl

/-- `heartbeat` asks unless it refuses the node or its abilities. -/
theorem heartbeat_asks (body : String) :
    AsksOnce store fun persist => heartbeat st (env.answering persist) body store := by
  unfold heartbeat
  cases heartbeatTarget body store with
  | error refusal => exact .const _
  | ok node =>
    cases (jsonField body "abilities").map normalizeAbilities with
    | none => exact .settles fun persist => rfl
    | some abilities =>
      cases abilities with
      | none => exact .never fun _ _ => rfl
      | some abilities => exact .settles fun persist => rfl

/-- `create_approval_as` asks for an approval that passes its checks. -/
theorem createApprovalAs_asks (body : String) (actor : Option String) :
    AsksOnce store fun persist =>
      createApprovalAs st (env.answering persist) body actor store := by
  unfold createApprovalAs
  refine .ite (.const _) ?_
  cases resolveActor body actor with
  | none => exact .const _
  | some actor => exact .ite (.const _) (.settles fun persist => rfl)

/-- `create_task_as` does not ask for a request that repeats an idempotency key. -/
theorem createTaskAs_asks (body : String) (actor : Option String) :
    AsksOnce store fun persist => createTaskAs st (env.answering persist) body actor store := by
  have hparsed (persist : Store → Bool) :
      parseTaskRequest st (env.answering persist) body actor =
        parseTaskRequest st env body actor := rfl
  unfold createTaskAs
  simp only [hparsed]
  cases parseTaskRequest st env body actor with
  | error refusal => exact .const _
  | ok req =>
    refine .ite ?_ (acceptTask_asks st env store req)
    cases store.tasks.find? fun task => task.idempotency_key == req.idempotency_key with
    | none => exact acceptTask_asks st env store req
    | some existing => exact .ite (.const _) (.const _)

/-- `agent_result` asks for an upload that is not refused. -/
theorem agentResult_asks (path body : String) :
    AsksOnce store fun persist => agentResult st (env.answering persist) path body store := by
  unfold agentResult
  simp only [refusedResult_answering]
  cases parseResultUpload path body with
  | error refusal => exact .const _
  | ok upload =>
    dsimp only
    cases store.tasks.find? (uploadTarget upload) with
    | none => exact .const _
    | some task =>
      dsimp only
      cases refusedResult env task upload with
      | some refusal => exact .const _
      | none => exact .settles fun persist => rfl

/-- `redeem_grant` asks for a grant that it accepts, with a new credential. -/
theorem redeemGrant_asks [Ed25519] (body : String) :
    AsksOnce store fun persist => redeemGrant st (env.answering persist) body store := by
  have hredeemable (persist : Store → Bool) :
      redeemable st (env.answering persist) = redeemable st env := rfl
  unfold redeemGrant
  simp only [randomToken_answering, hredeemable]
  refine .ite (.const _) (.ite (.const _) (.ite (.const _) (.ite (.const _) ?_)))
  cases store.grants.find? _ with
  | none => exact .const _
  | some grant =>
    dsimp only
    cases randomToken env 0 with
    | none => exact .const _
    | some credential => exact .settles fun persist => rfl

/-- **Every arm hands one store to the backend at most.** -/
theorem Arm.asksOnce [Ed25519] (arm : Arm) :
    AsksOnce store fun persist => arm.run st (env.answering persist) store := by
  cases arm with
  | redeemGrant body => exact redeemGrant_asks st env store body
  | createNode body actor => exact createNodeAs_asks st env store body actor
  | createGrant actor => exact createGrantAs_asks st env store actor
  | revokeGrant path actor => exact revokeGrantAs_asks st env store path actor
  | createApproval body actor => exact createApprovalAs_asks st env store body actor
  | createTask body actor => exact createTaskAs_asks st env store body actor
  | cancelTask path actor => exact cancelTaskAs_asks st env store path actor
  | heartbeat body => exact heartbeat_asks st env store body
  | agentTasks path => exact agentTasks_asks st env store path
  | agentResult path body => exact agentResult_asks st env store path body
  | revokeNode id actor => exact revokeNodeAs_asks st env store id actor
  | rotateNode id actor => exact rotateNodeAs_asks st env store id actor
  | _ => exact .never fun _ _ => rfl

end Handlers

/-! ## Requests -/

section Moments

variable [Serde] [Ed25519] {m : Moment}

/-- What a request answers and leaves behind, as a function of the backend. -/
def Moment.answered (m : Moment) (persist : Store → Bool) : Response × Store :=
  m.arm.run m.st (m.env.answering persist) m.before

/-- The request does without the backend. -/
def Moment.Quiet (m : Moment) : Prop := ∀ persist persist', m.answered persist = m.answered persist'

/-- The request hands a store to the backend, and ends with `persist_or_rollback`. -/
def Moment.Hands (m : Moment) (new : Store) : Prop :=
  ∃ response, ∀ persist, m.answered persist =
    if persist new then (response, new) else (storageUnavailable, m.before)

/-- Every request is one or the other. -/
theorem Moment.hands_or_quiet (m : Moment) : m.Quiet ∨ ∃ new, m.Hands new := by
  cases m.arm.asksOnce m.st m.env m.before with
  | never h => exact .inl h
  | once new response h => exact .inr ⟨new, response, h⟩

/-- A request leaves behind the store that the backend has persisted for it. -/
theorem Moment.Hands.after_eq {new : Store} (h : m.Hands new) (hpersist : m.env.persist new = true) :
    m.after = new := by
  obtain ⟨response, hanswered⟩ := h
  have hself : m.answered m.env.persist = m.arm.run m.st m.env m.before := rfl
  rw [Moment.after, ← hself, hanswered, if_pos hpersist]

end Moments

end NodeWe.ControlPlane
