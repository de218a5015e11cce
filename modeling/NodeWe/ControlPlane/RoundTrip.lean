import NodeWe.ControlPlane.AuditHistory
import NodeWe.ControlPlane.Disk

/-!
# The snapshot of a reachable store

Reading back what was written loses nothing of a reachable store but the tabs and line ends of the
two free texts that are written as they stand. What is read back is written in the same way again.
-/

namespace NodeWe.ControlPlane

open Text InPlace Transition

/-- A store with its free texts cleaned and its audit records sealed. -/
def normalized (store : Store) : Store where
  nodes := store.nodes.map fun node => { node with name := clean node.name }
  tasks := store.tasks.map fun task => { task with idempotency_key := clean task.idempotency_key }
  audit := sealedRecords store.audit
  grants := store.grants
  approvals := store.approvals

/-! ## Reading back -/

/-- A node of a store that fits reads back but for its name. -/
theorem reloadedNode_fits (env : Env) {node : Node} (hid : validNodeId node.id = true)
    (h : NodeFits node) : reloadedNode env node = { node with name := clean node.name } := by
  have honline : (node.online && !node.revoked) = node.online := by
    cases hrevoked : node.revoked with
    | false => exact Bool.and_true _
    | true => rw [h.offline hrevoked]; rfl
  unfold reloadedNode
  rw [clean_of_valid hid, honline, clean_of_plain h.credential, clean_of_plain h.abilities,
    if_pos h.last_seen]

/-- A limit within its bounds reads back. -/
theorem reloadedLimit_of_range {value max default : ℕ} (h : 0 < value ∧ value ≤ max) :
    reloadedLimit value max default = value := if_pos h

/-- The exit code of a task is an `i32`. -/
def ExitFits (task : Task) : Prop := ∀ code ∈ task.exit_code, -2^31 ≤ code ∧ code < 2^31

/-- An exit code that fits reads back. -/
theorem ExitFits.filter {task : Task} (h : ExitFits task) :
    (task.exit_code.filter fun code => -2^31 ≤ code ∧ code < 2^31) = task.exit_code := by
  cases hcode : task.exit_code with
  | none => rfl
  | some code => exact Option.filter_some_pos (decide_eq_true (h code hcode))

/-- A task of a store that fits reads back but for its idempotency key. -/
theorem reloadedTask_fits {task : Task} (hnode : validNodeId task.node_id = true)
    (hstate : task.state ∈ taskStates) (h : TaskFits task) :
    reloadedTask task = { task with idempotency_key := clean task.idempotency_key } := by
  have hstate : clean task.state = task.state := by
    have hplain : ∀ state ∈ taskStates, clean state = state := by decide
    exact hplain task.state hstate
  have hexit := ExitFits.filter h.exit_code
  unfold reloadedTask
  rw [clean_of_plain h.id, clean_of_valid hnode, clean_of_plain h.ability, hstate,
    clean_of_plain h.output_sha256, reloadedLimit_of_range h.output_limit, hexit,
    if_pos h.lease_until, reloadedLimit_of_range h.timeout_ms]

/-- A grant of a store that fits reads back. -/
theorem reloadedGrant_fits {grant : Grant} (h : GrantFits grant) :
    reloadedGrant grant = some grant := by
  rw [reloadedGrant, if_pos h.expires_at, clean_of_plain h.code, clean_of_plain h.signature]

/-- An approval of a store that fits reads back. -/
theorem reloadedApproval_fits {approval : Approval} (h : ApprovalFits approval) :
    reloadedApproval approval = some approval := by
  rw [reloadedApproval, if_pos h.expires_at, clean_of_plain h.id, clean_of_plain h.node_id,
    clean_of_plain h.ability, clean_of_plain h.actor]

/-- A store that fits reads its grants back. -/
theorem reloadedStore_grants [Serde] (env : Env) {store : Store} (h : StoreFits store) :
    (reloadedStore env store).grants = store.grants := by
  unfold reloadedStore
  dsimp only
  rw [List.filterMap_congr fun grant hgrant => reloadedGrant_fits (h.grants grant hgrant)]
  exact List.filterMap_some

/-- A store that fits reads its approvals back. -/
theorem reloadedStore_approvals [Serde] (env : Env) {store : Store} (h : StoreFits store) :
    (reloadedStore env store).approvals = store.approvals := by
  unfold reloadedStore
  dsimp only
  rw [List.filterMap_congr fun approval happroval =>
    reloadedApproval_fits (h.approvals approval happroval)]
  exact List.filterMap_some

/-- A store that fits reads back normalized. -/
theorem reloadedStore_fits [Serde] [Rfc8259] (env : Env) {store : Store}
    (hwell : WellFormed store) (h : StoreFits store) :
    reloadedStore env store = normalized store := by
  have hnodes : store.nodes.map (reloadedNode env) = (normalized store).nodes :=
    List.map_congr_left fun node hnode =>
      reloadedNode_fits env (hwell.nodes node hnode) (h.nodes node hnode)
  have htasks : store.tasks.map reloadedTask = (normalized store).tasks :=
    List.map_congr_left fun task htask =>
      reloadedTask_fits (hwell.tasks task htask) (hwell.states task htask) (h.tasks task htask)
  have hgrants : store.grants.filterMap reloadedGrant = store.grants := reloadedStore_grants env h
  have happrovals : store.approvals.filterMap reloadedApproval = store.approvals :=
    reloadedStore_approvals env h
  have haudit : (auditLines store.audit).filterMap parseActivityLine = sealedRecords store.audit :=
    reloadedStore_audit env h.audit
  unfold reloadedStore
  rw [hnodes, htasks, hgrants, happrovals, haudit]
  rfl

/-! ## Writing again -/

/-- What is clean stays. -/
theorem clean_clean (s : String) : clean (clean s) = clean s := clean_of_plain (plain_clean s)

/-- A normalized store is written like the store. -/
theorem snapshotText_normalized (store : Store) :
    snapshotText (normalized store) = snapshotText store := by
  have hnodes : ((normalized store).nodes.map fun n => row (nodeFields n)) =
      store.nodes.map fun n => row (nodeFields n) := by
    rw [normalized, List.map_map]
    refine List.map_congr_left fun node _ => ?_
    simp only [Function.comp_apply, nodeFields, clean_clean]
  have htasks : ((normalized store).tasks.map fun t => row (taskFields t)) =
      store.tasks.map fun t => row (taskFields t) := by
    rw [normalized, List.map_map]
    refine List.map_congr_left fun task _ => ?_
    simp only [Function.comp_apply, taskFields, clean_clean]
  have haudit : auditJsonl (normalized store).audit = auditJsonl store.audit :=
    auditJsonl_sealed store.audit
  unfold snapshotText
  rw [hnodes, htasks, haudit]
  rfl

/-- `persist_snapshot` builds the text of `snapshot_text`. -/
theorem persistedSnapshot_eq (store : Store) : persistedSnapshot store = snapshotText store := rfl

section Runs

variable [Serde] [Ed25519] [Rfc8259]

variable {events : List Event} {store : Store}

/-- The snapshot of a reachable store is read back. -/
theorem parseSnapshot_of_run (hrun : Run Happens Store.empty events store) (htime : InTime events)
    (env : Env) : parseSnapshot env (snapshotText store) = .ok (some (normalized store)) := by
  have hfits := StoreFits.of_run hrun htime
  have hwell : WellFormed store := Reachable.wellFormed ⟨events, hrun⟩
  rw [parseSnapshot_fits env hfits.audit, reloadedStore_fits env hwell hfits]

/-- **Every reachable store survives its snapshot.** -/
theorem snapshot_round_trip (hrun : Run Happens Store.empty events store) (htime : InTime events)
    (env : Env) : parseSnapshot env (snapshotText store) = .ok (some (normalized store)) ∧
      snapshotText (normalized store) = snapshotText store ∧
      persistedSnapshot store = snapshotText store :=
  ⟨parseSnapshot_of_run hrun htime env, snapshotText_normalized store, persistedSnapshot_eq store⟩

end Runs

section Example

attribute [local instance] compactSerde rfc8259_compactSerde noKeys

/-- A process that asks for approval records. -/
def recordState : State := { exampleState with require_approval_records := true }

/-- The administrator enrols the node `n1`, creates a grant and approves a command on the node, which
runs under the approval. The request is named like its task and its actor. -/
def recordedCalls : List (Env × Arm) :=
  [(exampleEnv 0, .createNode exampleBodies.1 none), (exampleEnv 0, .createGrant none),
    (exampleEnv 0, .createApproval ("\x7b\"node_id\":\"n1\",\"ability\":\"task.exec\"," ++
      "\"actor\":\"task_0_7_2\"\x7d") none),
    ({ exampleEnv 0 with sequence := fun _ => 2 },
      .createTask ("\x7b\"node_id\":\"n1\",\"ability\":\"task.exec\"," ++
        "\"actor\":\"task_0_7_2\",\"request_id\":\"task_0_7_2\"," ++
        "\"approval_id\":\"approval_0_7_1\"\x7d") none)]

/-- The events of these requests, and the store after them. -/
def recordedRun : List Event × Store := handleAll recordState recordedCalls .empty

/-- The clock of the run fits. -/
theorem inTime_recordedRun : InTime recordedRun.1 := by
  have hclock (n : ℕ) : Env.ClockFits { exampleEnv 0 with sequence := fun _ => n } := by
    intro site
    show 0 + 305000 ≤ u64Max
    decide
  refine inTime_handleAll fun call hcall => ?_
  simp only [recordedCalls, List.mem_cons, List.not_mem_nil, or_false] at hcall
  obtain rfl | rfl | rfl | rfl := hcall
  · exact hclock 1
  · exact hclock 1
  · exact hclock 1
  · exact hclock 2

/-- The store is written and read back. -/
theorem snapshot_round_trip_recorded :
    parseSnapshot (exampleEnv 0) (snapshotText recordedRun.2) =
        .ok (some (normalized recordedRun.2)) ∧
      snapshotText (normalized recordedRun.2) = snapshotText recordedRun.2 ∧
      persistedSnapshot recordedRun.2 = snapshotText recordedRun.2 :=
  snapshot_round_trip (run_handleAll _ _ _) inTime_recordedRun (exampleEnv 0)

example : recordedRun.2.nodes.length = 1 ∧ recordedRun.2.tasks.length = 1 ∧
    recordedRun.2.grants.length = 1 ∧ recordedRun.2.approvals.map Approval.used = [true] := by
  decide +kernel

end Example

end NodeWe.ControlPlane
