import NodeWe.ControlPlane.Policy

/-!
# What a store is

Every store that a run reaches satisfies one invariant (`Represented`), whatever was rejected, rolled
back, left half done, or written to a snapshot and read back. That the identifiers of tasks and
approvals differ rests on `new_id`: a process numbers what it hands out, and what it hands out has to
differ from what was handed out before it started.
-/

namespace NodeWe.ControlPlane

open Text InPlace Transition

/-! ## The invariant -/

/-- What holds of a node. -/
structure NodeRepresented (node : Node) : Prop where
  id : validNodeId node.id = true
  offline : node.revoked = true → node.online = false
  abilities : AbilityList node.abilities

/-- What holds of a task by itself. The output is a text, so its bytes are valid UTF-8. -/
structure TaskShaped (task : Task) : Prop where
  output : len task.output ≤ min task.output_limit maxPersistedOutputBytes
  queued : task.state = "queued" → task.lease_until = 0 ∧ task.lease_token = ""
  dispatched : task.state = "dispatched" → task.lease_token ≠ "" ∧ 0 < task.lease_until

/-- What holds of a task of a store. -/
structure TaskRepresented (store : Store) (task : Task) : Prop extends TaskShaped task where
  node : ∃ node ∈ store.nodes, node.id = task.node_id
  timeout_ms : 1 ≤ task.timeout_ms ∧ task.timeout_ms ≤ 300000
  output_limit : 1 ≤ task.output_limit ∧ task.output_limit ≤ 1048576
  state : task.state ∈ taskStates

/-- What holds of a store. -/
structure Represented (store : Store) : Prop where
  nodes : ∀ node ∈ store.nodes, NodeRepresented node
  distinct : (store.nodes.map Node.id).Nodup
  tasks : ∀ task ∈ store.tasks, TaskRepresented store task

/-! ## Truncation -/

/-- What is kept of a text has at most as many bytes as there is room. -/
theorem sum_truncateChars_le (room : ℕ) (cs : List Char) :
    ((truncateChars room cs).map Char.utf8Size).sum ≤ room := by
  induction cs generalizing room with
  | nil => exact Nat.zero_le room
  | cons c cs ih =>
    rw [truncateChars]
    split_ifs with hroom
    · have hrest := ih (room - c.utf8Size)
      rw [List.map_cons, List.sum_cons]
      omega
    · exact Nat.zero_le room

/-- A truncated text is within its bound. -/
theorem len_truncateUtf8_le (value : String) (max_bytes : ℕ) :
    len (truncateUtf8 value max_bytes) ≤ max_bytes := by
  unfold truncateUtf8
  split_ifs with hfits
  · exact hfits
  · rw [len_ofList]
    exact sum_truncateChars_le max_bytes value.toList

/-! ## One request -/

/-- A token is not empty. -/
theorem randomToken_ne_empty {env : Env} {k : ℕ} {token : String}
    (h : randomToken env k = some token) : token ≠ "" := by
  obtain ⟨v, -, rfl⟩ := Option.map_eq_some_iff.mp h
  intro hempty
  -- A byte has two digits, and there are 24 bytes.
  have hdigits : v.toList.flatMap hexByte = [] := by
    have htext := congrArg String.toList hempty
    rwa [hexEncodeBytes, String.toList_ofList] at htext
  have hbyte := List.flatMap_eq_nil_iff.mp hdigits v[0] (by simp)
  exact absurd hbyte (by simp [hexByte])

section Steps

variable [Serde] {st : State} {env : Env} {arm : Arm}

/-- A step keeps what holds of a task. -/
theorem TaskStep.shaped {task task' : Task} (h : TaskStep env arm task task')
    (hshaped : TaskShaped task) : TaskShaped task' := by
  cases h with
  | same => exact hshaped
  | cancelled | revoked =>
    have hqueued : "cancelled" ≠ "queued" := by decide
    have hdispatched : "cancelled" ≠ "dispatched" := by decide
    exact ⟨hshaped.output, fun h => absurd h hqueued, fun h => absurd h hdispatched⟩
  | leased path node_id k token task hquery hclaim htoken =>
    have hqueued : "dispatched" ≠ "queued" := by decide
    refine ⟨hshaped.output, fun h => absurd h hqueued, fun _ => ?_⟩
    refine ⟨randomToken_ne_empty htoken, ?_⟩
    show 0 < env.now (.lease task.id) + max task.timeout_ms defaultTaskTimeoutMs + 5000
    omega
  | completed path body upload task hparsed htarget haccepted =>
    -- The state that is reported is terminal.
    have hterminal := (refusedResult_none haccepted).terminal
    refine ⟨len_truncateUtf8_le _ _, fun h => ?_, fun h => ?_⟩
    · have h : upload.state = "queued" := h
      rw [h] at hterminal
      exact absurd hterminal (by decide)
    · have h : upload.state = "dispatched" := h
      rw [h] at hterminal
      exact absurd hterminal (by decide)

omit [Serde] in
/-- What holds of a task that is queued. -/
theorem shaped_queuedTask (req : TaskRequest) : TaskShaped (queuedTask st env req) := by
  have hdispatched : "queued" ≠ "dispatched" := by decide
  exact ⟨Nat.zero_le _, fun _ => ⟨rfl, rfl⟩, fun h => absurd h hdispatched⟩

/-- A step keeps the abilities of a node a list of supported ones. -/
theorem NodeStep.abilityList {node node' : Node} (h : NodeStep env arm node node')
    (hnode : AbilityList node.abilities) : AbilityList node'.abilities := by
  cases h with
  | beaten body abilities node hid hlive habilities =>
    cases abilities with
    | none => exact hnode
    | some negotiated =>
      obtain ⟨raw, -, hnormalized⟩ := Option.map_eq_some_iff.mp habilities
      exact abilityList_of_normalizeAbilities hnormalized
  | _ => exact hnode

/-- What the other invariants leave open: the shapes of the tasks, the nodes that they name, and the
abilities of the nodes. -/
structure Shaped (store : Store) : Prop where
  abilities : ∀ node ∈ store.nodes, AbilityList node.abilities
  tasks : ∀ task ∈ store.tasks, TaskShaped task
  placed : ∀ task ∈ store.tasks, task.node_id ∈ store.nodes.map Node.id

variable [Ed25519] {store new : Store} {response : Response}

/-- A request drops no node. -/
theorem Effect.node_ids_subset (h : Effect st env store arm response new) :
    store.nodes.map Node.id ⊆ new.nodes.map Node.id := by
  rcases h.node_ids with hids | ⟨body, node, -, hids⟩
  · rw [hids]
    exact List.Subset.refl _
  · rw [hids]
    exact List.subset_append_left _ _

/-- A request keeps what the other invariants leave open. -/
theorem Effect.shaped (h : Effect st env store arm response new) (hshaped : Shaped store) :
    Shaped new where
  abilities := by
    intro node' hnode'
    rcases h.mem_nodes hnode' with ⟨node, hnode, hstep⟩ | ⟨body, -, henrols⟩
    · exact hstep.abilityList (hshaped.abilities node hnode)
    · rw [henrols.made]
      exact abilityList_default
  tasks := by
    intro task' htask'
    rcases h.mem_tasks htask' with ⟨task, htask, hstep⟩ | ⟨body, actor, req, -, -, rfl⟩
    · exact hstep.shaped (hshaped.tasks task htask)
    · exact shaped_queuedTask req
  placed := by
    intro task' htask'
    apply h.node_ids_subset
    rcases h.mem_tasks htask' with ⟨task, htask, hstep⟩ | ⟨body, actor, req, -, haccepts, rfl⟩
    · rw [hstep.node_id]
      exact hshaped.placed task htask
    · obtain ⟨node, hnode, hid, -⟩ := haccepts.node_mem
      exact List.mem_map.mpr ⟨node, hnode, hid⟩

omit [Serde] [Ed25519] in
/-- A restart keeps what the other invariants leave open. -/
theorem Shaped.normalized (hshaped : Shaped store) : Shaped (normalized store) where
  abilities := by
    intro node' hnode'
    obtain ⟨node, hnode, rfl⟩ := List.mem_map.mp hnode'
    exact hshaped.abilities node hnode
  tasks := by
    intro task' htask'
    obtain ⟨task, htask, rfl⟩ := List.mem_map.mp htask'
    have htask := hshaped.tasks task htask
    exact ⟨htask.output, htask.queued, htask.dispatched⟩
  placed := by
    intro task' htask'
    obtain ⟨task, htask, rfl⟩ := List.mem_map.mp htask'
    obtain ⟨node, hnode, hid⟩ := List.mem_map.mp (hshaped.placed task htask)
    exact List.mem_map.mpr ⟨_, List.mem_map_of_mem hnode, hid⟩

/-! ## Identifiers -/

/-- The call of `new_id` in a request that adds a task or an approval: the prefix and the place. -/
def Event.call : Event → Option (State × Env × String × Site)
  | handled st env (.createTask _ _) response =>
    if response.status = .accepted then some (st, env, "task", .taskId) else none
  | handled st env (.createApproval _ _) response =>
    if response.status = .created then some (st, env, "approval", .approvalId) else none
  | _ => none

/-- The identifier that it hands out. -/
def Event.newId (event : Event) : Option String :=
  event.call.map fun (st, env, pre, site) => ControlPlane.newId st env pre site

/-- The number that `NEXT_ID` gives it. -/
def Event.sequence (event : Event) : Option ℕ :=
  event.call.map fun (_, env, _, site) => env.sequence site

/-- A restart. -/
def Event.isReload : Event → Bool
  | handled _ _ _ _ => false
  | reloaded _ => true

/-- The identifiers that are handed out in each process, from the first one to the last. -/
def newIdsByProcess (events : List Event) : List (List String) :=
  (events.splitOnP Event.isReload).map fun process => process.filterMap Event.newId

/-- How `new_id` is used: `NEXT_ID` hands out no number twice in one process, and no identifier of a
process is handed out again after a restart. -/
structure NewIdsDiffer (events : List Event) : Prop where
  counted : ∀ process ∈ events.splitOnP Event.isReload, (process.filterMap Event.sequence).Nodup
  restarts : (newIdsByProcess events).Pairwise List.Disjoint

omit [Serde] [Ed25519] in
/-- Numbers are written apart. -/
theorem toDigits_inj {b : ℕ} (hb : 1 < b)
    (hdigit : ∀ n < b, ∀ m < b, n.digitChar = m.digitChar → n = m) {n m : ℕ}
    (h : Nat.toDigits b n = Nat.toDigits b m) : n = m := by
  induction n using Nat.strong_induction_on generalizing m with
  | _ n ih =>
    rw [Nat.toDigits_eq_if (n := n) hb, Nat.toDigits_eq_if (n := m) hb] at h
    -- A number of one digit is none of several, and several digits are those in front and the last.
    split_ifs at h with hn hm hm
    · exact hdigit n hn m hm (List.singleton_inj.mp h)
    · have hsingle : [] ++ [n.digitChar] = Nat.toDigits b (m / b) ++ [(m % b).digitChar] := h
      exact absurd (List.append_inj_left' hsingle rfl).symm Nat.toDigits_ne_nil
    · have hsingle : Nat.toDigits b (n / b) ++ [(n % b).digitChar] = [] ++ [m.digitChar] := h
      exact absurd (List.append_inj_left' hsingle rfl) Nat.toDigits_ne_nil
    · obtain ⟨hfront, hlast⟩ := List.append_inj' h rfl
      have hquotient : n / b = m / b := ih (n / b) (Nat.div_lt_self (by omega) hb) hfront
      have hremainder : n % b = m % b :=
        hdigit _ (Nat.mod_lt _ (by omega)) _ (Nat.mod_lt _ (by omega)) (List.singleton_inj.mp hlast)
      rw [← Nat.div_add_mod n b, hquotient, hremainder, Nat.div_add_mod]

omit [Serde] [Ed25519] in
/-- Equal identifiers have equal numbers: the number is what stands behind the last underscore. -/
theorem sequence_of_newId {st st' : State} {env env' : Env} {pre pre' : String} {site site' : Site}
    (h : newId st env pre site = newId st' env' pre' site') :
    env.sequence site = env'.sequence site' := by
  have hlast (front : String) (n : ℕ) :
      splitOnce '_' (front ++ "_" ++ hex n).toList.reverse =
        some ((hex n).toList.reverse, front.toList.reverse) := by
    have hdigits : '_' ∉ (hex n).toList.reverse := by
      rw [List.mem_reverse, hex, String.toList_ofList]
      intro hmem
      obtain ⟨d, hd, hchar⟩ := mem_toDigits (by norm_num) hmem
      interval_cases d <;> exact absurd hchar (by decide)
    have htext : (front ++ "_" ++ hex n).toList.reverse =
        (hex n).toList.reverse ++ '_' :: front.toList.reverse := by
      rw [String.toList_append, String.toList_append]
      simp
    rw [htext, splitOnce_cons hdigits]
  unfold newId at h
  have hsplit : splitOnce '_' (_ : String).toList.reverse =
      splitOnce '_' (_ : String).toList.reverse :=
    congrArg (fun id => splitOnce '_' id.toList.reverse) h
  rw [hlast, hlast, Option.some.injEq, Prod.mk.injEq, List.reverse_inj] at hsplit
  have hhex := hsplit.1
  rw [hex, hex, String.toList_ofList, String.toList_ofList] at hhex
  exact toDigits_inj (by norm_num) (by decide) hhex

omit [Serde] [Ed25519] in
/-- The identifiers of all processes are those of the run. -/
theorem flatten_newIdsByProcess (events : List Event) :
    (newIdsByProcess events).flatten = events.filterMap Event.newId := by
  unfold newIdsByProcess
  induction events with
  | nil => rfl
  | cons event rest ih =>
    rw [List.splitOnP_cons_eq_if_modifyHead]
    cases event with
    | reloaded env =>
      rw [show (Event.reloaded env).isReload = true from rfl, if_pos rfl, List.map_cons,
        List.flatten_cons, ih]
      rfl
    | handled st env arm response =>
      obtain ⟨process, others, hprocesses⟩ :=
        List.exists_cons_of_ne_nil (List.splitOnP_ne_nil Event.isReload rest)
      rw [hprocesses, List.map_cons, List.flatten_cons] at ih
      rw [show (Event.handled st env arm response).isReload = false from rfl,
        if_neg Bool.false_ne_true, hprocesses, List.modifyHead_cons, List.map_cons,
        List.flatten_cons, List.filterMap_cons, List.filterMap_cons, ← ih]
      cases (Event.handled st env arm response).newId <;> rfl

omit [Serde] [Ed25519] in
/-- No identifier is handed out twice. -/
theorem NewIdsDiffer.nodup {events : List Event} (h : NewIdsDiffer events) :
    (events.filterMap Event.newId).Nodup := by
  rw [← flatten_newIdsByProcess, List.nodup_flatten]
  refine ⟨List.forall_mem_map.mpr fun process hprocess => ?_, h.restarts⟩
  -- In one process, equal identifiers come from one number.
  have hcounted := h.counted process hprocess
  rw [List.Nodup, List.pairwise_filterMap] at hcounted ⊢
  refine hcounted.imp fun {event event'} hne id hid id' hid' hsame => ?_
  obtain ⟨⟨st, env, pre, site⟩, hcall, rfl⟩ := Option.map_eq_some_iff.mp hid
  obtain ⟨⟨st', env', pre', site'⟩, hcall', rfl⟩ := Option.map_eq_some_iff.mp hid'
  refine hne (env.sequence site) ?_ (env'.sequence site') ?_ (sequence_of_newId hsame)
  · rw [Event.sequence, hcall]
    rfl
  · rw [Event.sequence, hcall']
    rfl

/-- Where nothing restarts there is one process. -/
theorem newIdsDiffer_handleAll {calls : List (Env × Arm)}
    (h : ((handleAll st calls store).1.filterMap Event.sequence).Nodup) :
    NewIdsDiffer (handleAll st calls store).1 := by
  have hone : ∀ event ∈ (handleAll st calls store).1, event.isReload = false := by
    clear h
    induction calls generalizing store with
    | nil => exact List.forall_mem_nil _
    | cons call rest ih => exact List.forall_mem_cons.mpr ⟨rfl, ih⟩
  constructor
  · rw [List.splitOnP_eq_singleton hone, List.forall_mem_singleton]
    exact h
  · rw [newIdsByProcess, List.splitOnP_eq_singleton hone]
    exact List.pairwise_singleton _ _

omit [Serde] [Ed25519] in
/-- The gate keeps the identifiers of the approvals. -/
theorem approvalGate_ids {approved : Store} {req : TaskRequest} {k : ℕ}
    (h : approvalGate st env store req = .ok (approved, k)) :
    approved.approvals.map Approval.id = store.approvals.map Approval.id := by
  by_cases hgated : st.require_approval_records = true ∧
      (req.ability = "task.exec" ∨ req.ability ∈ st.policy.approval_required)
  · obtain ⟨approval_id, approval, hfound, hmarked⟩ := approvalGate_consumes h hgated.1 hgated.2
    rw [hmarked]
    have hsame : Evolves (fun approval approval' : Approval => approval'.id = approval.id)
        store.approvals (setFirst (consumable env req approval_id) { approval with used := true }
          store.approvals) :=
      Evolves.setFirst (R := fun approval approval' : Approval => approval'.id = approval.id)
        (fun _ => rfl) hfound rfl
    exact hsame.map_eq (fun _ _ heq => heq) List.length_set
  · rw [approvalGate_approvals h hgated]

/-- The identifiers of the tasks stay, and a new one goes behind them. -/
theorem Effect.task_ids (h : Effect st env store arm response new) :
    (new.tasks.map Task.id).Sublist
      (store.tasks.map Task.id ++ (Event.newId (.handled st env arm response)).toList) := by
  rcases h.creates with hlength | ⟨body, actor, req, rfl, hcreates⟩
  · rw [h.tasks_evolve.map_eq (fun _ _ hstep => hstep.order.id) hlength]
    exact List.sublist_append_left _ _
  · rw [hcreates.tasks, hcreates.answers, List.map_append]
    exact List.Sublist.refl _

/-- The identifiers of the approvals stay, and a new one goes behind them. -/
theorem Effect.approval_ids (h : Effect st env store arm response new) :
    (new.approvals.map Approval.id).Sublist
      (store.approvals.map Approval.id ++ (Event.newId (.handled st env arm response)).toList) := by
  have hsame : (store.approvals.map Approval.id).Sublist
      (store.approvals.map Approval.id ++ (Event.newId (.handled st env arm response)).toList) :=
    List.sublist_append_left _ _
  cases h with
  | approvalCreated body actor approval happroves =>
    dsimp only
    rw [List.map_append, List.map_singleton, happroves.id]
    exact List.Sublist.refl _
  | taskCreated body actor req approved k haccepts happroved =>
    dsimp only
    rw [approvalGate_ids happroved]
    exact hsame
  | _ => exact hsame

/-! ## Every run -/

/-- The identifiers of a store were handed out by `new_id`, in order. -/
structure IdsDrawn (events : List Event) (store : Store) : Prop where
  tasks : (store.tasks.map Task.id).Sublist (events.filterMap Event.newId)
  approvals : (store.approvals.map Approval.id).Sublist (events.filterMap Event.newId)

variable {events : List Event} {event : Event}

/-- A request keeps the identifiers handed out. -/
theorem IdsDrawn.handled (h : IdsDrawn events store) (hstep : Handles store event new) :
    IdsDrawn (events ++ [event]) new := by
  have hdrawn : (events ++ [event]).filterMap Event.newId =
      events.filterMap Event.newId ++ event.newId.toList := by
    rw [List.filterMap_append]
    cases hid : event.newId with
    | none => rw [List.filterMap_cons_none hid, List.filterMap_nil, Option.toList_none]
    | some id => rw [List.filterMap_cons_some hid, List.filterMap_nil, Option.toList_some]
  cases hstep with
  | handled st env arm =>
    have heffect := arm.run_effect st env store
    constructor
    · rw [hdrawn]
      exact heffect.task_ids.trans (List.Sublist.append h.tasks (List.Sublist.refl _))
    · rw [hdrawn]
      exact heffect.approval_ids.trans (List.Sublist.append h.approvals (List.Sublist.refl _))

omit [Serde] [Ed25519] in
/-- A restart keeps the identifiers handed out. -/
theorem IdsDrawn.normalized (h : IdsDrawn events store) (env : Env) :
    IdsDrawn (events ++ [.reloaded env]) (normalized store) := by
  have hids : (ControlPlane.normalized store).tasks.map Task.id = store.tasks.map Task.id := by
    rw [ControlPlane.normalized, List.map_map]
    rfl
  have hdrawn : (events ++ [Event.reloaded env]).filterMap Event.newId =
      events.filterMap Event.newId := by
    rw [List.filterMap_append]
    exact List.append_nil _
  constructor
  · rw [hids, hdrawn]
    exact h.tasks
  · rw [hdrawn]
    exact h.approvals

variable [Rfc8259]

/-- Every run keeps what the other invariants leave open, and the identifiers handed out. -/
theorem Shaped.of_run (hrun : Run Happens Store.empty events store) (htime : InTime events) :
    Shaped store ∧ IdsDrawn events store := by
  refine (hrun.history (P := fun events store => InTime events →
    (WellFormed store ∧ StoreFits store) ∧ Shaped store ∧ IdsDrawn events store) ?_ ?_ htime).2
  · exact fun _ => ⟨⟨wellFormed_empty, storeFits_empty⟩,
      ⟨List.forall_mem_nil _, List.forall_mem_nil _, List.forall_mem_nil _⟩, ⟨.slnil, .slnil⟩⟩
  · intro events s event t ih hstep htime
    unfold InTime at htime
    rw [List.forall_mem_append, List.forall_mem_singleton] at htime
    obtain ⟨⟨hwell, hfits⟩, hshaped, hdrawn⟩ := ih htime.1
    refine ⟨⟨hstep.wellFormed hwell, hstep.storeFits htime.2 hfits⟩, ?_⟩
    cases hstep with
    | handled _ _ _ h =>
      refine ⟨?_, hdrawn.handled h⟩
      cases h with
      | handled st env arm => exact (arm.run_effect st env s).shaped hshaped
    | reloaded env _ _ h =>
      rw [eq_reloadedStore h, reloadedStore_fits env hwell hfits]
      exact ⟨hshaped.normalized, hdrawn.normalized env⟩

/-- **Every reachable store is represented**, and as long as a process numbers its identifiers and
hands out none of an earlier one, the identifiers of its tasks differ, and so do those of its
approvals. -/
theorem store_represented (hrun : Run Happens Store.empty events store) (htime : InTime events) :
    Represented store ∧ (NewIdsDiffer events →
      (store.tasks.map Task.id).Nodup ∧ (store.approvals.map Approval.id).Nodup) := by
  have hwell : WellFormed store := Reachable.wellFormed ⟨events, hrun⟩
  have hfits := StoreFits.of_run hrun htime
  obtain ⟨hshaped, hdrawn⟩ := Shaped.of_run hrun htime
  refine ⟨⟨fun node hnode => ?_, hwell.distinct, fun task htask => ?_⟩, fun hdiffer => ?_⟩
  · exact ⟨hwell.nodes node hnode, (hfits.nodes node hnode).offline, hshaped.abilities node hnode⟩
  · have htaskfits := hfits.tasks task htask
    obtain ⟨node, hnode, hid⟩ := List.mem_map.mp (hshaped.placed task htask)
    exact ⟨hshaped.tasks task htask, ⟨node, hnode, hid⟩, htaskfits.timeout_ms,
      htaskfits.output_limit, hwell.states task htask⟩
  · exact ⟨hdrawn.tasks.nodup hdiffer.nodup, hdrawn.approvals.nodup hdiffer.nodup⟩

end Steps

/-! ## A small run -/

section Example

attribute [local instance] compactSerde rfc8259_compactSerde noKeys

/-- The store of the run that asks for approval records is represented. -/
theorem store_represented_approved :
    approvedRun.2.tasks.length = 1 ∧ Represented approvedRun.2 ∧
      (approvedRun.2.tasks.map Task.id).Nodup ∧ (approvedRun.2.approvals.map Approval.id).Nodup := by
  obtain ⟨hrepresented, hids⟩ := store_represented (run_handleAll _ _ _) inTime_approvedRun
  have hdiffer : NewIdsDiffer approvedRun.1 := newIdsDiffer_handleAll (by decide +kernel)
  exact ⟨by decide +kernel, hrepresented, hids hdiffer⟩

end Example

end NodeWe.ControlPlane
