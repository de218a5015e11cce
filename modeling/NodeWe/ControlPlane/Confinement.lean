import NodeWe.ControlPlane.Isolation
import NodeWe.ControlPlane.Runs

/-!
# Handlers that name a node

The heartbeat, the poll, the upload, the revocation and the rotation of a node change nothing of
another node, and nothing of another node changes what they do: they give the same answer, and the
same records of their node, on the part of the store that is about the node (`Store.about`). No
handler changes what a node was enrolled with.
-/

namespace NodeWe.ControlPlane

open Text InPlace

/-! ## The part of a store about a node -/

/-- The records of a node. -/
def Store.about (n : String) (store : Store) : Store :=
  { Store.empty with
    nodes := store.nodes.filter fun node => node.id == n
    tasks := store.tasks.filter fun task => task.node_id == n }

/-- Two stores agree on a node and on its tasks. -/
def AgreeOn (n : String) (store store' : Store) : Prop := store.about n = store'.about n

/-- The backend does not tell stores apart that agree on a node. -/
def Env.Persists (env : Env) (n : String) : Prop :=
  ∀ store store', AgreeOn n store store' → env.persist store = env.persist store'

/-- The node that a heartbeat, a poll, an upload, a revocation or a rotation names. -/
def Arm.names [Serde] : Arm → Option String
  | revokeNode id _ | rotateNode id _ => some id
  | arm => arm.actsOn

/-- What a node was enrolled with. -/
structure Registered (node node' : Node) : Prop where
  id : node'.id = node.id
  name : node'.name = node.name
  labels : node'.labels = node.labels
  region : node'.region = node.region
  data_class : node'.data_class = node.data_class
  capacity : node'.capacity = node.capacity

section Views

variable {n : String} {store store' : Store}

/-- The records of a node are about the node. -/
theorem about_about (n : String) (store : Store) : (store.about n).about n = store.about n := by
  unfold Store.about
  dsimp only
  rw [List.filter_filter, List.filter_filter]
  simp only [Bool.and_self]

/-- A lookup of a node finds what it finds among the records of the node. -/
theorem find_about (n : String) (store : Store) :
    (store.about n).nodes.find? (fun node => node.id == n) =
      store.nodes.find? fun node => node.id == n :=
  find?_filter_of_imp (fun _ h => h) store.nodes

/-- Two answers are the same, with the same records of a node. -/
structure SameFor (n : String) (answer answer' : Response × Store) : Prop where
  response : answer.1 = answer'.1
  about : AgreeOn n answer.2 answer'.2

/-- A backend that does not tell two stores apart answers alike, and what is the same in the new
and in the old stores is the same in the stores that are left. -/
theorem persistOrRollback_alike {View : Type} (view : Store → View) {env : Env}
    {new new' : Store} (hpersist : env.persist new = env.persist new')
    (hnew : view new = view new') (hold : view store = view store') (response : Response) :
    (persistOrRollback env new store response).1 =
        (persistOrRollback env new' store' response).1 ∧
      view (persistOrRollback env new store response).2 =
        view (persistOrRollback env new' store' response).2 := by
  unfold persistOrRollback
  rw [hpersist]
  split_ifs
  · exact ⟨rfl, hnew⟩
  · exact ⟨rfl, hold⟩

/-- What is about a node stays the same when both stores are written. -/
theorem SameFor.persistOrRollback {env : Env} {new new' : Store} (henv : env.Persists n)
    (hnew : AgreeOn n new new') (hold : AgreeOn n store store') (response : Response) :
    SameFor n (persistOrRollback env new store response)
      (persistOrRollback env new' store' response) := by
  obtain ⟨hresponse, habout⟩ :=
    persistOrRollback_alike (Store.about n) (henv new new' hnew) hnew hold response
  exact ⟨hresponse, habout⟩

/-- A node replaced is replaced among its records. -/
theorem agreeOn_setFirst (store : Store) (node : Node) (hid : node.id = n)
    (audit audit' : List Activity) :
    AgreeOn n
      { store with
        nodes := setFirst (fun node => node.id == n) node store.nodes
        audit := audit }
      { store.about n with
        nodes := setFirst (fun node => node.id == n) node (store.about n).nodes
        audit := audit' } := by
  have hnode : (node.id == n) = true := beq_iff_eq.mpr hid
  have hfilter (nodes : List Node) :
      (setFirst (fun node => node.id == n) node nodes).filter (fun node => node.id == n) =
        setFirst (fun node => node.id == n) node (nodes.filter fun node => node.id == n) :=
    filter_setFirst (p := fun node : Node => node.id == n) (fun _ h => h) hnode nodes
  unfold AgreeOn Store.about
  dsimp only
  rw [hfilter, hfilter, List.filter_filter, List.filter_filter]
  simp only [Bool.and_self]

/-- What leaves the store as it is leaves the records of a node as they are. -/
theorem SameFor.unchanged (n : String) (store : Store) (response : Response) :
    SameFor n (response, store) (response, store.about n) := ⟨rfl, (about_about n store).symm⟩

end Views

/-! ## The handlers on the records of a node -/

section Handlers

variable {st : State} {env : Env} {n : String} {store : Store}

/-- The loop of `agent_tasks` sees the tasks of the node only. -/
theorem dispatchLoop_filter (env : Env) (n : String) (k : ℕ) (tasks : List Task) :
    dispatchLoop env n k (tasks.filter fun task => task.node_id == n) =
      ((dispatchLoop env n k tasks).1.filter fun task => task.node_id == n,
        (dispatchLoop env n k tasks).2) := by
  have hkeep {task : Task} (rest : List Task) (h : (task.node_id == n) = true) :
      ((task :: rest).filter fun task => task.node_id == n) =
        task :: rest.filter fun task => task.node_id == n :=
    List.filter_cons_of_pos (p := fun task : Task => task.node_id == n) h
  have hdrop {task : Task} (rest : List Task) (h : ¬(task.node_id == n) = true) :
      ((task :: rest).filter fun task => task.node_id == n) =
        rest.filter fun task => task.node_id == n :=
    List.filter_cons_of_neg (p := fun task : Task => task.node_id == n) h
  induction tasks generalizing k with
  | nil => rfl
  | cons task rest ih =>
    by_cases hclaim : claimable env n task = true
    · have hnode : (task.node_id == n) = true := beq_iff_eq.mpr (claimable_node hclaim)
      rw [hkeep _ hnode, dispatchLoop, dispatchLoop, if_pos hclaim, if_pos hclaim]
      cases randomToken env k with
      | none => rw [hkeep _ hnode]
      | some token =>
        have hleased : ((leased env token task).node_id == n) = true := hnode
        dsimp only
        rw [ih (k + 1), hkeep _ hleased]
    · by_cases hnode : (task.node_id == n) = true
      · rw [hkeep _ hnode, dispatchLoop, dispatchLoop, if_neg hclaim,
          if_neg hclaim, ih k]
        dsimp only
        rw [hkeep _ hnode]
      · rw [hdrop _ hnode, dispatchLoop, if_neg hclaim, ih k]
        dsimp only
        rw [hdrop _ hnode]

/-- `agent_tasks` on the records of the node. -/
theorem agentTasks_about {path : String} (hnames : queryField path "node_id" = some n)
    (henv : env.Persists n) :
    SameFor n (agentTasks st env path store) (agentTasks st env path (store.about n)) := by
  have hfresh : (store.about n).nodes.any
        (fun node => node.id == n && !node.revoked && nodeIsFresh st env node) =
      store.nodes.any (fun node => node.id == n && !node.revoked && nodeIsFresh st env node) := by
    unfold Store.about
    dsimp only
    rw [List.any_filter]
    refine congrArg (fun p => store.nodes.any p) (funext fun node => ?_)
    cases node.id == n <;> rfl
  have hloop : dispatchLoop env n 0 (store.about n).tasks = _ :=
    dispatchLoop_filter env n 0 store.tasks
  -- The tasks that the loop leaves are the same among those of the node.
  have hagree (audit audit' : List Activity) : AgreeOn n
      { store with tasks := (dispatchLoop env n 0 store.tasks).1, audit := audit }
      { store.about n with
        tasks := (dispatchLoop env n 0 store.tasks).1.filter fun task => task.node_id == n
        audit := audit' } := by
    unfold AgreeOn Store.about
    dsimp only
    rw [List.filter_filter, List.filter_filter]
    simp only [Bool.and_self]
  unfold agentTasks
  rw [hnames]
  dsimp only
  rw [hfresh, hloop]
  split_ifs
  · exact .unchanged n store _
  · generalize dispatchLoop env n 0 store.tasks = result at hagree ⊢
    obtain ⟨tasks, dispatched⟩ := result
    match dispatched with
    | none => exact ⟨rfl, hagree _ _⟩
    | some [] => exact ⟨rfl, hagree _ _⟩
    | some (task :: rest) =>
      exact .persistOrRollback henv (hagree _ _) (about_about n store).symm _

/-- `revoke_node_as` on the records of the node. -/
theorem revokeNodeAs_about {actor : Option String} (henv : env.Persists n) :
    SameFor n (revokeNodeAs st env n actor store)
      (revokeNodeAs st env n actor (store.about n)) := by
  unfold revokeNodeAs
  rw [find_about]
  cases hfound : store.nodes.find? fun node => node.id == n with
  | none => exact .unchanged n store _
  | some node =>
    have hid : node.id = n := by simpa using List.find?_some hfound
    refine .persistOrRollback henv ?_ (about_about n store).symm _
    have hnodes := congrArg Store.nodes (agreeOn_setFirst store
      { node with revoked := true, online := false } hid [] [])
    have htasks : ((store.tasks.map fun task => if liveOn n task then cancelledTask task else
          task).filter fun task => task.node_id == n) =
        ((store.about n).tasks.map fun task => if liveOn n task then cancelledTask task else
          task).filter fun task => task.node_id == n := by
      have hkeeps : ((fun task : Task => task.node_id == n) ∘ fun task =>
          if liveOn n task then cancelledTask task else task) = fun task => task.node_id == n := by
        funext task
        dsimp only [Function.comp_apply]
        split_ifs <;> rfl
      rw [List.filter_map, List.filter_map, hkeeps]
      unfold Store.about
      dsimp only
      rw [List.filter_filter]
      simp only [Bool.and_self]
    exact congrArg₂ (fun nodes tasks => { Store.empty with nodes := nodes, tasks := tasks }) hnodes
      htasks

/-- `rotate_node_as` on the records of the node. -/
theorem rotateNodeAs_about {actor : Option String} (henv : env.Persists n) :
    SameFor n (rotateNodeAs st env n actor store)
      (rotateNodeAs st env n actor (store.about n)) := by
  unfold rotateNodeAs
  rw [find_about]
  cases randomToken env 0 with
  | none => exact .unchanged n store _
  | some credential =>
    cases hfound : store.nodes.find? fun node => node.id == n with
    | none => exact .unchanged n store _
    | some node =>
      dsimp only
      split_ifs with hrevoked
      · exact .unchanged n store _
      · have hid : node.id = n := by simpa using List.find?_some hfound
        refine .persistOrRollback henv (agreeOn_setFirst store _ ?_ _ _) (about_about n store).symm _
        exact hid

variable [Serde]

/-- `heartbeat` on the records of the node. -/
theorem heartbeat_about {body : String} (hnames : (jsonField body "node_id").getD "" = n)
    (henv : env.Persists n) :
    SameFor n (heartbeat st env body store) (heartbeat st env body (store.about n)) := by
  have htarget : heartbeatTarget body (store.about n) = heartbeatTarget body store := by
    unfold heartbeatTarget
    rw [hnames]
    simp only [find_about]
  unfold heartbeat
  rw [htarget]
  cases hnode : heartbeatTarget body store with
  | error refusal => exact .unchanged n store refusal
  | ok node =>
    have hid : node.id = n := (heartbeatTarget_ok hnode).id.trans hnames
    rw [hnames]
    dsimp only
    split
    · exact ⟨rfl, agreeOn_setFirst store (markedOnline env node) hid _ _⟩
    · refine .persistOrRollback henv (agreeOn_setFirst store _ ?_ _ _) (about_about n store).symm _
      exact hid

/-- `agent_result` on the records of the node. -/
theorem agentResult_about {path body : String}
    (hnames : (jsonField body "node_id").getD "" = n) (henv : env.Persists n) :
    SameFor n (agentResult st env path body store)
      (agentResult st env path body (store.about n)) := by
  unfold agentResult
  cases hparsed : parseResultUpload path body with
  | error refusal => exact .unchanged n store refusal
  | ok upload =>
    have hupload : upload.node_id = n := (parseResultUpload_node hparsed).trans hnames
    have htarget (task : Task) (h : uploadTarget upload task = true) :
        (task.node_id == n) = true := beq_iff_eq.mpr ((uploadTarget_node h).trans hupload)
    have hfind : (store.about n).tasks.find? (uploadTarget upload) =
        store.tasks.find? (uploadTarget upload) := find?_filter_of_imp htarget store.tasks
    dsimp only
    rw [hfind]
    cases hfound : store.tasks.find? (uploadTarget upload) with
    | none => exact .unchanged n store _
    | some task =>
      dsimp only
      split
      · exact .unchanged n store _
      · have hcompleted : ((completed task upload).node_id == n) = true :=
          htarget task (List.find?_some hfound)
        refine .persistOrRollback henv ?_ (about_about n store).symm _
        unfold AgreeOn Store.about
        dsimp only
        rw [filter_setFirst htarget hcompleted, filter_setFirst htarget hcompleted,
          List.filter_filter, List.filter_filter]
        simp only [Bool.and_self]

end Handlers

/-! ## Every handler -/

section Arms

variable [Serde] {st : State} {env : Env} {arm : Arm} {n : String}

/-- A step of a node keeps what it was enrolled with. -/
theorem NodeStep.registered {node node' : Node} (h : NodeStep env arm node node') :
    Registered node node' := by
  cases h <;> exact ⟨rfl, rfl, rfl, rfl, rfl, rfl⟩

/-- What an arm that names a node is. -/
theorem Arm.names_cases (h : arm.names = some n) :
    arm.isAgent = true ∧ arm.actsOn = some n ∨
      ∃ actor, arm = .revokeNode n actor ∨ arm = .rotateNode n actor := by
  cases arm with
  | heartbeat | agentTasks | agentResult => exact .inl ⟨rfl, h⟩
  | revokeNode id actor =>
    obtain rfl : id = n := Option.some.inj h
    exact .inr ⟨actor, .inl rfl⟩
  | rotateNode id actor =>
    obtain rfl : id = n := Option.some.inj h
    exact .inr ⟨actor, .inr rfl⟩
  | _ => cases h

variable [Ed25519] {store new : Store} {response : Response}

/-- A revocation or a rotation stays within the node that it names. -/
theorem Effect.isolated_admin {actor : Option String} (h : Effect st env store arm response new)
    (harm : arm = .revokeNode n actor ∨ arm = .rotateNode n actor) :
    Isolated n store response new where
  nodes := by
    refine h.nodes_evolve.mono fun node node' hstep => ?_
    rcases harm with rfl | rfl
    · cases hstep with
      | same => exact .inr rfl
      | revoked _ _ _ hid => exact .inl ⟨hid, hid⟩
    · cases hstep with
      | same => exact .inr rfl
      | rotated _ _ _ _ hid => exact .inl ⟨hid, hid⟩
  nodes_length := by
    rcases h.nodes_length with hlength | ⟨_, _, ⟨_, rfl⟩ | rfl, -, -⟩
    · exact hlength
    · rcases harm with h | h <;> cases h
    · rcases harm with h | h <;> cases h
  tasks := by
    refine h.tasks_evolve.mono fun task task' hstep => ?_
    rcases harm with rfl | rfl
    · cases hstep with
      | same => exact .inr rfl
      | revoked _ _ _ hlive =>
        have hnode : task.node_id = n := by
          unfold liveOn at hlive
          exact eq_of_beq (Bool.and_eq_true_iff.mp hlive).1
        exact .inl ⟨hnode, hnode⟩
    · cases hstep with
      | same => exact .inr rfl
  tasks_length := by
    rcases h.tasks_length with hlength | ⟨_, _, _, rfl, -, -⟩
    · exact hlength
    · rcases harm with h | h <;> cases h
  audit := h.audit_prefix
  grants := by rcases harm with rfl | rfl <;> cases h <;> rfl
  approvals := by rcases harm with rfl | rfl <;> cases h <;> rfl
  shown := by
    have hnone : response.reply.shownTasks = [] := by
      rcases harm with rfl | rfl
      · cases h with
        | unchanged _ _ hread hshown => exact (hshown rfl).1
        | nodeRevoked => rfl
      · cases h with
        | unchanged _ _ hread hshown => exact (hshown rfl).1
        | nodeRotated => rfl
    rw [hnone]
    exact List.forall_mem_nil _

/-- An arm that names a node answers as it does on the records of the node. -/
theorem Arm.run_about (st : State) (hnames : arm.names = some n) (henv : env.Persists n)
    (store : Store) : SameFor n (arm.run st env store) (arm.run st env (store.about n)) := by
  cases arm with
  | heartbeat body => exact heartbeat_about (Option.some.inj hnames) henv
  | agentTasks path => exact agentTasks_about hnames henv
  | agentResult path body => exact agentResult_about (Option.some.inj hnames) henv
  | revokeNode id actor =>
    obtain rfl : id = n := Option.some.inj hnames
    exact revokeNodeAs_about henv
  | rotateNode id actor =>
    obtain rfl : id = n := Option.some.inj hnames
    exact rotateNodeAs_about henv
  | _ => cases hnames

/-- **No effects across nodes.** No request changes what a node was enrolled with. A heartbeat, a
poll, an upload, a revocation or a rotation that names the node `n` changes no other node and no task
of another node and shows tasks of `n` only, and on stores that agree on `n` it answers alike and
leaves the same records of `n`. -/
theorem no_cross_node_effects (st : State) (env : Env) (arm : Arm) (store : Store) :
    Evolves Registered store.nodes (arm.run st env store).2.nodes ∧
    ∀ n, arm.names = some n →
      Isolated n store (arm.run st env store).1 (arm.run st env store).2 ∧
      (env.Persists n → ∀ store', AgreeOn n store store' →
        SameFor n (arm.run st env store) (arm.run st env store')) := by
  have heffect := arm.run_effect st env store
  refine ⟨heffect.nodes_evolve.mono fun _ _ hstep => hstep.registered, fun n hnames => ⟨?_, ?_⟩⟩
  · rcases Arm.names_cases hnames with ⟨hagent, hacts⟩ | ⟨actor, harm⟩
    · refine heffect.isolated hagent fun m hm => ?_
      rw [hacts] at hm
      exact (Option.some.inj hm).symm
    · exact heffect.isolated_admin harm
  · intro henv store' hagree
    -- Both stores answer as their records of the node do, and these are the same.
    have hleft := Arm.run_about st hnames henv store
    have hright := Arm.run_about st hnames henv store'
    unfold AgreeOn at hagree
    rw [← hagree] at hright
    exact ⟨hleft.response.trans hright.response.symm, hleft.about.trans hright.about.symm⟩

end Arms

/-! ## A small run -/

section Example

attribute [local instance] exampleParser noKeys

/-- A second node does not change what the poll of the first one does. -/
theorem no_cross_node_effects_poll :
    SameFor "n1"
      ((Arm.agentTasks "/v1/agent/tasks?node_id=n1").run exampleState (exampleEnv 0) queuedStore)
      ((Arm.agentTasks "/v1/agent/tasks?node_id=n1").run exampleState (exampleEnv 0)
        { queuedStore with nodes := queuedStore.nodes ++ [exampleNode "n2" "c"] }) := by
  have hnames : (Arm.agentTasks "/v1/agent/tasks?node_id=n1").names = some "n1" := by
    decide +kernel
  have henv : (exampleEnv 0).Persists "n1" := fun _ _ _ => rfl
  refine ((no_cross_node_effects _ _ _ _).2 "n1" hnames).2 henv _ ?_
  unfold AgreeOn
  decide +kernel

end Example

end NodeWe.ControlPlane
