import NodeWe.Transition
import NodeWe.ControlPlane.History
import NodeWe.ControlPlane.Reload

/-!
# Runs of the control plane

The store changes when a request that was routed to an arm is handled, and when the process writes
it to a snapshot and starts from there. A run starts from the empty store. What every reachable
store satisfies (`WellFormed`) is what the handlers check when they create a record.
-/

namespace NodeWe.ControlPlane

open Text InPlace Transition

/-! ## Events -/

/-- What happens to the store: an arm is run and answers, or the process restarts. -/
inductive Event
  | handled (st : State) (env : Env) (arm : Arm) (response : Response)
  | reloaded (env : Env)

section Events

variable [Serde] [Ed25519]

/-- A request is handled. -/
inductive Handles : Store → Event → Store → Prop
  | handled (st : State) (env : Env) (arm : Arm) (store : Store) :
      Handles store (.handled st env arm (arm.run st env store).1) (arm.run st env store).2

/-- A request is handled, or the store is written and read back. -/
inductive Happens : Store → Event → Store → Prop
  | handled (store store' : Store) (event : Event) (h : Handles store event store') :
      Happens store event store'
  | reloaded (env : Env) (store store' : Store)
      (h : parseSnapshot env (snapshotText store) = .ok (some store')) :
      Happens store (.reloaded env) store'

/-- The stores that a run from the empty store ends in. -/
def Reachable (store : Store) : Prop := ∃ events, Run Happens Store.empty events store

/-- What happens in handling a request is an effect of its arm. -/
theorem Handles.effect {st : State} {env : Env} {arm : Arm} {response : Response}
    {store store' : Store} (h : Handles store (.handled st env arm response) store') :
    Effect st env store arm response store' := by
  cases h
  exact arm.run_effect st env store

omit [Ed25519] in
/-- A reloaded store is what its snapshot reads back as. -/
theorem eq_reloadedStore {env : Env} {store store' : Store}
    (h : parseSnapshot env (snapshotText store) = .ok (some store')) :
    store' = reloadedStore env store := by
  rw [parseSnapshot_snapshotText, Except.ok.injEq] at h
  split_ifs at h
  exact (Option.some.inj h).symm

/-- A reachable store stays reachable. -/
theorem Reachable.step {store store' : Store} {event : Event} (h : Reachable store)
    (hstep : Happens store event store') : Reachable store' := by
  obtain ⟨events, hrun⟩ := h
  exact ⟨events ++ [event], .snoc events store store' event hrun hstep⟩

end Events

/-! ## Well-formed stores -/

/-- The states of a task. -/
def taskStates : List String := "queued" :: "dispatched" :: terminalStates

/-- What every reachable store satisfies. -/
structure WellFormed (store : Store) : Prop where
  states : ∀ task ∈ store.tasks, task.state ∈ taskStates
  nodes : ∀ node ∈ store.nodes, validNodeId node.id = true
  tasks : ∀ task ∈ store.tasks, validNodeId task.node_id = true
  distinct : (store.nodes.map Node.id).Nodup

/-- The empty store is well formed. -/
theorem wellFormed_empty : WellFormed Store.empty :=
  ⟨List.forall_mem_nil _, List.forall_mem_nil _, List.forall_mem_nil _, List.nodup_nil⟩

/-- A valid identifier has no tabs and no line ends. -/
theorem clean_of_valid {id : String} (h : validNodeId id = true) : clean id = id := by
  refine clean_of_plain fun c hc => ?_
  simp only [validNodeId, Bool.and_eq_true, List.all_eq_true] at h
  have hgraphic := (h.2 c hc).1
  refine ⟨?_, ?_, ?_⟩ <;> rintro rfl <;> exact absurd hgraphic (by decide)

section Preservation

variable [Serde] {env : Env} {arm : Arm}

/-- A step of a task keeps its state among the known ones. -/
theorem TaskStep.known {task task' : Task} (h : TaskStep env arm task task')
    (hknown : task.state ∈ taskStates) : task'.state ∈ taskStates := by
  have hcancelled : "cancelled" ∈ taskStates := by decide
  have hdispatched : "dispatched" ∈ taskStates := by decide
  cases h with
  | same => exact hknown
  | cancelled path actor task htarget hallowed hlive => exact hcancelled
  | revoked id actor task hlive => exact hcancelled
  | leased path node_id k token task hquery hclaim htoken => exact hdispatched
  | completed path body upload task hparsed htarget haccepted =>
    exact List.mem_cons_of_mem _ (List.mem_cons_of_mem _ (refusedResult_none haccepted).terminal)

/-- A step of a task keeps its node. -/
theorem TaskStep.node_id {task task' : Task} (h : TaskStep env arm task task') :
    task'.node_id = task.node_id := by
  cases h <;> rfl

/-- A step of a node keeps its identifier. -/
theorem NodeStep.id {node node' : Node} (h : NodeStep env arm node node') :
    node'.id = node.id := by
  cases h <;> rfl

variable [Ed25519] {st : State} {store new : Store} {response : Response}

/-- The identifiers of the nodes stay, and a new one goes behind them. -/
theorem Effect.node_ids (h : Effect st env store arm response new) :
    new.nodes.map Node.id = store.nodes.map Node.id ∨
      ∃ body node, Enrols env body store node ∧
        new.nodes.map Node.id = store.nodes.map Node.id ++ [node.id] := by
  rcases h.nodes_length with hlength | ⟨body, node, -, henrols, hnodes⟩
  · exact .inl (h.nodes_evolve.map_eq (fun _ _ hstep => hstep.id) hlength)
  · exact .inr ⟨body, node, henrols, by rw [hnodes, List.map_append, List.map_singleton]⟩

omit [Ed25519] in
/-- A task is created for a node of the store. -/
theorem Accepts.node_mem {body : String} {actor : Option String} {req : TaskRequest}
    (h : Accepts st env body actor store req) :
    ∃ node ∈ store.nodes, node.id = req.node_id ∧ nodeIsFresh st env node = true := by
  have hallowed := h.allowed
  unfold refusedByPolicy at hallowed
  split_ifs at hallowed with hfresh
  simpa using hfresh

/-- An effect keeps the store well formed. -/
theorem Effect.wellFormed (h : Effect st env store arm response new) (hstore : WellFormed store) :
    WellFormed new where
  states := by
    intro task' htask'
    rcases h.mem_tasks htask' with ⟨task, htask, hstep⟩ | ⟨body, actor, req, -, -, rfl⟩
    · exact hstep.known (hstore.states task htask)
    · exact List.mem_cons_self
  nodes := by
    intro node' hnode'
    rcases h.mem_nodes hnode' with ⟨node, hnode, hstep⟩ | ⟨body, -, henrols⟩
    · rw [hstep.id]
      exact hstore.nodes node hnode
    · exact henrols.valid_id
  tasks := by
    intro task' htask'
    rcases h.mem_tasks htask' with ⟨task, htask, hstep⟩ | ⟨body, actor, req, -, haccepts, rfl⟩
    · rw [hstep.node_id]
      exact hstore.tasks task htask
    · obtain ⟨node, hnode, hid, -⟩ := haccepts.node_mem
      have hvalid := hstore.nodes node hnode
      rwa [hid] at hvalid
  distinct := by
    rcases h.node_ids with hids | ⟨body, node, henrols, hids⟩
    · rw [hids]
      exact hstore.distinct
    · rw [hids]
      refine List.Nodup.append hstore.distinct (List.nodup_singleton _) ?_
      rw [List.disjoint_singleton]
      intro hmem
      obtain ⟨other, hother, hid⟩ := List.mem_map.mp hmem
      exact henrols.fresh_id other hother hid

omit [Ed25519] in
/-- A store that is read back is well formed. -/
theorem WellFormed.reloaded (h : WellFormed store) (env : Env) :
    WellFormed (reloadedStore env store) where
  states := by
    intro task' htask'
    obtain ⟨task, htask, rfl⟩ := List.mem_map.mp htask'
    have hclean : ∀ state ∈ taskStates, clean state = state := by decide
    have hstate := h.states task htask
    rw [reloadedTask, hclean _ hstate]
    exact hstate
  nodes := by
    intro node' hnode'
    obtain ⟨node, hnode, rfl⟩ := List.mem_map.mp hnode'
    have hvalid := h.nodes node hnode
    rwa [reloadedNode, clean_of_valid hvalid]
  tasks := by
    intro task' htask'
    obtain ⟨task, htask, rfl⟩ := List.mem_map.mp htask'
    have hvalid := h.tasks task htask
    rwa [reloadedTask, clean_of_valid hvalid]
  distinct := by
    have hids : (reloadedStore env store).nodes.map Node.id = store.nodes.map Node.id := by
      rw [reloadedStore, List.map_map]
      exact List.map_congr_left fun node hnode => clean_of_valid (h.nodes node hnode)
    rw [hids]
    exact h.distinct

/-- A step of a run keeps the store well formed. -/
theorem Happens.wellFormed {event : Event} {store' : Store} (h : Happens store event store')
    (hstore : WellFormed store) : WellFormed store' := by
  cases h with
  | handled _ _ _ h =>
    cases h with
    | handled st env arm => exact (arm.run_effect st env store).wellFormed hstore
  | reloaded env _ _ h =>
    rw [eq_reloadedStore h]
    exact hstore.reloaded env

/-- Every reachable store is well formed. -/
theorem Reachable.wellFormed (h : Reachable store) : WellFormed store := by
  obtain ⟨events, hrun⟩ := h
  exact hrun.invariant wellFormed_empty fun _ _ _ hs hstep => hstep.wellFormed hs

end Preservation

/-! ## A small run -/

/-- A body that enrols the node `n1`, and one that creates a task for it. -/
def exampleBodies : String × String :=
  ("\x7b\"node_id\":\"n1\"\x7d", "\x7b\"node_id\":\"n1\",\"ability\":\"system.inspect\"\x7d")

/-- A parser that knows the two bodies. -/
@[reducible] def exampleParser : Serde := tableParser
  [(exampleBodies.1, .object [("node_id", .string "n1")]),
    (exampleBodies.2, .object [("node_id", .string "n1"), ("ability", .string "system.inspect")])]

/-- Surroundings with one random value. -/
def drawingEnv (value : UInt8) : Env :=
  { exampleEnv 0 with random := fun k => if k = 0 then some (Vector.replicate 24 value) else none }

/-- A setting under which a node stays fresh for longer than the lease of a task. -/
def patientState : State := { exampleState with node_online_ttl := some "300000" }

/-- The one token that such surroundings draw. -/
theorem randomToken_drawingEnv {value : UInt8} {k : ℕ} {token : String}
    (h : randomToken (drawingEnv value) k = some token) :
    k = 0 ∧ token = hexEncodeBytes (List.replicate 24 value) := by
  have hdraw : (if k = 0 then some (Vector.replicate 24 value) else none).map
      (fun v => hexEncodeBytes v.toList) = some token := h
  split_ifs at hdraw with hk
  · exact ⟨hk, (Option.some.inj hdraw).symm⟩
  · cases hdraw

section Example

attribute [local instance] exampleParser noKeys

/-- The store after the node `n1` is enrolled. -/
def enrolledStore : Store :=
  ((Arm.createNode exampleBodies.1 none).run exampleState (exampleEnv 0) .empty).2

/-- The store after a task for it is queued. -/
def queuedStore : Store :=
  ((Arm.createTask exampleBodies.2 none).run exampleState (exampleEnv 0) enrolledStore).2

/-- The store after the node polls. -/
def dispatchedStore : Store :=
  ((Arm.agentTasks "/v1/agent/tasks?node_id=n1").run exampleState (exampleEnv 0) queuedStore).2

/-- The two requests are a run. -/
theorem reachable_queuedStore : Reachable queuedStore :=
  have hempty : Reachable Store.empty := ⟨[], .start⟩
  (hempty.step (.handled _ _ _ (.handled _ _ _ _))).step (.handled _ _ _ (.handled _ _ _ _))

example : queuedStore.tasks.map Task.state = ["queued"] ∧
    dispatchedStore.tasks.map Task.state = ["dispatched"] := by decide +kernel

end Example

end NodeWe.ControlPlane
