import NodeWe.ControlPlane.Requests

/-!
# Revocation is final

Once a node is revoked, every state of the system that comes later has it revoked and offline, with
all its tasks over (`Dead`), whatever was in flight and whether or not the process restarts. So
nothing that names the node changes the store, and no token is its credential.
-/

namespace NodeWe.ControlPlane

open Text InPlace Transition

/-! ## A dead node -/

/-- A node is revoked and offline, its tasks are over, and there are `k` of them. -/
structure Dead (id : String) (k : ℕ) (store : Store) : Prop where
  known : ∃ node ∈ store.nodes, node.id = id
  revoked : ∀ node ∈ store.nodes, node.id = id → node.revoked = true ∧ node.online = false
  ended : ∀ task ∈ store.tasks, task.node_id = id → task.state ∈ terminalStates
  count : (store.tasks.map Task.node_id).count id = k

section Dead

variable [Serde] {id : String} {k : ℕ} {st : State} {env : Env} {store new : Store} {arm : Arm}
  {response : Response}

/-- A node that is revoked and offline stays so. -/
theorem NodeStep.revoked_stays {node node' : Node} (h : NodeStep env arm node node')
    (hdead : node.revoked = true ∧ node.online = false) :
    node'.revoked = true ∧ node'.online = false := by
  have hlive (hlive : node.revoked = false) : False := by
    rw [hdead.1] at hlive
    cases hlive
  cases h with
  | same => exact hdead
  | revoked id actor node hid => exact ⟨rfl, rfl⟩
  | rotated id actor node credential hid hlive' => exact (hlive hlive').elim
  | beaten body abilities node hid hlive' => exact (hlive hlive').elim
  | marked body node hid hlive' => exact (hlive hlive').elim

/-- A task that is over stays as it is. -/
theorem TaskStep.over_stays {task task' : Task} (h : TaskStep env arm task task')
    (hover : task.state ∈ terminalStates) : task' = task := by
  have hqueued : task.state ≠ "queued" := by
    intro hstate
    rw [hstate] at hover
    exact absurd hover (by decide)
  have hdispatched : task.state ≠ "dispatched" := by
    intro hstate
    rw [hstate] at hover
    exact absurd hover (by decide)
  cases h with
  | same => rfl
  | cancelled path actor task htarget hallowed hlive => exact absurd hover hlive
  | revoked id actor task hlive => simp [liveOn, hqueued, hdispatched] at hlive
  | leased path node_id k token task hquery hclaim => simp [claimable, hqueued, hdispatched] at hclaim
  | completed path body upload task hparsed htarget haccepted =>
    exact absurd (refusedResult_none haccepted).dispatched hdispatched

variable [Ed25519]

/-- The nodes of the tasks stay, and that of a new task goes behind them. -/
theorem Effect.task_nodes (h : Effect st env store arm response new) :
    new.tasks.map Task.node_id = store.tasks.map Task.node_id ∨
      ∃ body actor req, Accepts st env body actor store req ∧
        new.tasks.map Task.node_id = store.tasks.map Task.node_id ++ [req.node_id] := by
  rcases h.tasks_length with hlength | ⟨body, actor, req, -, haccepts, htasks⟩
  · exact .inl (h.tasks_evolve.map_eq (fun _ _ hstep => hstep.node_id) hlength)
  · exact .inr ⟨body, actor, req, haccepts, by rw [htasks, List.map_append]; rfl⟩

omit [Ed25519] in
/-- No task is created for a dead node. -/
theorem Dead.not_accepts {body : String} {actor : Option String} {req : TaskRequest}
    (h : Dead id k store) (haccepts : Accepts st env body actor store req) : req.node_id ≠ id := by
  intro hid
  obtain ⟨node, hnode, hnode_id, hfresh⟩ := haccepts.node_mem
  obtain ⟨hrevoked, -⟩ := h.revoked node hnode (hnode_id.trans hid)
  simp [nodeIsFresh, hrevoked] at hfresh

/-- A dead node stays dead. -/
theorem Effect.dead (h : Effect st env store arm response new) (hdead : Dead id k store) :
    Dead id k new where
  known := by
    obtain ⟨node, hnode, hid⟩ := hdead.known
    obtain ⟨i, hi⟩ := List.getElem?_of_mem hnode
    obtain ⟨node', hnode', hstep⟩ := h.nodes_evolve i node hi
    exact ⟨node', List.mem_of_getElem? hnode', hstep.id.trans hid⟩
  revoked := by
    intro node' hnode' hid
    rcases h.mem_nodes hnode' with ⟨node, hnode, hstep⟩ | ⟨body, -, henrols⟩
    · exact hstep.revoked_stays (hdead.revoked node hnode (hstep.id.symm.trans hid))
    · -- An identifier is enrolled once.
      obtain ⟨node, hnode, hnode_id⟩ := hdead.known
      exact absurd (hnode_id.trans hid.symm) (henrols.fresh_id node hnode)
  ended := by
    intro task' htask' hid
    rcases h.mem_tasks htask' with ⟨task, htask, hstep⟩ | ⟨body, actor, req, -, haccepts, rfl⟩
    · have hover := hdead.ended task htask (hstep.node_id.symm.trans hid)
      rwa [hstep.over_stays hover]
    · exact absurd hid (hdead.not_accepts haccepts)
  count := by
    rcases h.task_nodes with hsame | ⟨body, actor, req, haccepts, hnew⟩
    · rw [hsame]
      exact hdead.count
    · rw [hnew, List.count_append, hdead.count,
        List.count_singleton, if_neg (by simpa using hdead.not_accepts haccepts), Nat.add_zero]

omit [Ed25519] in
/-- A dead node is dead after a restart. -/
theorem Dead.reloaded (h : Dead id k store) (hstore : WellFormed store) (env : Env) :
    Dead id k (reloadedStore env store) where
  known := by
    obtain ⟨node, hnode, hid⟩ := h.known
    refine ⟨reloadedNode env node, List.mem_map_of_mem hnode, ?_⟩
    rw [reloadedNode, clean_of_valid (hstore.nodes node hnode)]
    exact hid
  revoked := by
    intro node' hnode' hid
    obtain ⟨node, hnode, rfl⟩ := List.mem_map.mp hnode'
    rw [reloadedNode, clean_of_valid (hstore.nodes node hnode)] at hid
    obtain ⟨hrevoked, honline⟩ := h.revoked node hnode hid
    refine ⟨hrevoked, ?_⟩
    rw [reloadedNode, honline]
    rfl
  ended := by
    intro task' htask' hid
    obtain ⟨task, htask, rfl⟩ := List.mem_map.mp htask'
    rw [reloadedTask, clean_of_valid (hstore.tasks task htask)] at hid
    have hover := h.ended task htask hid
    have hclean : ∀ state ∈ terminalStates, clean state = state := by decide
    rw [reloadedTask, hclean _ hover]
    exact hover
  count := by
    have hnodes : (reloadedStore env store).tasks.map Task.node_id =
        store.tasks.map Task.node_id := by
      rw [reloadedStore, List.map_map]
      exact List.map_congr_left fun task htask => clean_of_valid (hstore.tasks task htask)
    rw [hnodes]
    exact h.count

/-- What an agent's request for a dead node can do. -/
theorem Effect.dead_agent (h : Effect st env store arm response new) (hdead : Dead id k store)
    (hagent : arm.isAgent = true) (hacts : arm.actsOn = some id) : new = store := by
  have hfresh {path : String} (hpolls : Polls st env path store id) : False := by
    obtain ⟨node, hnode, hlive⟩ := List.any_eq_true.mp hpolls.fresh
    simp only [Bool.and_eq_true, beq_iff_eq, Bool.not_eq_true'] at hlive
    have := (hdead.revoked node hnode hlive.1.1).1
    rw [hlive.1.2] at this
    cases this
  have hbeats {body : String} {node : Node} (htarget : heartbeatTarget body store = .ok node)
      (hid : (jsonField body "node_id").getD "" = id) : False := by
    have hbeats := heartbeatTarget_ok htarget
    have hrevoked := (hdead.revoked node (List.mem_of_find?_eq_some hbeats.found)
      (hbeats.id.trans hid)).1
    rw [hbeats.live] at hrevoked
    cases hrevoked
  cases h with
  | unchanged => rfl
  | nodeBeaten body node abilities htarget =>
    exact (hbeats htarget (Option.some.inj hacts)).elim
  | heartbeatAborted body node htarget => exact (hbeats htarget (Option.some.inj hacts)).elim
  | tasksDispatched path node_id tasks dispatched hpolls =>
    obtain rfl : node_id = id := Option.some.inj (hpolls.query.symm.trans hacts)
    exact (hfresh hpolls).elim
  | dispatchAborted path node_id tasks hpolls =>
    obtain rfl : node_id = id := Option.some.inj (hpolls.query.symm.trans hacts)
    exact (hfresh hpolls).elim
  | resultAccepted path body upload task huploads =>
    have hnode : task.node_id = id := by
      rw [uploadTarget_node (List.find?_some huploads.found),
        parseResultUpload_node huploads.parsed]
      exact Option.some.inj hacts
    have hover := hdead.ended task (List.mem_of_find?_eq_some huploads.found) hnode
    rw [(refusedResult_none huploads.accepted).dispatched] at hover
    exact absurd hover (by decide)
  | _ => exact absurd hagent (by simp [Arm.isAgent])

/-- A revocation that answers 200 leaves the node dead. -/
theorem Effect.revocation {id : String} {actor : Option String}
    (h : Effect st env store (.revokeNode id actor) response new) (hok : response.status = .ok)
    (hstore : WellFormed store) : Dead id ((new.tasks.map Task.node_id).count id) new := by
  have hnew := h.wellFormed hstore
  cases h with
  | unchanged _ _ hread =>
    rw [hok] at hread
    exact absurd (hread (by decide)) Bool.false_ne_true
  | nodeRevoked id actor node hfound =>
    have hid : node.id = id := by simpa using List.find?_some hfound
    have hindex := (List.getElem?_eq_some_iff.mp (getElem?_findIdx hfound)).1
    have hmem : { node with revoked := true, online := false } ∈
        setFirst (fun node => node.id == id) { node with revoked := true, online := false }
          store.nodes := List.mem_of_getElem? (List.getElem?_set_self hindex)
    refine ⟨⟨_, hmem, hid⟩, fun node' hnode' hid' => ?_, fun task' htask' hid' => ?_, rfl⟩
    · obtain rfl := List.inj_on_of_nodup_map hnew.distinct hnode' hmem (hid'.trans hid.symm)
      exact ⟨rfl, rfl⟩
    · obtain ⟨task, htask, rfl⟩ := List.mem_map.mp htask'
      split_ifs at hid' ⊢ with hlive
      · have hcancelled : "cancelled" ∈ terminalStates := by decide
        exact hcancelled
      · have hknown := hstore.states task htask
        simp only [liveOn, hid', beq_self_eq_true, Bool.true_and, Bool.or_eq_true, beq_iff_eq,
          not_or] at hlive
        rcases List.mem_cons.mp hknown with hqueued | hknown
        · exact absurd hqueued hlive.1
        · exact (List.mem_cons.mp hknown).resolve_left hlive.2

end Dead

/-! ## Every later state -/

section Final

variable [Serde] [Ed25519]

/-- What holds in every state after a revocation that left `k` tasks of the node. -/
structure RevokedFor (id : String) (k : ℕ) (now : System) : Prop where
  /-- The node is revoked and offline, its tasks are over, and none was added. -/
  dead : Dead id k now.store
  /-- No heartbeat, poll, or result for the node changes the store, whenever it was
  authenticated. -/
  silent : ∀ st env p response next, Acts now (.handled st env p response) next →
    p.arm.isAgent = true → p.arm.actsOn = some id → next.store = now.store
  /-- No token is accepted as the credential of the node. -/
  refused : ∀ path body presented, namedNode path body = some id →
    credentialAuthorized now.store path body presented = false

/-- A step of the system keeps a dead node dead. -/
theorem Acts.dead {id : String} {k : ℕ} {s t : System} {action : Action} (h : Acts s action t)
    (hstore : WellFormed s.store) (hdead : Dead id k s.store) : Dead id k t.store := by
  cases h with
  | authenticated => exact hdead
  | handled st env p s hpending => exact (p.arm.run_effect st env s.store).dead hdead
  | restarted env s store h =>
    rw [eq_reloadedStore h]
    exact hdead.reloaded hstore env

/-- A step of the system keeps its store well formed. -/
theorem Acts.wellFormed {s t : System} {action : Action} (h : Acts s action t)
    (hstore : WellFormed s.store) : WellFormed t.store :=
  h.happens.invariant hstore fun _ _ _ hs hstep => hstep.wellFormed hs

/-- **Revocation is final.** After a revocation of a node has answered 200, every later state of
every run of the system has it revoked for good. -/
theorem revocation_final {past later : List Action} {before revoked now : System} {st : State}
    {env : Env} {p : Pending} {response : Response} {id : String} {actor : Option String}
    (hpast : Run Acts System.init past before)
    (hrevoke : Acts before (.handled st env p response) revoked)
    (harm : p.arm = .revokeNode id actor) (hok : response.status = .ok)
    (hlater : Run Acts revoked later now) :
    RevokedFor id ((revoked.store.tasks.map Task.node_id).count id) now := by
  have hbefore := (Acts.reachable hpast).wellFormed
  have heffect := hrevoke.effect
  rw [harm] at heffect
  have hnow := hlater.invariant
    (P := fun s => WellFormed s.store ∧
      Dead id ((revoked.store.tasks.map Task.node_id).count id) s.store)
    ⟨heffect.wellFormed hbefore, heffect.revocation hok hbefore⟩
    fun _ _ _ hs hstep => ⟨hstep.wellFormed hs.1, hstep.dead hs.1 hs.2⟩
  refine ⟨hnow.2, fun st env p response next hstep hagent hacts => ?_,
    fun path body presented hnamed => ?_⟩
  · exact hstep.effect.dead_agent hnow.2 hagent hacts
  · rw [Bool.eq_false_iff, Ne, credentialAuthorized_iff]
    rintro ⟨node, hnode, hnamed', -, hlive⟩
    have hid : node.id = id := Option.some.inj (hnamed'.symm.trans hnamed)
    rw [(hnow.2.revoked node hnode hid).1] at hlive
    cases hlive

end Final

section Example

attribute [local instance] exampleParser noKeys

/-- The administrator's request that revokes the node `n1`. -/
def revocationRequest : Arrival := .request "POST" "/v1/nodes/n1/revoke" "" "root"

/-- A poll of `n1` is authenticated, and then the administrator's revocation. -/
def revoking : System :=
  (busy.authenticate exampleState (drawingEnv 3) pollRequest).authenticate exampleState
    (drawingEnv 4) revocationRequest

/-- The revocation as it waits. -/
def waitingRevocation : Pending :=
  (busy.authenticate exampleState (drawingEnv 3) pollRequest).ticketed exampleState (drawingEnv 4)
    revocationRequest

/-- The revocation is handled. -/
def revokedSystem : System := revoking.handle exampleState (drawingEnv 4) waitingRevocation

/-- The poll that was authenticated before is handled after it, and another task is asked for. -/
def laterSystem : System :=
  served (drawingEnv 6) creationRequest (revokedSystem.handle exampleState (drawingEnv 5) waitingPoll)

/-- The node `n1` is enrolled, has one task and is revoked. A poll that was authenticated before, and
another request for a task of the node, come after that. -/
theorem revocation_final_poll : RevokedFor "n1" 1 laterSystem := by
  obtain ⟨r₁, r₂, hbusy⟩ := run_busy
  have hrevoke := Acts.handled exampleState (drawingEnv 4) waitingRevocation revoking
    (List.mem_append_right _ (List.mem_singleton_self _))
  have harm : waitingRevocation.arm = .revokeNode "n1" (some "admin") := by rfl
  have hrevoked : (waitingRevocation.arm.run exampleState (drawingEnv 4)
      revoking.store).1.status = .ok ∧
      (revokedSystem.store.tasks.map Task.node_id).count "n1" = 1 := by decide +kernel
  have hpending : waitingPoll ∈ revokedSystem.pending :=
    List.mem_filter.mpr ⟨List.mem_append_left _ (List.mem_append_right _
      (List.mem_singleton_self _)), by decide⟩
  obtain ⟨r₃, harrive, hhandle⟩ := Acts.served exampleState (drawingEnv 6) creationRequest
    (revokedSystem.handle exampleState (drawingEnv 5) waitingPoll)
  have hlater : Run Acts revokedSystem _ laterSystem :=
    .snoc _ _ _ _ (.snoc _ _ _ _ (.single (.handled exampleState (drawingEnv 5) waitingPoll
      revokedSystem hpending)) harrive) hhandle
  have hfinal := revocation_final (.snoc _ _ _ _ hbusy
    (.authenticated exampleState (drawingEnv 4) revocationRequest _)) hrevoke harm hrevoked.1 hlater
  rwa [show revoking.handle exampleState (drawingEnv 4) waitingRevocation = revokedSystem from rfl,
    hrevoked.2] at hfinal

end Example

end NodeWe.ControlPlane
