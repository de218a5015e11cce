import NodeWe.ControlPlane.Outcome

/-!
# State changes on record

The specification of the task states asks that every change of a state can be audited. Four of the
handlers that change states append a record for each task that they change. `agent_tasks` appends
one record for the node, which names no task, and none at all when the random source fails halfway.
-/

namespace NodeWe.ControlPlane

open Text InPlace Transition

/-! ## The polling loop at an index -/

section Loop

variable {env : Env} {node_id : String} {tasks : List Task} {task : Task} {k i : ℕ}

/-- The loop dispatches a claimable task when the random source answers for it and for the
claimable tasks before it. -/
theorem dispatchLoop_reaches (h : tasks[i]? = some task)
    (hclaim : claimable env node_id task = true)
    (hdrawn : ∀ j ≤ (tasks.take i).countP (claimable env node_id),
      (randomToken env (k + j)).isSome = true) :
    ∃ token, randomToken env (k + (tasks.take i).countP (claimable env node_id)) = some token ∧
      (dispatchLoop env node_id k tasks).1[i]? = some (leased env token task) := by
  induction tasks generalizing k i with
  | nil => cases h
  | cons first rest ih =>
    rw [dispatchLoop]
    cases i with
    | zero =>
      obtain rfl : first = task := Option.some.inj h
      obtain ⟨token, htoken⟩ := Option.isSome_iff_exists.mp (hdrawn 0 (Nat.zero_le _))
      rw [Nat.add_zero] at htoken
      rw [if_pos hclaim, htoken]
      exact ⟨token, htoken, rfl⟩
    | succ i =>
      by_cases hfirst : claimable env node_id first = true
      · rw [List.take_succ_cons, List.countP_cons_of_pos hfirst] at hdrawn
        obtain ⟨token, htoken⟩ := Option.isSome_iff_exists.mp (hdrawn 0 (Nat.zero_le _))
        rw [Nat.add_zero] at htoken
        have hrest : ∀ j ≤ (rest.take i).countP (claimable env node_id),
            (randomToken env (k + 1 + j)).isSome = true := by
          intro j hj
          have hnext := hdrawn (j + 1) (by omega)
          rwa [show k + 1 + j = k + (j + 1) by omega]
        obtain ⟨token', htoken', hleased⟩ := ih h hrest
        rw [if_pos hfirst, htoken, List.take_succ_cons, List.countP_cons_of_pos hfirst,
          show k + ((rest.take i).countP (claimable env node_id) + 1) =
            k + 1 + (rest.take i).countP (claimable env node_id) by omega]
        exact ⟨token', htoken', hleased⟩
      · rw [List.take_succ_cons, List.countP_cons_of_neg hfirst] at hdrawn
        rw [if_neg hfirst, List.take_succ_cons, List.countP_cons_of_neg hfirst]
        exact ih h hdrawn

/-- The loop leaves a task as it is when the random source fails before it is reached. -/
theorem dispatchLoop_stops {j : ℕ} (h : tasks[i]? = some task)
    (hj : j ≤ (tasks.take i).countP (claimable env node_id))
    (hfails : (randomToken env (k + j)).isSome = false) :
    (dispatchLoop env node_id k tasks).1[i]? = some task := by
  induction tasks generalizing k i j with
  | nil => cases h
  | cons first rest ih =>
    rw [dispatchLoop]
    by_cases hfirst : claimable env node_id first = true
    · rw [if_pos hfirst]
      cases htoken : randomToken env k with
      | none => exact h
      | some token =>
        -- The failure is behind the first task, as the source answered for it.
        have hpos : j ≠ 0 := by
          rintro rfl
          rw [Nat.add_zero, htoken] at hfails
          cases hfails
        cases i with
        | zero =>
          rw [List.take_zero, List.countP_nil] at hj
          omega
        | succ i =>
          rw [List.take_succ_cons, List.countP_cons_of_pos hfirst] at hj
          refine ih (j := j - 1) h (by omega) ?_
          rwa [show k + 1 + (j - 1) = k + j by omega]
    · rw [if_neg hfirst]
      cases i with
      | zero => exact h
      | succ i =>
        rw [List.take_succ_cons, List.countP_cons_of_neg hfirst] at hj
        exact ih h hj hfails

end Loop

/-! ## What is audited -/

/-- Each task whose state a request changes, or which it creates, is named by a record that the
request appends. A task keeps its index. -/
def Audited (store new : Store) : Prop :=
  ∀ (i : ℕ) (task : Task), new.tasks[i]? = some task →
    (store.tasks[i]?).map Task.state ≠ some task.state →
      ∃ record ∈ appended store new, record.task_id = some task.id

/-- A request that leaves the tasks as they were. -/
theorem Audited.of_tasks {store new : Store} (h : new.tasks = store.tasks) :
    Audited store new := by
  intro i task htask hchanged
  rw [← h, htask] at hchanged
  exact absurd rfl hchanged

/-- A request that changes one task and appends a record that names it. -/
theorem Audited.of_setFirst {store new : Store} {p : Task → Bool} {task task' : Task}
    (hfound : store.tasks.find? p = some task) (htasks : new.tasks = setFirst p task' store.tasks)
    (hrecord : ∃ record ∈ appended store new, record.task_id = some task'.id) :
    Audited store new := by
  intro i other hother hchanged
  rw [htasks] at hother
  obtain ⟨hi, -⟩ := List.getElem?_eq_some_iff.mp (getElem?_findIdx hfound)
  rcases eq_or_ne (store.tasks.findIdx p) i with rfl | hne
  · rw [setFirst, List.getElem?_set_self hi, Option.some.injEq] at hother
    rwa [← hother]
  · rw [setFirst, List.getElem?_set_ne hne] at hother
    rw [hother] at hchanged
    exact absurd rfl hchanged

/-- A poll reaches a queued task of the node that it names: the node is fresh, and the random source
answers for the task and for the claimable tasks before it. -/
structure ReachesQueued (st : State) (env : Env) (path node_id : String) (store : Store)
    (i : ℕ) (task : Task) : Prop where
  polls : Polls st env path store node_id
  found : store.tasks[i]? = some task
  node : task.node_id = node_id
  queued : task.state = "queued"
  drawn : ∀ j ≤ (store.tasks.take i).countP (claimable env node_id), (env.random j).isSome = true

/-- A request is a poll that reaches a queued task. -/
def DispatchesQueued (st : State) (env : Env) (arm : Arm) (store : Store) : Prop :=
  ∃ path node_id i task, arm = .agentTasks path ∧ ReachesQueued st env path node_id store i task

section Audit

variable {st : State} {env : Env} {store new : Store} {arm : Arm} {response : Response}

/-- The loop of a poll that reaches no queued task changes no state. -/
theorem dispatchLoop_audited {path node_id : String} (h : Polls st env path store node_id)
    (htasks : new.tasks = (dispatchLoop env node_id 0 store.tasks).1)
    (hnone : ¬DispatchesQueued st env (.agentTasks path) store) : Audited store new := by
  intro i task' htask' hchanged
  have hlength := dispatchLoop_length env node_id 0 store.tasks
  have hi : i < store.tasks.length := by
    rw [htasks] at htask'
    have := (List.getElem?_eq_some_iff.mp htask').1
    omega
  obtain ⟨task, htask⟩ : ∃ task, store.tasks[i]? = some task :=
    ⟨_, List.getElem?_eq_getElem hi⟩
  rw [htask] at hchanged
  rw [htasks] at htask'
  rcases dispatchLoop_getElem? env node_id 0 htask with hsame | ⟨hclaim, token, -, hleased⟩
  · obtain rfl : task = task' := Option.some.inj (hsame.symm.trans htask')
    exact absurd rfl hchanged
  · obtain rfl : leased env token task = task' := Option.some.inj (hleased.symm.trans htask')
    -- A task that was dispatched before stays dispatched, so this one was queued.
    have hqueued : task.state = "queued" := by
      by_contra hqueued
      simp only [claimable, Bool.and_eq_true, Bool.or_eq_true, beq_iff_eq, hqueued,
        false_or] at hclaim
      exact hchanged (congrArg some hclaim.2.1)
    refine absurd ⟨path, node_id, i, task, rfl, h, htask, claimable_node hclaim, hqueued, ?_⟩ hnone
    intro j hj
    by_contra hfails
    have hfails : (randomToken env (0 + j)).isSome = false := by
      rw [Nat.zero_add, randomToken, Option.isSome_map]
      exact Bool.eq_false_iff.mpr hfails
    have hstopped := dispatchLoop_stops htask hj hfails
    rw [hleased, Option.some.injEq] at hstopped
    have hstate := congrArg Task.state hstopped
    rw [hqueued] at hstate
    exact absurd hstate (show "dispatched" ≠ "queued" by decide)

variable [Serde] [Ed25519]

/-- A request that is no such poll is audited. -/
theorem Effect.audited (h : Effect st env store arm response new)
    (hnone : ¬DispatchesQueued st env arm store) : Audited store new := by
  cases h with
  | nodeRevoked id actor node hfound =>
    intro i task' htask' hchanged
    obtain ⟨task, htask, rfl⟩ := Option.map_eq_some_iff.mp (List.getElem?_map ▸ htask')
    rw [htask] at hchanged
    split_ifs at hchanged ⊢ with hlive
    · -- The revocation goes through the tasks that it cancels and names each of them.
      rw [appended_eq rfl]
      have hmem : task.id ∈ (store.tasks.filter (liveOn id)).map Task.id :=
        List.mem_map_of_mem (List.mem_filter.mpr ⟨List.mem_of_getElem? htask, hlive⟩)
      obtain ⟨k, hk, hid⟩ := List.getElem_of_mem hmem
      refine ⟨_, List.mem_cons_of_mem _ (List.mem_mapIdx.mpr ⟨k, hk, rfl⟩), ?_⟩
      exact congrArg some hid
    · exact absurd rfl hchanged
  | taskCreated body actor req approved k h happroved =>
    intro i task' htask' hchanged
    have hframe := approvalGate_frame happroved
    obtain ⟨consumed, hconsumed, -⟩ := approvalGate_named happroved
    dsimp only at htask'
    rw [hframe.tasks] at htask'
    rcases lt_or_ge i store.tasks.length with hi | hi
    · rw [List.getElem?_append_left hi] at htask'
      rw [htask'] at hchanged
      exact absurd rfl hchanged
    · rw [List.getElem?_append_right hi] at htask'
      have hnew := List.mem_singleton.mp (List.mem_of_getElem? htask')
      rw [appended_eq (by rw [hconsumed, List.append_assoc]), hnew]
      exact ⟨_, List.mem_append_right _ List.mem_cons_self, rfl⟩
  | taskCancelled path actor task h =>
    have hid : task.id = cancelledTaskId path := by simpa using List.find?_some h.found
    refine .of_setFirst h.found rfl ?_
    rw [appended_eq rfl]
    exact ⟨_, List.mem_singleton_self _, congrArg some hid.symm⟩
  | tasksDispatched path node_id tasks dispatched h hloop hsome =>
    exact dispatchLoop_audited h (by rw [hloop]) hnone
  | dispatchAborted path node_id tasks h hloop =>
    exact dispatchLoop_audited h (by rw [hloop]) hnone
  | resultAccepted path body upload task h =>
    have htarget : uploadTarget upload task = true := List.find?_some h.found
    have hid : task.id = upload.task_id := by
      unfold uploadTarget at htarget
      exact eq_of_beq (Bool.and_eq_true_iff.mp htarget).1
    refine .of_setFirst h.found rfl ?_
    rw [appended_eq rfl]
    exact ⟨_, List.mem_singleton_self _, congrArg some hid.symm⟩
  | _ => exact .of_tasks rfl

omit [Serde] [Ed25519] in
/-- What a poll whose guards hold leaves behind when the backend takes it: the tasks as the loop
leaves them, and no record that names a task. -/
theorem Polls.leaves {path node_id : String} (h : Polls st env path store node_id)
    (hpersist : ∀ store, env.persist store = true) :
    (agentTasks st env path store).2.tasks = (dispatchLoop env node_id 0 store.tasks).1 ∧
      ∀ record ∈ appended store (agentTasks st env path store).2, record.task_id = none := by
  have hnothing (tasks : List Task) :
      ∀ record ∈ appended store { store with tasks := tasks }, record.task_id = none := by
    have happended : appended store { store with tasks := tasks } = [] :=
      appended_eq (List.append_nil _).symm
    rw [happended]
    exact List.forall_mem_nil _
  unfold agentTasks
  rw [h.query]
  dsimp only
  rw [h.fresh]
  match hloop : dispatchLoop env node_id 0 store.tasks with
  | (tasks, none) => exact ⟨rfl, hnothing tasks⟩
  | (tasks, some []) => exact ⟨rfl, hnothing tasks⟩
  | (tasks, some (task :: rest)) =>
    dsimp only
    unfold persistOrRollback
    rw [if_pos (hpersist _)]
    refine ⟨rfl, ?_⟩
    rw [appended_eq rfl]
    exact List.forall_mem_singleton.mpr rfl

/-- **The changes of state that a request makes are audited, whatever the backend answers, exactly
when** the request is no poll that reaches a queued task of its node. -/
theorem transitions_audited_iff (st : State) (env : Env) (arm : Arm) (store : Store) :
    (∀ persist, Audited store (arm.run st { env with persist := persist } store).2) ↔
      ¬DispatchesQueued st env arm store := by
  constructor
  · rintro haudited ⟨path, node_id, i, task, rfl, hpolls, hfound, hnode, hqueued, hdrawn⟩
    let env' : Env := { env with persist := fun _ => true }
    have hpolls' : Polls st env' path store node_id := ⟨hpolls.query, hpolls.fresh⟩
    obtain ⟨htasks, hunnamed⟩ := hpolls'.leaves fun _ => rfl
    have hclaim : claimable env' node_id task = true := by
      simp [claimable, hnode, hqueued]
    obtain ⟨token, -, hleased⟩ := dispatchLoop_reaches (k := 0) hfound hclaim fun j hj => by
      rw [Nat.zero_add, randomToken, Option.isSome_map]
      exact hdrawn j hj
    have hchanged : (store.tasks[i]?).map Task.state ≠ some (leased env' token task).state := by
      rw [hfound, Option.map_some, hqueued]
      exact fun h => absurd (Option.some.inj h) (show "queued" ≠ "dispatched" by decide)
    rw [← htasks] at hleased
    obtain ⟨record, hrecord, hnamed⟩ := haudited (fun _ => true) i _ hleased hchanged
    rw [hunnamed record hrecord] at hnamed
    cases hnamed
  · intro hnone persist
    apply (arm.run_effect st { env with persist := persist } store).audited
    rintro ⟨path, node_id, i, task, harm, h⟩
    exact hnone ⟨path, node_id, i, task, harm, ⟨h.polls.query, h.polls.fresh⟩, h.found, h.node,
      h.queued, h.drawn⟩

end Audit

/-! ## The first poll of a node -/

section Example

attribute [local instance] exampleParser noKeys

/-- The store after a second task is queued. -/
def twiceQueuedStore : Store :=
  ((Arm.createTask exampleBodies.2 none).run exampleState (exampleEnv 1) queuedStore).2

/-- The store after a poll that draws one token and no more. -/
def halfDispatchedStore : Store :=
  ((Arm.agentTasks "/v1/agent/tasks?node_id=n1").run exampleState (drawingEnv 7)
    twiceQueuedStore).2

/-- The poll that dispatches a task appends no record that names it. When the random source fails
after the first of two tasks, the poll appends no record at all, and the audit lists before and
after it are the same. -/
theorem dispatch_unaudited :
    (Reachable queuedStore ∧
      ¬Audited queuedStore ((Arm.agentTasks "/v1/agent/tasks?node_id=n1").run exampleState
        (exampleEnv 0) queuedStore).2) ∧
    ∃ store store', Reachable store ∧ Reachable store' ∧ store'.audit = store.audit ∧
      store'.tasks.map Task.state ≠ store.tasks.map Task.state := by
  have hhandled {store : Store} (h : Reachable store) (env : Env) (arm : Arm) :
      Reachable (arm.run exampleState env store).2 :=
    h.step (.handled _ _ _ (.handled _ env arm _))
  have htwice : Reachable twiceQueuedStore := hhandled reachable_queuedStore (exampleEnv 1) _
  refine ⟨⟨reachable_queuedStore, fun haudited => ?_⟩, twiceQueuedStore, halfDispatchedStore,
    htwice, hhandled htwice (drawingEnv 7) _, by decide +kernel, by decide +kernel⟩
  have hrecords : (appended queuedStore dispatchedStore).map Activity.task_id = [none] := by
    decide +kernel
  have hstates : (dispatchedStore.tasks[0]?).map Task.state = some "dispatched" ∧
      (queuedStore.tasks[0]?).map Task.state = some "queued" := by decide +kernel
  obtain ⟨task, htask, hstate⟩ := Option.map_eq_some_iff.mp hstates.1
  have hchanged : (queuedStore.tasks[0]?).map Task.state ≠ some task.state := by
    rw [hstates.2, hstate]
    decide
  obtain ⟨record, hrecord, hnamed⟩ := haudited 0 task htask hchanged
  have hnone : record.task_id ∈ (appended queuedStore dispatchedStore).map Activity.task_id :=
    List.mem_map_of_mem hrecord
  rw [hrecords, hnamed, List.mem_singleton] at hnone
  cases hnone

end Example

end NodeWe.ControlPlane
