import NodeWe.ControlPlane.Failures

/-!
# The end of a lease

A poll takes a dispatched task again when its lease is over, and a result is refused as late when
the lease is over. The poll's filter counts the last millisecond of the lease as over, and the
handler of results does not, so in that millisecond the holder's result is still taken while another
poll already takes the task.
-/

namespace NodeWe.ControlPlane

open Text InPlace

/-- The poll dispatches the task at an index again: it changes it in the store and hands it out. -/
def Redispatched (st : State) (env : Env) (path : String) (store : Store) (i : ℕ) (task : Task) :
    Prop :=
  ∃ token, leased env token task ≠ task ∧
    (agentTasks st env path store).2.tasks[i]? = some (leased env token task) ∧
    leased env token task ∈ (agentTasks st env path store).1.reply.shownTasks

/-- A poll at an instant for the node of a task, which is fresh. -/
structure PollsAt (t : ℕ) (st : State) (env : Env) (path : String) (store : Store) (task : Task) :
    Prop where
  now : ∀ site, env.now site = t
  polls : Polls st env path store task.node_id

/-- A result at an instant for a task, under its current token. -/
structure UploadsAt [Serde] (t : ℕ) (env : Env) (path body : String) (store : Store) (task : Task)
    (upload : ResultUpload) : Prop where
  now : ∀ site, env.now site = t
  parsed : parseResultUpload path body = .ok upload
  named : store.tasks.find? (uploadTarget upload) = some task
  request : ∀ request_id, upload.request_id = some request_id → request_id = task.request_id
  token : upload.lease_token = task.lease_token

/-- The poll takes the task when the result comes too late, and never beside an accepted result. -/
structure HeldOrReclaimable [Serde] (st : State) (env env' : Env) (path path' body : String)
    (store : Store) (i : ℕ) (task : Task) : Prop where
  reclaimed : Redispatched st env path store i task ↔
    (agentResult st env' path' body store).1 = failure .conflict "task_expired"
  never_both : ¬(Redispatched st env path store i task ∧
    (agentResult st env' path' body store).1.status.isSuccess = true)

section Loop

variable {env : Env} {node_id : String} {tasks left dispatched : List Task} {task : Task} {i k : ℕ}

/-- A claimable task is handed out by a loop that does not fail. -/
theorem dispatchLoop_hands (h : dispatchLoop env node_id k tasks = (left, some dispatched))
    (hi : tasks[i]? = some task) (hclaim : claimable env node_id task = true) :
    ∃ token, left[i]? = some (leased env token task) ∧ leased env token task ∈ dispatched := by
  -- The loop draws a token for each task that it takes, so that `k` grows with these alone.
  induction tasks generalizing i k left dispatched with
  | nil => cases hi
  | cons first rest ih =>
    rw [dispatchLoop] at h
    by_cases hfirst : claimable env node_id first = true
    · rw [if_pos hfirst] at h
      cases htoken : randomToken env k with
      | none =>
        rw [htoken] at h
        cases h
      | some token =>
        rw [htoken] at h
        obtain ⟨rfl, hdispatched⟩ := Prod.mk.inj h
        obtain ⟨ds, hds, rfl⟩ := Option.map_eq_some_iff.mp hdispatched
        cases i with
        | zero =>
          obtain rfl : first = task := Option.some.inj hi
          exact ⟨token, rfl, List.mem_cons_self⟩
        | succ i =>
          obtain ⟨token', hleft, hmem⟩ := ih (Prod.ext rfl hds) hi
          exact ⟨token', hleft, List.mem_cons_of_mem _ hmem⟩
    · rw [if_neg hfirst] at h
      obtain ⟨rfl, hdispatched⟩ := Prod.mk.inj h
      cases i with
      | zero =>
        obtain rfl : first = task := Option.some.inj hi
        exact absurd hclaim hfirst
      | succ i =>
        have hrest : dispatchLoop env node_id k rest =
            ((dispatchLoop env node_id k rest).1, some dispatched) := Prod.ext rfl hdispatched
        obtain ⟨token, hleft, hmem⟩ := ih hrest hi
        exact ⟨token, hleft, hmem⟩

end Loop

section Instant

variable {st : State} {env : Env} {path : String} {store : Store} {task : Task} {t i : ℕ}

/-- A poll that is answered has come through its loop. -/
theorem PollsAt.loop (h : PollsAt t st env path store task)
    (hanswered : (agentTasks st env path store).1.status.isSuccess = true) :
    ∃ dispatched, (agentTasks st env path store).1 = ⟨.ok, .tasks dispatched⟩ ∧
      dispatchLoop env task.node_id 0 store.tasks =
        ((agentTasks st env path store).2.tasks, some dispatched) := by
  cases hloop : (dispatchLoop env task.node_id 0 store.tasks).2 with
  | none =>
    -- There was no token for some task, and the poll fails.
    rw [h.polls.run_none hloop] at hanswered
    exact absurd hanswered (show ¬Status.internalServerError.isSuccess = true by decide)
  | some dispatched =>
    refine ⟨dispatched, ?_⟩
    have hpair : dispatchLoop env task.node_id 0 store.tasks =
        ((dispatchLoop env task.node_id 0 store.tasks).1, some dispatched) := Prod.ext rfl hloop
    by_cases hsome : dispatched = []
    · rw [h.polls.run_empty (hsome ▸ hpair), hsome]
      exact ⟨rfl, hsome ▸ hpair⟩
    · -- Tasks are handed out when they are written.
      have hrun := h.polls.run hpair hsome
      rw [persistOrRollback] at hrun
      split_ifs at hrun with hpersist
      · rw [hrun]
        exact ⟨rfl, hpair⟩
      · rw [hrun] at hanswered
        exact absurd hanswered (show ¬Status.serviceUnavailable.isSuccess = true by decide)

/-- An answered poll takes a dispatched task when the lease ends now or has ended. -/
theorem PollsAt.redispatched_iff (h : PollsAt t st env path store task)
    (hanswered : (agentTasks st env path store).1.status.isSuccess = true)
    (hi : store.tasks[i]? = some task) (hstate : task.state = "dispatched") :
    Redispatched st env path store i task ↔ task.lease_until ≤ t := by
  obtain ⟨dispatched, hresponse, hloop⟩ := h.loop hanswered
  have hclaims : claimable env task.node_id task = true ↔ task.lease_until ≤ t := by
    rw [claimable, beq_self_eq_true, Bool.true_and, hstate, h.now, Bool.or_eq_true,
      Bool.and_eq_true, decide_eq_true_eq]
    simp
  rw [← hclaims]
  constructor
  · rintro ⟨token, hchanged, hafter, -⟩
    have hindex := dispatchLoop_getElem? env task.node_id 0 hi
    rw [hloop] at hindex
    rcases hindex with hsame | ⟨hclaim, -⟩
    · rw [hafter, Option.some.injEq] at hsame
      exact absurd hsame hchanged
    · exact hclaim
  · intro hclaim
    -- The task that is handed out has a lease that ends later, so that it is another one.
    obtain ⟨token, hafter, hmem⟩ := dispatchLoop_hands hloop hi hclaim
    refine ⟨token, fun hsame => ?_, hafter, by rw [hresponse]; exact hmem⟩
    have hlease := congrArg Task.lease_until hsame
    have hover := hclaims.mp hclaim
    rw [leased, h.now] at hlease
    dsimp only at hlease
    omega

/-- A poll that is not answered with a success hands nothing out. -/
theorem not_redispatched_of_failed
    (hfailed : (agentTasks st env path store).1.status.isSuccess = false) :
    ¬Redispatched st env path store i task := by
  have hnone : (agentTasks st env path store).1.reply.shownTasks = [] := by
    revert hfailed
    unfold agentTasks
    cases queryField path "node_id" with
    | none => exact fun _ => rfl
    | some node_id =>
      dsimp only
      split_ifs
      · exact fun _ => rfl
      · rcases dispatchLoop env node_id 0 store.tasks with ⟨tasks, - | - | -⟩
        · exact fun _ => rfl
        · exact fun _ => rfl
        · dsimp only
          rw [persistOrRollback]
          split_ifs
          · exact fun hfailed => absurd hfailed (show ¬Status.ok.isSuccess = false by decide)
          · exact fun _ => rfl
  rintro ⟨token, -, -, hmem⟩
  rw [hnone] at hmem
  cases hmem

section Result

variable [Serde] {env' : Env} {path' body : String} {upload : ResultUpload}

/-- A dispatched task refuses the result of its holder as late when the lease has ended before. -/
theorem UploadsAt.expired_iff (st : State)
    (h : UploadsAt t env' path' body store task upload) (hstate : task.state = "dispatched") :
    (agentResult st env' path' body store).1 = failure .conflict "task_expired" ↔
      task.lease_until < t := by
  -- The request is compared before the lease is, and the one that the holder gives is the task's.
  have hrequest : upload.request_id.any (· ≠ task.request_id) = false := by
    rw [Option.any_eq_false]
    intro request_id hread
    rw [h.request request_id hread]
    simp
  unfold agentResult
  rw [h.parsed]
  dsimp only
  rw [h.named]
  dsimp only
  unfold refusedResult
  rw [hrequest, hstate, h.now]
  by_cases hover : task.lease_until < t
  · simp [hover]
  · refine iff_of_false ?_ hover
    simp only [hover, decide_false, ne_eq, not_true_eq_false, Bool.or_false, Bool.false_eq_true,
      if_false]
    split
    · rename_i hrefused
      split_ifs at hrefused <;> cases hrefused <;> simp [failure]
    · rw [persistOrRollback]
      split_ifs <;> simp [failure, storageUnavailable]

/-- **A lease is either held or reclaimable unless it ends at this instant.** -/
theorem held_or_reclaimable_iff (hpolls : PollsAt t st env path store task)
    (huploads : UploadsAt t env' path' body store task upload)
    (hi : store.tasks[i]? = some task) (hstate : task.state = "dispatched") :
    ((agentTasks st env path store).1.status.isSuccess = true →
      (HeldOrReclaimable st env env' path path' body store i task ↔ t ≠ task.lease_until)) ∧
    ((agentTasks st env path store).1.status.isSuccess = false →
      ¬Redispatched st env path store i task) := by
  refine ⟨fun hanswered => ?_, not_redispatched_of_failed⟩
  have htaken := hpolls.redispatched_iff hanswered hi hstate
  have hlate := huploads.expired_iff st hstate
  constructor
  · rintro hlease rfl
    -- The lease ends now: the poll takes the task, and the result is not late.
    exact absurd (hlate.mp (hlease.reclaimed.mp (htaken.mpr le_rfl))) (lt_irrefl _)
  · intro hne
    have hreclaimed : Redispatched st env path store i task ↔
        (agentResult st env' path' body store).1 = failure .conflict "task_expired" := by
      rw [htaken, hlate]
      omega
    refine ⟨hreclaimed, ?_⟩
    rintro ⟨hpolled, haccepted⟩
    rw [hreclaimed.mp hpolled] at haccepted
    exact absurd haccepted (show ¬Status.conflict.isSuccess = true by decide)

end Result

end Instant

section Example

attribute [local instance] compactSerde noKeys

/-- The store after a task for the node `n1` is dispatched at zero. -/
def leasedStore : Store :=
  let store := ((Arm.createNode exampleBodies.1 none).run patientState (exampleEnv 0) .empty).2
  let store := ((Arm.createTask exampleBodies.2 none).run patientState (exampleEnv 0) store).2
  ((Arm.agentTasks "/v1/agent/tasks?node_id=n1").run patientState (exampleEnv 0) store).2

/-- The path of the poll, and the path and the body of the result that the holder posts. -/
def holderTexts : String × String × String :=
  ("/v1/agent/tasks?node_id=n1", "/v1/agent/tasks/task_0_7_1/result",
    (Value.object [("node_id", .string "n1"),
      ("lease_token", .string "000000000000000000000000000000000000000000000000"),
      ("state", .string "succeeded")]).text)

/-- The three requests are a run. -/
theorem reachable_leasedStore : Reachable leasedStore :=
  have hempty : Reachable Store.empty := ⟨[], .start⟩
  ((hempty.step (.handled _ _ _ (.handled _ _ _ _))).step
    (.handled _ _ _ (.handled _ _ _ _))).step (.handled _ _ _ (.handled _ _ _ _))

/-- The task of the store, and what the holder uploads for it. -/
theorem leasedStore_task : ∃ task upload, leasedStore.tasks[0]? = some task ∧
    task.state = "dispatched" ∧ task.node_id = "n1" ∧ task.lease_until = 35000 ∧
    UploadsAt 35000 (exampleEnv 35000) holderTexts.2.1 holderTexts.2.2 leasedStore task upload ∧
    UploadsAt 35001 (exampleEnv 35001) holderTexts.2.1 holderTexts.2.2 leasedStore task upload := by
  have htasks : leasedStore.tasks.map (fun task =>
      (task.id, task.node_id, task.state, task.lease_until, task.lease_token)) =
      [("task_0_7_1", "n1", "dispatched", 35000,
        "000000000000000000000000000000000000000000000000")] := by
    decide +kernel
  have hread : (parseResultUpload holderTexts.2.1 holderTexts.2.2).toOption.map (fun upload =>
      (upload.task_id, upload.node_id, upload.request_id, upload.lease_token)) =
      some ("task_0_7_1", "n1", none, "000000000000000000000000000000000000000000000000") := by
    decide +kernel
  obtain ⟨task, htask, hfields⟩ := List.map_eq_singleton_iff.mp htasks
  obtain ⟨upload, hupload, hread⟩ := Option.map_eq_some_iff.mp hread
  simp only [Prod.mk.injEq] at hfields hread
  obtain ⟨hid, hnode, hstate, hlease, htoken⟩ := hfields
  obtain ⟨htask_id, hnode_id, hrequest, hlease_token⟩ := hread
  have hparsed : parseResultUpload holderTexts.2.1 holderTexts.2.2 = .ok upload := by
    cases hresult : parseResultUpload holderTexts.2.1 holderTexts.2.2 with
    | error refusal =>
      rw [hresult] at hupload
      cases hupload
    | ok upload' =>
      rw [hresult] at hupload
      exact congrArg Except.ok (Option.some.inj hupload)
  have hnamed : leasedStore.tasks.find? (uploadTarget upload) = some task := by
    have htarget : uploadTarget upload task = true := by
      rw [uploadTarget, hid, hnode, htask_id, hnode_id]
      rfl
    rw [htask, List.find?_cons, htarget]
  have huploads (t : ℕ) : UploadsAt t (exampleEnv t) holderTexts.2.1 holderTexts.2.2 leasedStore
      task upload := by
    refine ⟨fun _ => rfl, hparsed, hnamed, fun request_id hsome => ?_, ?_⟩
    · rw [hrequest] at hsome
      cases hsome
    · rw [hlease_token, htoken]
  exact ⟨task, upload, by rw [htask]; rfl, hstate, hnode, hlease, huploads 35000, huploads 35001⟩

/-- In the millisecond in which the lease ends, a poll takes the task, and the result of its holder
is accepted. -/
theorem lease_end_both : Reachable leasedStore ∧ ∃ task upload,
    leasedStore.tasks[0]? = some task ∧ task.state = "dispatched" ∧ task.lease_until = 35000 ∧
    PollsAt 35000 patientState (exampleEnv 35000) holderTexts.1 leasedStore task ∧
    UploadsAt 35000 (exampleEnv 35000) holderTexts.2.1 holderTexts.2.2 leasedStore task upload ∧
    Redispatched patientState (exampleEnv 35000) holderTexts.1 leasedStore 0 task ∧
    (agentResult patientState (exampleEnv 35000) holderTexts.2.1 holderTexts.2.2
      leasedStore).1.status = .ok ∧
    ¬HeldOrReclaimable patientState (exampleEnv 35000) (exampleEnv 35000) holderTexts.1
      holderTexts.2.1 holderTexts.2.2 leasedStore 0 task := by
  obtain ⟨task, upload, htask, hstate, hnode, hlease, huploads, -⟩ := leasedStore_task
  have hfacts : Polls patientState (exampleEnv 35000) holderTexts.1 leasedStore "n1" ∧
      (agentTasks patientState (exampleEnv 35000) holderTexts.1
        leasedStore).1.status.isSuccess = true ∧
      (agentResult patientState (exampleEnv 35000) holderTexts.2.1 holderTexts.2.2
        leasedStore).1.status = .ok :=
    ⟨⟨by decide +kernel, by decide +kernel⟩, by decide +kernel, by decide +kernel⟩
  obtain ⟨hpolls, hanswered, hok⟩ := hfacts
  have hpolls : PollsAt 35000 patientState (exampleEnv 35000) holderTexts.1 leasedStore task :=
    ⟨fun _ => rfl, by rwa [hnode]⟩
  have htaken : Redispatched patientState (exampleEnv 35000) holderTexts.1 leasedStore 0 task :=
    (hpolls.redispatched_iff hanswered htask hstate).mpr hlease.le
  refine ⟨reachable_leasedStore, task, upload, htask, hstate, hlease, hpolls, huploads, htaken, hok,
    fun hheld => hheld.never_both ⟨htaken, ?_⟩⟩
  rw [hok]
  rfl

/-- A millisecond later the task is only reclaimable. -/
theorem lease_end_later : ∃ task, leasedStore.tasks[0]? = some task ∧
    HeldOrReclaimable patientState (exampleEnv 35001) (exampleEnv 35001) holderTexts.1
      holderTexts.2.1 holderTexts.2.2 leasedStore 0 task := by
  obtain ⟨task, upload, htask, hstate, hnode, hlease, -, huploads⟩ := leasedStore_task
  have hpolls : PollsAt 35001 patientState (exampleEnv 35001) holderTexts.1 leasedStore task := by
    refine ⟨fun _ => rfl, ?_⟩
    rw [hnode]
    exact ⟨by decide +kernel, by decide +kernel⟩
  have hboundary := (held_or_reclaimable_iff hpolls huploads htask hstate).1 (by decide +kernel)
  exact ⟨task, htask, hboundary.mpr (by omega)⟩

end Example

end NodeWe.ControlPlane
