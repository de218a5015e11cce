import NodeWe.ControlPlane.Lifecycle

/-!
# Lease fencing

A poll dispatches a task under a fresh token and a lease, and a result has to carry the token. Over
every run of requests from the empty store (`Leases`): a task that is queued was never dispatched,
and a task that is dispatched carries the token of its latest dispatch and the latest lease of all.
With tokens that never repeat, results under older tokens are refused (`LeaseFencing`).
-/

namespace NodeWe.ControlPlane

open Text InPlace Transition

section Fencing

variable [Serde] [Ed25519]

/-! ## Moments -/

/-- A handled request, with the store that it finds. -/
structure Moment where
  before : Store
  st : State
  env : Env
  arm : Arm

/-- The response of a moment. -/
def Moment.response (m : Moment) : Response := (m.arm.run m.st m.env m.before).1

/-- The store that a moment leaves behind. -/
def Moment.after (m : Moment) : Store := (m.arm.run m.st m.env m.before).2

/-- A moment as a step of the store. -/
inductive Records : Store → Moment → Store → Prop
  | moment (m : Moment) : Records m.before m m.after

/-- What happens in a moment is an effect of its arm. -/
theorem Moment.effect (m : Moment) : Effect m.st m.env m.before m.arm m.response m.after :=
  m.arm.run_effect m.st m.env m.before

/-- A run of moments is a run of requests. -/
theorem Records.handles {store store' : Store} {trace : List Moment}
    (h : Run Records store trace store') : ∃ events, Run Handles store events store' := by
  refine ⟨_, h.simulates id (fun m => [Event.handled m.st m.env m.arm m.response]) ?_⟩
  rintro _ m _ ⟨⟩
  exact .single (.handled m.st m.env m.arm m.before)

/-! ## Dispatches and results -/

/-- A poll dispatches the task at an index under a token. The token is the one that the poll draws
after those of the claimable tasks before it. -/
structure Issues (m : Moment) (i : ℕ) (task : Task) (token : String) : Prop where
  poll : ∃ path, m.arm = .agentTasks path ∧ queryField path "node_id" = some task.node_id
  before : m.before.tasks[i]? = some task
  claimed : claimable m.env task.node_id task = true
  drawn : randomToken m.env ((m.before.tasks.take i).countP (claimable m.env task.node_id)) =
    some token
  after : m.after.tasks[i]? = some (leased m.env token task)

/-- The token is the one of the latest dispatch of the task at an index. -/
def LastIssued (trace : List Moment) (i : ℕ) (token : String) : Prop :=
  ∃ past poll since task, trace = past ++ poll :: since ∧ Issues poll i task token ∧
    ∀ m ∈ since, ∀ task token, ¬Issues m i task token

/-- The token is one of a dispatch of the task at an index that a later dispatch followed. -/
def Superseded (trace : List Moment) (i : ℕ) (token : String) : Prop :=
  ∃ past poll since task, trace = past ++ poll :: since ∧ Issues poll i task token ∧
    ∃ m ∈ since, ∃ task token, Issues m i task token

/-- An upload is accepted for the task at an index. -/
structure AcceptsResult (m : Moment) (i : ℕ) (upload : ResultUpload) : Prop where
  parsed : ∃ path body, m.arm = .agentResult path body ∧
    parseResultUpload path body = .ok upload
  named : m.before.tasks.findIdx? (uploadTarget upload) = some i
  answered : m.response.status.isSuccess = true

/-- What a poll does to the task at an index. -/
theorem Effect.polled {st : State} {env : Env} {store new : Store} {path : String}
    {response : Response} (h : Effect st env store (.agentTasks path) response new) {i : ℕ}
    {task : Task} (hi : store.tasks[i]? = some task) :
    new.tasks[i]? = some task ∨
      queryField path "node_id" = some task.node_id ∧
        claimable env task.node_id task = true ∧ ∃ token,
          randomToken env ((store.tasks.take i).countP (claimable env task.node_id)) = some token ∧
          new.tasks[i]? = some (leased env token task) := by
  have hpoll {node_id : String} {tasks : List Task} {dispatched : Option (List Task)}
      (hpolls : Polls st env path store node_id)
      (hloop : dispatchLoop env node_id 0 store.tasks = (tasks, dispatched)) :
      tasks[i]? = some task ∨
        queryField path "node_id" = some task.node_id ∧
          claimable env task.node_id task = true ∧ ∃ token,
            randomToken env ((store.tasks.take i).countP (claimable env task.node_id)) =
              some token ∧ tasks[i]? = some (leased env token task) := by
    have hindex := dispatchLoop_getElem? env node_id 0 hi
    rw [hloop, Nat.zero_add] at hindex
    refine hindex.imp_right fun ⟨hclaim, token, htoken, hleased⟩ => ?_
    obtain rfl := claimable_node hclaim
    exact ⟨hpolls.query, hclaim, token, htoken, hleased⟩
  cases h with
  | unchanged => exact .inl hi
  | tasksDispatched path node_id tasks dispatched hpolls hloop hsome => exact hpoll hpolls hloop
  | dispatchAborted path node_id tasks hpolls hloop => exact hpoll hpolls hloop

/-- A task is dispatched, stays as it is, or is over. -/
theorem Moment.outcome (m : Moment) {i : ℕ} {task : Task} (h : m.before.tasks[i]? = some task) :
    (∃ token, Issues m i task token) ∨ m.after.tasks[i]? = some task ∨
      ∃ task', m.after.tasks[i]? = some task' ∧ task'.state ∈ terminalStates := by
  have hcancelled : "cancelled" ∈ terminalStates := by decide
  obtain ⟨task', htask', hstep⟩ := m.effect.tasks_evolve i task h
  generalize harm : m.arm = arm at hstep
  cases hstep with
  | same => exact .inr (.inl htask')
  | cancelled => exact .inr (.inr ⟨_, htask', hcancelled⟩)
  | revoked => exact .inr (.inr ⟨_, htask', hcancelled⟩)
  | leased path node_id k token task hquery hclaim htoken =>
    have heffect := m.effect
    rw [harm] at heffect
    rcases heffect.polled h with hsame | ⟨hquery, hclaim, token, hdrawn, hleased⟩
    · exact .inr (.inl hsame)
    · exact .inl ⟨token, ⟨path, harm, hquery⟩, h, hclaim, hdrawn, hleased⟩
  | completed path body upload task hparsed htarget haccepted =>
    exact .inr (.inr ⟨_, htask', (refusedResult_none haccepted).terminal⟩)

/-- A dispatch happens to a task of the store. -/
theorem Issues.lt_length {m : Moment} {i : ℕ} {task : Task} {token : String}
    (h : Issues m i task token) : i < m.after.tasks.length :=
  (List.getElem?_eq_some_iff.mp h.after).1

/-- A poll dispatches two tasks under draws of their own. -/
theorem Issues.index {m : Moment} {i j : ℕ} {task task' : Task} {token token' : String}
    (h : Issues m i task token) (h' : Issues m j task' token')
    (hdraw : (m.before.tasks.take i).countP (claimable m.env task.node_id) =
      (m.before.tasks.take j).countP (claimable m.env task'.node_id)) : i = j := by
  obtain ⟨path, harm, hquery⟩ := h.poll
  obtain ⟨path', harm', hquery'⟩ := h'.poll
  obtain rfl : path = path' := by
    rw [harm] at harm'
    exact Arm.agentTasks.inj harm'
  obtain hnode : task.node_id = task'.node_id := Option.some.inj (hquery.symm.trans hquery')
  rw [← hnode] at hdraw
  -- The claimable task at the smaller index counts among those before the larger one.
  have hcount {a b : ℕ} {t : Task} (hab : a < b) (ha : m.before.tasks[a]? = some t)
      (hclaim : claimable m.env task.node_id t = true) :
      (m.before.tasks.take a).countP (claimable m.env task.node_id) <
        (m.before.tasks.take b).countP (claimable m.env task.node_id) := by
    have hprefix : m.before.tasks.take (a + 1) <+: m.before.tasks.take b :=
      List.take_prefix_take_left (by omega)
    have hle := hprefix.sublist.countP_le (p := claimable m.env task.node_id)
    rw [List.take_add_one, ha, List.countP_append, Option.toList_some,
      List.countP_singleton, if_pos hclaim] at hle
    omega
  rcases lt_trichotomy i j with hij | hij | hij
  · have := hcount hij h.before h.claimed
    omega
  · exact hij
  · have := hcount hij h'.before (hnode ▸ h'.claimed)
    omega

/-- An accepted upload completes a dispatched task under its current token. -/
theorem AcceptsResult.completes {m : Moment} {i : ℕ} {upload : ResultUpload}
    (h : AcceptsResult m i upload) :
    ∃ task, m.before.tasks[i]? = some task ∧ TakesResult m.env task upload ∧
      m.after.tasks[i]? = some (completed task upload) := by
  obtain ⟨path, body, harm, hparsed⟩ := h.parsed
  have heffect := m.effect
  have hanswered := h.answered
  rw [harm] at heffect
  generalize m.response = response at heffect hanswered
  generalize hafter : m.after = after at heffect
  cases heffect with
  | unchanged _ _ hread => exact absurd (hread hanswered) Bool.false_ne_true
  | resultAccepted path body upload' task huploads =>
    obtain rfl : upload = upload' := Except.ok.inj (hparsed.symm.trans huploads.parsed)
    have hindex : m.before.tasks.findIdx (uploadTarget upload) = i :=
      (List.findIdx?_eq_some_iff_findIdx_eq.mp h.named).2
    have hfound := getElem?_findIdx huploads.found
    rw [hindex] at hfound
    refine ⟨task, hfound, refusedResult_none huploads.accepted, ?_⟩
    rw [setFirst, hindex]
    exact List.getElem?_set_self (List.getElem?_eq_some_iff.mp hfound).1

/-- An upload that is not accepted changes nothing. -/
theorem Moment.upload (m : Moment) {path body : String} (harm : m.arm = .agentResult path body) :
    m.response.status.isSuccess = false ∧ m.after = m.before ∨
      ∃ (i : ℕ) (upload : ResultUpload) (task : Task),
        parseResultUpload path body = .ok upload ∧ m.before.tasks[i]? = some task ∧
        TakesResult m.env task upload := by
  have heffect := m.effect
  rw [harm] at heffect
  generalize m.response = response at heffect
  generalize hafter : m.after = after at heffect
  cases heffect with
  | unchanged _ _ hread =>
    refine .inl ⟨Bool.eq_false_iff.mpr fun hsuccess => ?_, rfl⟩
    exact absurd (hread hsuccess) Bool.false_ne_true
  | resultAccepted path body upload task huploads =>
    exact .inr ⟨_, upload, task, huploads.parsed, getElem?_findIdx huploads.found,
      refusedResult_none huploads.accepted⟩

/-- A task that a poll returns was dispatched by it. -/
theorem Moment.returned (m : Moment) {path : String} (harm : m.arm = .agentTasks path) :
    ∀ task ∈ m.response.reply.shownTasks,
      ∃ i before token, Issues m i before token ∧ m.after.tasks[i]? = some task := by
  have heffect := m.effect
  rw [harm] at heffect
  generalize hresponse : m.response = response at heffect
  generalize hafter : m.after = after at heffect
  intro task htask
  cases heffect with
  | unchanged _ _ _ hshown =>
    rw [(hshown rfl).1] at htask
    exact absurd htask List.not_mem_nil
  | tasksDispatched path node_id tasks dispatched hpolls hloop hsome =>
    obtain ⟨i, before, token, hi, hleft, hclaim, hdrawn, hleased⟩ :=
      dispatchLoop_dispatched hloop task htask
    obtain rfl := claimable_node hclaim
    rw [Nat.zero_add] at hdrawn
    refine ⟨i, before, token, ⟨⟨path, harm, hpolls.query⟩, hi, hclaim, hdrawn, ?_⟩, ?_⟩
    · rw [hafter, ← hleased]
      exact hleft
    · exact hleft
  | dispatchAborted path node_id tasks hpolls hloop => exact absurd htask List.not_mem_nil

/-! ## The invariant -/

/-- What holds of a store and the moments that led to it: a task that was dispatched is in the
store and not queued, and a dispatched task has the latest token and the latest lease. -/
structure Leases (trace : List Moment) (store : Store) : Prop where
  stored : ∀ m ∈ trace, ∀ i task token, Issues m i task token → i < store.tasks.length
  queued : ∀ (i : ℕ) (task : Task), store.tasks[i]? = some task → task.state = "queued" →
    ∀ m ∈ trace, ∀ task token, ¬Issues m i task token
  current : ∀ (i : ℕ) (task : Task), store.tasks[i]? = some task → task.state = "dispatched" →
    LastIssued trace i task.lease_token
  leases : ∀ (i : ℕ) (task : Task), store.tasks[i]? = some task → task.state = "dispatched" →
    ∀ m ∈ trace, ∀ before token, Issues m i before token →
      (leased m.env token before).lease_until ≤ task.lease_until

/-- The clock does not go back between the two readings that a poll takes for a task. -/
def ClockAdvances (trace : List Moment) : Prop :=
  ∀ m ∈ trace, ∀ task_id, m.env.now (.claim task_id) ≤ m.env.now (.lease task_id)

omit [Serde] [Ed25519] in
/-- A task that a poll dispatches was queued, or its lease is over. -/
theorem claimable_iff {env : Env} {node_id : String} {task : Task} :
    claimable env node_id task = true ↔ task.node_id = node_id ∧
      (task.state = "queued" ∨
        task.state = "dispatched" ∧ task.lease_until ≤ env.now (.claim task.id)) := by
  simp only [claimable, Bool.and_eq_true, Bool.or_eq_true, beq_iff_eq, decide_eq_true_eq]

/-- An earlier dispatch of a task that is dispatched is over. -/
theorem Leases.expired {trace : List Moment} {poll m : Moment} {i : ℕ} {task task' : Task}
    {token token' : String} (h : Leases trace m.before) (hpoll : poll ∈ trace)
    (hissued : Issues poll i task token) (hissues : Issues m i task' token') :
    (leased poll.env token task).lease_until ≤ m.env.now (.claim task'.id) := by
  obtain ⟨-, hqueued | ⟨hdispatched, hover⟩⟩ := claimable_iff.mp hissues.claimed
  · exact absurd hissued (h.queued i task' hissues.before hqueued poll hpoll task token)
  · exact (h.leases i task' hissues.before hdispatched poll hpoll task token hissued).trans hover

/-- A task after a moment: just created, just dispatched, as before, or over. -/
inductive Outcome (m : Moment) (i : ℕ) (task' : Task) : Prop
  | created (hnew : m.before.tasks.length ≤ i) (hstate : task'.state = "queued")
  | issued (task : Task) (token : String) (hissue : Issues m i task token)
      (hleased : task' = leased m.env token task)
  | same (hsame : m.before.tasks[i]? = some task') (hnone : ∀ task token, ¬Issues m i task token)
  | ended (hover : task'.state ∈ terminalStates)

/-- Every task after a moment is one of these. -/
theorem Moment.inspect (m : Moment) {i : ℕ} {task' : Task} (h : m.after.tasks[i]? = some task') :
    Outcome m i task' := by
  cases hi : m.before.tasks[i]? with
  | none =>
    rw [List.getElem?_eq_none_iff] at hi
    rcases m.effect.tasks_length with hlength | ⟨body, actor, req, -, -, htasks⟩
    · have := (List.getElem?_eq_some_iff.mp h).1
      omega
    · rw [htasks, List.getElem?_append_right hi] at h
      refine .created hi ?_
      rw [List.mem_singleton.mp (List.mem_of_getElem? h)]
      rfl
  | some task =>
    by_cases hissue : ∃ before token, Issues m i before token
    · obtain ⟨before, token, hissue⟩ := hissue
      have hafter := hissue.after
      rw [h, Option.some.injEq] at hafter
      exact .issued before token hissue hafter
    · push Not at hissue
      rcases m.outcome hi with ⟨token, hissue'⟩ | hsame | ⟨task'', hover, hterminal⟩
      · exact absurd hissue' (hissue task token)
      · rw [h, Option.some.injEq] at hsame
        exact .same (by rw [hi, hsame]) hissue
      · rw [h, Option.some.injEq] at hover
        exact .ended (hover ▸ hterminal)

/-- No task is dropped. -/
theorem Moment.tasks_length_le (m : Moment) : m.before.tasks.length ≤ m.after.tasks.length := by
  rcases m.effect.tasks_length with hlength | ⟨body, actor, req, -, -, htasks⟩
  · omega
  · rw [htasks, List.length_append]
    omega

/-- A moment keeps the invariant. -/
theorem Leases.moment {trace : List Moment} {m : Moment} (h : Leases trace m.before)
    (hclock : ∀ task_id, m.env.now (.claim task_id) ≤ m.env.now (.lease task_id)) :
    Leases (trace ++ [m]) m.after where
  stored := by
    intro m' hm' i task token hissue
    rcases List.mem_append.mp hm' with hm' | hm'
    · exact (h.stored m' hm' i task token hissue).trans_le m.tasks_length_le
    · rw [List.mem_singleton.mp hm'] at hissue
      exact hissue.lt_length
  queued := by
    intro i task' htask' hstate m' hm' before token hissue
    cases m.inspect htask' with
    | created hnew =>
      rcases List.mem_append.mp hm' with hm' | hm'
      · exact absurd (h.stored m' hm' i before token hissue) (by omega)
      · rw [List.mem_singleton.mp hm'] at hissue
        exact absurd (List.getElem?_eq_some_iff.mp hissue.before).1 (by omega)
    | issued task token' _ hleased =>
      rw [hleased] at hstate
      exact absurd hstate (by decide : "dispatched" ≠ "queued")
    | same hsame hnone =>
      rcases List.mem_append.mp hm' with hm' | hm'
      · exact h.queued i task' hsame hstate m' hm' before token hissue
      · rw [List.mem_singleton.mp hm'] at hissue
        exact hnone before token hissue
    | ended hover =>
      rw [hstate] at hover
      exact absurd hover (by decide)
  current := by
    intro i task' htask' hstate
    cases m.inspect htask' with
    | created _ hnew => exact absurd (hnew.symm.trans hstate) (by decide)
    | issued task token hissue hleased =>
      rw [hleased]
      exact ⟨trace, m, [], task, rfl, hissue, List.forall_mem_nil _⟩
    | same hsame hnone =>
      -- The poll that issued the lease is still the last one that took the task.
      obtain ⟨past, poll, since, task, htrace, hissue, hlatest⟩ := h.current i task' hsame hstate
      refine ⟨past, poll, since ++ [m], task, by rw [htrace]; simp, hissue, fun m' hm' => ?_⟩
      rcases List.mem_append.mp hm' with hm' | hm'
      · exact hlatest m' hm'
      · rw [List.mem_singleton.mp hm']
        exact hnone
    | ended hover =>
      rw [hstate] at hover
      exact absurd hover (by decide)
  leases := by
    intro i task' htask' hstate m' hm' before token hissue
    cases m.inspect htask' with
    | created _ hnew => exact absurd (hnew.symm.trans hstate) (by decide)
    | issued task token' hissue' hleased =>
      rw [hleased]
      rcases List.mem_append.mp hm' with hm' | hm'
      · -- An earlier lease was over when the task was claimed again.
        calc (leased m'.env token before).lease_until
          _ ≤ m.env.now (.claim task.id) := h.expired hm' hissue hissue'
          _ ≤ m.env.now (.lease task.id) := hclock task.id
          _ ≤ m.env.now (.lease task.id) + max task.timeout_ms defaultTaskTimeoutMs + 5000 := by
            omega
      · rw [List.mem_singleton.mp hm'] at hissue ⊢
        have hbefore := hissue.before
        rw [hissue'.before, Option.some.injEq] at hbefore
        rw [hbefore]
        exact le_rfl
    | same hsame hnone =>
      rcases List.mem_append.mp hm' with hm' | hm'
      · exact h.leases i task' hsame hstate m' hm' before token hissue
      · rw [List.mem_singleton.mp hm'] at hissue
        exact absurd hissue (hnone before token)
    | ended hover =>
      rw [hstate] at hover
      exact absurd hover (by decide)

/-- Every run from the empty store keeps the invariant. -/
theorem Leases.of_run {trace : List Moment} {store : Store}
    (hrun : Run Records Store.empty trace store) (hclock : ClockAdvances trace) :
    Leases trace store := by
  have h := hrun.history (P := fun trace store => ClockAdvances trace → Leases trace store) ?_ ?_
  · exact h hclock
  · intro _
    refine ⟨List.forall_mem_nil _, ?_, ?_, ?_⟩ <;>
      exact fun i task htask => absurd (List.mem_of_getElem? htask) List.not_mem_nil
  · rintro trace _ m _ ih ⟨⟩ hclock
    refine (ih fun m' hm' => hclock m' (List.mem_append_left _ hm')).moment ?_
    exact hclock m (List.mem_append_right _ (List.mem_singleton_self m))

/-! ## The law -/

/-- The random source never repeats a value, over a run and within a moment. -/
structure NeverRepeats (trace : List Moment) : Prop where
  across : trace.Pairwise fun m m' => ∀ k k' token,
    randomToken m.env k = some token → randomToken m'.env k' ≠ some token
  within : ∀ m ∈ trace, ∀ k k' token,
    randomToken m.env k = some token → randomToken m.env k' = some token → k = k'

/-- Lease fencing. -/
structure LeaseFencing (trace : List Moment) : Prop where
  /-- What a poll returns, it dispatched. -/
  returned : ∀ m ∈ trace, ∀ path, m.arm = .agentTasks path →
    ∀ task ∈ m.response.reply.shownTasks,
      ∃ i before token, Issues m i before token ∧ m.after.tasks[i]? = some task
  /-- A result is accepted under the token of the latest dispatch only. -/
  accepted : ∀ past m later, trace = past ++ m :: later → ∀ i upload,
    AcceptsResult m i upload → LastIssued past i upload.lease_token
  /-- After a task was dispatched again, a result under an earlier token changes nothing. -/
  fenced : ∀ past m later, trace = past ++ m :: later → ∀ i token, Superseded past i token →
    ∀ path body, m.arm = .agentResult path body →
      (jsonField body "lease_token").getD "" = token →
      m.response.status.isSuccess = false ∧ m.after = m.before
  /-- A task has at most one accepted result. -/
  once : ∀ past m later, trace = past ++ m :: later → ∀ i upload, AcceptsResult m i upload →
    ∀ m' ∈ later, ∀ upload', ¬AcceptsResult m' i upload'
  /-- A task is dispatched again when the lease of each earlier dispatch is over. -/
  spaced : ∀ past m later, trace = past ++ m :: later → ∀ i task token, Issues m i task token →
    ∀ m' ∈ later, ∀ task' token', Issues m' i task' token' →
      (leased m.env token task).lease_until ≤ m'.env.now (.claim task'.id)

/-- A run stops before each of its moments. -/
theorem Records.around {trace past later : List Moment} {m : Moment} {init store : Store}
    (h : Run Records init trace store) (htrace : trace = past ++ m :: later) :
    Run Records init past m.before ∧ Run Records m.after later store := by
  rw [htrace, List.append_cons] at h
  obtain ⟨s, hfront, hlater⟩ := h.split
  obtain ⟨t, hpast, hstep⟩ := hfront.last
  cases hstep
  exact ⟨hpast, hlater⟩

/-- The invariant holds before each moment of a run. -/
theorem Leases.before {trace past later : List Moment} {m : Moment} {store : Store}
    (hrun : Run Records Store.empty trace store) (hclock : ClockAdvances trace)
    (htrace : trace = past ++ m :: later) : Leases past m.before := by
  refine Leases.of_run (Records.around hrun htrace).1 fun m' hm' => hclock m' ?_
  rw [htrace]
  exact List.mem_append_left _ hm'

/-- A run of moments ends in a well-formed store. -/
theorem Records.wellFormed {trace : List Moment} {init store : Store}
    (h : Run Records init trace store) (hinit : WellFormed init) : WellFormed store := by
  refine h.invariant hinit ?_
  rintro _ m _ hs ⟨⟩
  exact m.effect.wellFormed hs

omit [Ed25519] in
/-- An upload carries the token in its body. -/
theorem parseResultUpload_token {path body : String} {upload : ResultUpload}
    (h : parseResultUpload path body = .ok upload) :
    upload.lease_token = (jsonField body "lease_token").getD "" := by
  unfold parseResultUpload at h
  dsimp only at h
  split_ifs at h
  rw [← Except.ok.inj h]

/-- The token of the latest dispatch of one task is no token that a later dispatch of another one
superseded. -/
theorem LastIssued.not_superseded {trace : List Moment} {i j : ℕ} {token : String}
    (hfresh : NeverRepeats trace) (h : LastIssued trace i token) : ¬Superseded trace j token := by
  rintro ⟨past', poll', since', task', htrace', hissue', m, hm, task'', token'', hagain⟩
  obtain ⟨past, poll, since, task, htrace, hissue, hlatest⟩ := h
  -- The same token means the same poll, and the same draw of it.
  obtain ⟨-, rfl, rfl⟩ := eq_of_pairwise hfresh.across htrace htrace'
    (fun hapart => hapart _ _ token hissue.drawn hissue'.drawn)
    (fun hapart => hapart _ _ token hissue'.drawn hissue.drawn)
  have hpoll : poll ∈ trace := by
    rw [htrace]
    exact List.mem_append_right _ List.mem_cons_self
  have hij : i = j :=
    hissue.index hissue' (hfresh.within poll hpoll _ _ token hissue.drawn hissue'.drawn)
  subst hij
  exact hlatest m hm task'' token'' hagain

/-- **Lease fencing holds** over every run of requests from the empty store, when the random source
never repeats a value and the clock does not go back. -/
theorem lease_fencing {trace : List Moment} {store : Store}
    (hrun : Run Records Store.empty trace store) (hfresh : NeverRepeats trace)
    (hclock : ClockAdvances trace) : LeaseFencing trace where
  returned := fun m _ _ harm => m.returned harm
  accepted := by
    intro past m later htrace i upload haccepts
    obtain ⟨task, htask, htakes, -⟩ := haccepts.completes
    rw [← htakes.token]
    exact (Leases.before hrun hclock htrace).current i task htask htakes.dispatched
  fenced := by
    intro past m later htrace i token hsuperseded path body harm htoken
    rcases m.upload harm with hrefused | ⟨j, upload, task, hparsed, htask, htakes⟩
    · exact hrefused
    · have hlast := (Leases.before hrun hclock htrace).current j task htask htakes.dispatched
      rw [htakes.token, parseResultUpload_token hparsed, htoken] at hlast
      have hpast : NeverRepeats past := by
        rw [htrace] at hfresh
        exact ⟨(List.pairwise_append.mp hfresh.across).1, fun m' hm' =>
          hfresh.within m' (List.mem_append_left _ hm')⟩
      exact absurd hsuperseded (hlast.not_superseded hpast)
  once := by
    intro past m later htrace i upload haccepts m' hm' upload' haccepts'
    obtain ⟨between, rest, hlater⟩ := List.append_of_mem hm'
    obtain ⟨hpast, hrest⟩ := Records.around hrun htrace
    obtain ⟨task, -, htakes, htask⟩ := haccepts.completes
    obtain ⟨task', htask', htakes', -⟩ := haccepts'.completes
    -- The completed task stays over until the second upload.
    have hafter : WellFormed m.after := m.effect.wellFormed (Records.wellFormed hpast wellFormed_empty)
    obtain ⟨events, hbetween⟩ := Records.handles (Records.around hrest hlater).1
    obtain ⟨task'', htask'', hlives⟩ := Lives.of_run hafter hbetween i _ htask
    obtain rfl : task' = task'' := Option.some.inj (htask'.symm.trans htask'')
    have hstate := (hlives.frozen htakes.terminal).1
    rw [htakes'.dispatched] at hstate
    have hterminal := htakes.terminal
    rw [← show "dispatched" = upload.state from hstate] at hterminal
    exact absurd hterminal (by decide)
  spaced := by
    intro past m later htrace i task token hissue m' hm' task' token' hissue'
    obtain ⟨between, rest, hlater⟩ := List.append_of_mem hm'
    have htrace' : trace = (past ++ m :: between) ++ m' :: rest := by
      rw [htrace, hlater, List.append_assoc, List.cons_append]
    exact (Leases.before hrun hclock htrace').expired
      (List.mem_append_right _ List.mem_cons_self) hissue hissue'

end Fencing

section Example

/-- The body of a result that carries a token of one repeated byte. -/
def resultUnder (value : UInt8) : String :=
  "\x7b\"node_id\":\"n1\",\"lease_token\":\"" ++ hexEncodeBytes (List.replicate 24 value) ++
    "\",\"state\":\"succeeded\"\x7d"

/-- A parser that knows the bodies of a small run and two results. -/
@[reducible] def leaseParser : Serde := tableParser
  ([(exampleBodies.1, .object [("node_id", .string "n1")]),
    (exampleBodies.2, .object [("node_id", .string "n1"), ("ability", .string "system.inspect")])] ++
    [3, 4].map fun value => (resultUnder value, .object [("node_id", .string "n1"),
      ("lease_token", .string (hexEncodeBytes (List.replicate 24 value))),
      ("state", .string "succeeded")]))

attribute [local instance] leaseParser noKeys

/-- A moment with one random value. -/
def momentAt (now : ℕ) (value : UInt8) (arm : Arm) (before : Store) : Moment :=
  ⟨before, patientState, { drawingEnv value with now := fun _ => now }, arm⟩

/-- A node is enrolled. -/
def enrolment : Moment := momentAt 0 1 (.createNode exampleBodies.1 none) .empty

/-- A task is queued for it. -/
def creation : Moment := momentAt 0 2 (.createTask exampleBodies.2 none) enrolment.after

/-- The node polls. -/
def poll : Moment := momentAt 0 3 (.agentTasks "/v1/agent/tasks?node_id=n1") creation.after

/-- It polls again when the lease is over. -/
def repoll : Moment := momentAt 35000 4 (.agentTasks "/v1/agent/tasks?node_id=n1") poll.after

/-- A result arrives under the token of the first poll. -/
def lateResult : Moment :=
  momentAt 36000 5 (.agentResult "/v1/agent/tasks/task_0_7_1/result" (resultUnder 3)) repoll.after

/-- A result arrives under the token of the second one. -/
def result : Moment :=
  momentAt 37000 6 (.agentResult "/v1/agent/tasks/task_0_7_1/result" (resultUnder 4))
    lateResult.after

/-- Moments that draw different bytes never repeat a value. -/
theorem neverRepeats_of_drawn {trace : List Moment} {values : List UInt8}
    (hdrawn : trace.map (fun m => m.env.random) = values.map fun value => (drawingEnv value).random)
    (hapart : values.Pairwise fun value value' =>
      hexEncodeBytes (List.replicate 24 value) ≠ hexEncodeBytes (List.replicate 24 value')) :
    NeverRepeats trace where
  across := by
    have hvalues : (values.map fun value => (drawingEnv value).random).Pairwise
        fun random random' => ∀ k k' token,
          (random k).map (fun v => hexEncodeBytes v.toList) = some token →
            (random' k').map (fun v => hexEncodeBytes v.toList) ≠ some token := by
      refine List.pairwise_map.mpr (hapart.imp fun hne k k' token h h' => hne ?_)
      exact (randomToken_drawingEnv h).2.symm.trans (randomToken_drawingEnv h').2
    rw [← hdrawn, List.pairwise_map] at hvalues
    exact hvalues
  within := by
    intro m hm k k' token h h'
    have hmem := List.mem_map_of_mem (f := fun m => m.env.random) hm
    rw [hdrawn] at hmem
    obtain ⟨value, -, hvalue⟩ := List.mem_map.mp hmem
    have hzero {k : ℕ} (h : randomToken m.env k = some token) : k = 0 := by
      rw [randomToken, ← hvalue] at h
      exact (randomToken_drawingEnv h).1
    rw [hzero h, hzero h']

/-- A task is dispatched twice, and only the result under the second token is accepted. -/
theorem lease_fencing_redispatch :
    LeaseFencing [enrolment, creation, poll, repoll, lateResult, result] ∧
      repoll.response.reply.shownTasks.map Task.state = ["dispatched"] ∧
      lateResult.response.status.isSuccess = false ∧ result.response.status.isSuccess = true ∧
      result.after.tasks.map Task.state = ["succeeded"] := by
  have hrun : Run Records Store.empty ([] ++ [enrolment] ++ [creation] ++ [poll] ++ [repoll] ++
      [lateResult] ++ [result]) result.after :=
    .snoc _ _ _ _ (.snoc _ _ _ _ (.snoc _ _ _ _ (.snoc _ _ _ _ (.snoc _ _ _ _ (.snoc _ _ _ _
      .start (.moment enrolment)) (.moment creation)) (.moment poll)) (.moment repoll))
      (.moment lateResult)) (.moment result)
  have hfresh : NeverRepeats [enrolment, creation, poll, repoll, lateResult, result] :=
    @neverRepeats_of_drawn _ [1, 2, 3, 4, 5, 6] rfl (by decide)
  refine ⟨lease_fencing hrun hfresh fun m hm task_id => ?_, by decide +kernel⟩
  simp only [List.mem_cons, List.not_mem_nil, or_false] at hm
  rcases hm with rfl | rfl | rfl | rfl | rfl | rfl <;> exact le_rfl

end Example

end NodeWe.ControlPlane
