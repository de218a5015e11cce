import NodeWe.Tickets
import NodeWe.ControlPlane.Idempotency

/-!
# Approvals are used once

With approval records, a task for an ability that requires approval consumes a record that
`create_approval` made. The records are tickets: `create_approval` issues one, and `create_task`
spends one, which stays used over restarts.
-/

namespace NodeWe.ControlPlane

open Text InPlace Transition Tickets

/-! ## What is issued and what is spent -/

/-- What may become of an approval. -/
structure ApprovalKept (approval approval' : Approval) : Prop where
  same : SameApproval approval approval'
  used : approval.used = true → approval'.used = true

/-- An approval stays as it is. -/
theorem ApprovalKept.refl (approval : Approval) : ApprovalKept approval approval :=
  ⟨⟨rfl, rfl, rfl, rfl, rfl, rfl, rfl⟩, id⟩

/-- What stays of an approval, stays. -/
theorem SameApproval.trans {a b c : Approval} (h : SameApproval a b) (h' : SameApproval b c) :
    SameApproval a c :=
  ⟨h'.id.trans h.id, h'.node_id.trans h.node_id, h'.ability.trans h.ability,
    h'.program.trans h.program, h'.argument.trans h.argument, h'.actor.trans h.actor,
    h'.expires_at.trans h.expires_at⟩

/-- An approval that is used does not change any more. -/
theorem ApprovalKept.eq_of_used {approval approval' : Approval} (h : ApprovalKept approval approval')
    (hused : approval.used = true) : approval' = approval := by
  obtain ⟨⟨hid, hnode, hability, hprogram, hargument, hactor, hexpires⟩, hkeeps⟩ := h
  have hused' : approval'.used = approval.used := (hkeeps hused).trans hused.symm
  cases approval'
  cases approval
  simp_all

/-- A request recorded an approval, which is not used yet. -/
inductive RecordsApproval : Event → Approval → Prop
  | recorded (st : State) (env : Env) (body : String) (actor : Option String)
      (approval : Approval) (hunused : approval.used = false) :
      RecordsApproval (.handled st env (.createApproval body actor) ⟨.created, .approval approval⟩)
        approval

/-- A process with approval records created a task for an ability that requires approval. -/
inductive CreatesGated : Event → Task → Prop
  | created (st : State) (env : Env) (body : String) (actor : Option String) (task : Task)
      (hrecords : st.require_approval_records = true)
      (hability : task.ability = "task.exec" ∨ task.ability ∈ st.policy.approval_required) :
      CreatesGated (.handled st env (.createTask body actor) ⟨.accepted, .task task⟩) task

/-- An approval is for a task, and not over when the task is created. -/
structure Permits (env : Env) (task : Task) (approval : Approval) : Prop where
  node_id : approval.node_id = task.node_id
  ability : approval.ability = task.ability
  program : approval.program = task.program
  argument : approval.argument = task.argument
  actor : approval.actor = task.actor
  unexpired : env.now (.approvalExpiry approval.id) < approval.expires_at

/-- What an approval is for, stays. -/
theorem Permits.same {env : Env} {task : Task} {approval approval' : Approval}
    (h : Permits env task approval) (hsame : SameApproval approval approval') :
    Permits env task approval' where
  node_id := hsame.node_id.trans h.node_id
  ability := hsame.ability.trans h.ability
  program := hsame.program.trans h.program
  argument := hsame.argument.trans h.argument
  actor := hsame.actor.trans h.actor
  unexpired := by
    rw [hsame.id, hsame.expires_at]
    exact h.unexpired

/-- The approvals as tickets. -/
def approvalScheme : Scheme Event Approval where
  used := Approval.used
  Keeps := ApprovalKept
  Issues := RecordsApproval
  Spends := fun event => ∃ task, CreatesGated event task
  Pays := fun event approval => ∃ task, CreatesGated event task ∧ Permits event.env task approval
  keeps_refl := ApprovalKept.refl
  keeps_trans := fun _ _ _ h h' => ⟨h.same.trans h'.same, fun hused => h'.used (h.used hused)⟩
  keeps_used := fun _ _ h => h.used

/-! ## One request -/

section Gate

variable {st : State} {env : Env} {store approved : Store} {req : TaskRequest} {k : ℕ}

/-- An approval that a request may consume is for the task that the request creates. -/
theorem permits_of_consumable (st : State) {approval_id : String} {approval : Approval}
    (h : consumable env req approval_id approval = true) :
    approval.used = false ∧ Permits env (queuedTask st env req) approval := by
  simp only [consumable, Bool.and_eq_true, beq_iff_eq, Bool.not_eq_true', decide_eq_true_eq] at h
  obtain ⟨⟨⟨⟨⟨⟨⟨-, hnode⟩, hability⟩, hprogram⟩, hargument⟩, hactor⟩, hunused⟩, hexpires⟩ := h
  exact ⟨hunused, hnode, hability, hprogram, hargument, hactor, hexpires⟩

/-- With approval records, the gate consumes one for an ability that requires approval. -/
theorem approvalGate_consumes (h : approvalGate st env store req = .ok (approved, k))
    (hrecords : st.require_approval_records = true)
    (hability : req.ability = "task.exec" ∨ req.ability ∈ st.policy.approval_required) :
    ∃ approval_id approval, store.approvals.find? (consumable env req approval_id) = some approval ∧
      approved.approvals = setFirst (consumable env req approval_id)
        { approval with used := true } store.approvals := by
  have hgated : (req.ability == "task.exec" ||
      st.policy.approval_required.contains req.ability) = true := by
    rw [Bool.or_eq_true, beq_iff_eq, List.contains_iff_mem]
    exact hability
  unfold approvalGate at h
  rw [if_pos hgated, if_pos hrecords] at h
  split at h
  · cases h
  · next approval_id hid =>
    split at h
    · cases h
    · next approval hfound =>
      cases h
      exact ⟨approval_id, approval, hfound, rfl⟩

/-- Where no record is required, the gate leaves the approvals as they are. -/
theorem approvalGate_approvals (h : approvalGate st env store req = .ok (approved, k))
    (hnone : ¬(st.require_approval_records = true ∧
      (req.ability = "task.exec" ∨ req.ability ∈ st.policy.approval_required))) :
    approved.approvals = store.approvals := by
  unfold approvalGate at h
  split at h
  · next hgated =>
    rw [Bool.or_eq_true, beq_iff_eq, List.contains_iff_mem] at hgated
    split at h
    · next hrecords => exact absurd ⟨hrecords, hgated⟩ hnone
    · split at h
      · cases h
        rfl
      · cases h
  · cases h
    rfl

end Gate

section Steps

variable [Serde] [Ed25519] {st : State} {env : Env} {store new : Store} {arm : Arm}
  {response : Response}

omit [Ed25519] in
/-- A request that is accepted adds a task. -/
theorem TaskCreation.adds {body : String} {actor : Option String} {task : Task}
    (h : TaskCreation st env body actor store ⟨.accepted, .task task⟩ new) :
    new.tasks ≠ store.tasks := by
  have haccepted : Status.isSuccess .accepted = true := by decide
  cases h with
  | refused _ hrefused _ => exact absurd (haccepted.symm.trans hrefused) (by decide)
  | created req new haccepts htasks =>
    intro hsame
    rw [hsame] at htasks
    have hlength := congrArg List.length htasks
    rw [List.length_append, List.length_singleton] at hlength
    omega

/-- What a request does to the approvals. -/
theorem Effect.approvalStep (h : Effect st env store arm response new)
    (hcreation : ∀ body actor, arm = .createTask body actor →
      TaskCreation st env body actor store response new) :
    approvalScheme.Step store.approvals (.handled st env arm response) new.approvals := by
  cases h with
  | unchanged arm response hread hshown =>
    refine .same ?_
    rintro ⟨task, hcreates⟩
    cases hcreates with
    | created _ _ body actor => exact absurd rfl (hcreation body actor rfl).adds
  | approvalCreated body actor approval happroves =>
    refine .issue ?_ (.recorded st env body actor approval happroves.unused)
    rintro ⟨task, hcreates⟩
    cases hcreates
  | taskCreated body actor req approved k haccepts happroved =>
    by_cases hgated : st.require_approval_records = true ∧
        (req.ability = "task.exec" ∨ req.ability ∈ st.policy.approval_required)
    · obtain ⟨approval_id, approval, hfound, hmarked⟩ :=
        approvalGate_consumes happroved hgated.1 hgated.2
      obtain ⟨hunused, hpermits⟩ := permits_of_consumable st (List.find?_some hfound)
      dsimp only
      rw [hmarked]
      refine .mark hfound ⟨⟨rfl, rfl, rfl, rfl, rfl, rfl, rfl⟩, fun _ => rfl⟩ fun _ => ?_
      exact ⟨⟨_, .created st env body actor _ hgated.1 hgated.2, hpermits⟩, hunused, rfl⟩
    · dsimp only
      rw [approvalGate_approvals happroved hgated]
      refine .same ?_
      rintro ⟨task, hcreates⟩
      cases hcreates with
      | created _ _ _ _ _ hrecords hability => exact hgated ⟨hrecords, hability⟩
  | _ =>
    refine .same ?_
    rintro ⟨task, hcreates⟩
    cases hcreates

/-- A step of a run is one of its approvals. -/
theorem Happens.approvalStep [Rfc8259] {event : Event} (h : Happens store event new)
    (hfits : StoreFits store) : approvalScheme.Step store.approvals event new.approvals := by
  cases h with
  | handled _ _ _ h =>
    cases h with
    | handled st env arm =>
      refine (arm.run_effect st env store).approvalStep ?_
      rintro body actor rfl
      exact createTaskAs_creation st env body actor store
  | reloaded env _ _ h =>
    rw [eq_reloadedStore h, reloadedStore_approvals env hfits]
    refine .same ?_
    rintro ⟨task, hcreates⟩
    cases hcreates

/-! ## Runs -/

variable [Rfc8259] {events before after : List Event} {start s : Store}

/-- A run is one of its approvals. -/
theorem Happens.approvals_run (hrun : Run Happens start events store) (hfits : StoreFits start)
    (htime : InTime events) :
    Run approvalScheme.Step start.approvals events store.approvals ∧ StoreFits store := by
  refine hrun.history (P := fun events store => InTime events →
    Run approvalScheme.Step start.approvals events store.approvals ∧ StoreFits store) ?_ ?_ htime
  · exact fun _ => ⟨.start, hfits⟩
  · intro events s event t ih hstep htime
    unfold InTime at htime
    rw [List.forall_mem_append, List.forall_mem_singleton] at htime
    obtain ⟨happrovals, hs⟩ := ih htime.1
    exact ⟨.snoc _ _ _ _ happrovals (hstep.approvalStep hs), hstep.storeFits htime.2 hs⟩

/-- A task that was created rests on an approval: it is used, it was for the task and not over, and
an earlier request recorded it. -/
structure RestsOn (events : List Event) (n : ℕ) (event : Event) (task : Task)
    (approval : Approval) : Prop where
  used : approval.used = true
  permits : Permits event.env task approval
  recorded : ∃ m < n, ∃ earlier, events[m]? = some earlier ∧
    RecordsApproval earlier { approval with used := false }

omit [Serde] [Ed25519] [Rfc8259] in
/-- A ticket that was spent is an approval that the task rests on. -/
theorem restsOn_of_spentAt {n : ℕ} {event : Event} {task : Task} {approval : Approval}
    (hcreates : CreatesGated event task) (h : approvalScheme.SpentAt events n event approval) :
    RestsOn events n event task approval := by
  obtain ⟨old, ⟨m, earlier, original, hm, hrecords, horiginal⟩, ⟨task', hcreates', hpermits⟩,
    hunused, hkeeps⟩ := h.paid
  obtain rfl : task' = task := by
    cases hcreates
    cases hcreates'
    rfl
  refine ⟨h.used, hpermits.same hkeeps.same, m, ?_, earlier, ?_, ?_⟩
  · have hbound := (List.getElem?_eq_some_iff.mp hm).1
    rw [List.length_take] at hbound
    omega
  · rw [List.getElem?_take] at hm
    split_ifs at hm
    exact hm
  · have hsame := horiginal.same.trans hkeeps.same
    have hrecord : original = { approval with used := false } := by
      cases hrecords with
      | recorded st env body actor original hunused =>
        cases original
        cases approval
        obtain ⟨hid, hnode, hability, hprogram, hargument, hactor, hexpires⟩ := hsame
        simp_all
    rwa [← hrecord]

/-- **Approvals are used once.** The creations that require approval map injectively to the
approvals of the store, each to one that the task rests on, and an approval that is used stays as it
is in every continuation. -/
theorem approvals_single_use (hbefore : Run Happens Store.empty before s)
    (hafter : Run Happens s after store) (htime : InTime (before ++ after)) :
    (∃ approvalOf : ℕ → ℕ,
      Set.InjOn approvalOf {n | ∃ event task, before[n]? = some event ∧ CreatesGated event task} ∧
      ∀ (n : ℕ) (event : Event) (task : Task), before[n]? = some event → CreatesGated event task →
        ∃ approval, s.approvals[approvalOf n]? = some approval ∧
          RestsOn before n event task approval) ∧
    ∀ (i : ℕ) (approval : Approval), s.approvals[i]? = some approval → approval.used = true →
      store.approvals[i]? = some approval := by
  unfold InTime at htime
  rw [List.forall_mem_append] at htime
  obtain ⟨happrovals, hfits⟩ := Happens.approvals_run hbefore storeFits_empty htime.1
  constructor
  · obtain ⟨approvalOf, honce, hspent⟩ := Scheme.spent_once happrovals
    refine ⟨approvalOf, ?_, ?_⟩
    · refine honce.mono ?_
      rintro n ⟨event, task, hn, hcreates⟩
      exact ⟨event, hn, task, hcreates⟩
    · intro n event task hn hcreates
      obtain ⟨approval, happroval, hrests⟩ := hspent n event hn ⟨task, hcreates⟩
      exact ⟨approval, happroval, restsOn_of_spentAt hcreates hrests⟩
  · intro i approval happroval hused
    have hkept := Scheme.kept_of_run (Happens.approvals_run hafter hfits htime.2).1
    obtain ⟨approval', happroval', hkeeps⟩ := hkept i approval happroval
    rw [happroval', ApprovalKept.eq_of_used hkeeps hused]

end Steps

/-! ## A small run -/

section Example

attribute [local instance] compactSerde rfc8259_compactSerde noKeys

/-- The administrator enrols the node `n1` and approves a command on it, which runs under the
approval. -/
def approvedCalls : List (Env × Arm) :=
  [(exampleEnv 0, .createNode exampleBodies.1 none),
    (exampleEnv 0, .createApproval "\x7b\"node_id\":\"n1\",\"ability\":\"task.exec\"\x7d" none),
    ({ exampleEnv 0 with sequence := fun _ => 2 },
      .createTask ("\x7b\"node_id\":\"n1\",\"ability\":\"task.exec\"," ++
        "\"approval_id\":\"approval_0_7_1\"\x7d") none)]

/-- The events of these requests, and the store after them. -/
def approvedRun : List Event × Store := handleAll recordState approvedCalls .empty

/-- The clock of the run fits. -/
theorem inTime_approvedRun : InTime approvedRun.1 := by
  have hclock (n : ℕ) : Env.ClockFits { exampleEnv 0 with sequence := fun _ => n } := by
    intro site
    show 0 + 305000 ≤ u64Max
    decide
  refine inTime_handleAll fun call hcall => ?_
  simp only [approvedCalls, List.mem_cons, List.not_mem_nil, or_false] at hcall
  obtain rfl | rfl | rfl := hcall
  · exact hclock 1
  · exact hclock 1
  · exact hclock 2

/-- The approval of the run is used, and stays used over a restart. -/
theorem approvals_single_use_restart :
    approvedRun.2.tasks.length = 1 ∧ approvedRun.2.approvals.map Approval.used = [true] ∧
    (∃ approvalOf : ℕ → ℕ,
      Set.InjOn approvalOf
        {n | ∃ event task, approvedRun.1[n]? = some event ∧ CreatesGated event task} ∧
      ∀ (n : ℕ) (event : Event) (task : Task), approvedRun.1[n]? = some event →
        CreatesGated event task →
          ∃ approval, approvedRun.2.approvals[approvalOf n]? = some approval ∧
            RestsOn approvedRun.1 n event task approval) ∧
    ∀ (i : ℕ) (approval : Approval), approvedRun.2.approvals[i]? = some approval →
      approval.used = true →
        (reloadedStore (exampleEnv 0) approvedRun.2).approvals[i]? = some approval := by
  have hclock : (exampleEnv 0).ClockFits := by
    intro site
    show 0 + 305000 ≤ u64Max
    decide
  have hrun : Run Happens Store.empty approvedRun.1 approvedRun.2 := run_handleAll _ _ _
  have hfits := StoreFits.of_run hrun inTime_approvedRun
  have hrestart := Happens.reloaded _ _ _ (parseSnapshot_fits (exampleEnv 0) hfits.audit)
  refine ⟨by decide +kernel, by decide +kernel,
    approvals_single_use hrun (.single hrestart) ?_⟩
  exact List.forall_mem_append.mpr ⟨inTime_approvedRun, List.forall_mem_singleton.mpr hclock⟩

end Example

end NodeWe.ControlPlane
