import NodeWe.ControlPlane.Approvals
import NodeWe.ControlPlane.Outcome

/-!
# Tasks meet the policy

`create_task` looks its node up four times, each time with another predicate, and answers a key that
is in use before it looks at anything else. As the identifiers of the nodes differ, all lookups find
the same node, and a task met the whole policy when it was created. What the policy asks of a path
is stated on its segments (`LexicallyUnder`).
-/

namespace NodeWe.ControlPlane

open Text InPlace Transition

/-! ## Paths -/

/-- The segments of a path, less a leading `./`. -/
def segments (path : String) : List (List Char) :=
  ((stripPrefix path "./").getD path).toList.splitOn '/'

/-- A path lies under another one, by its text: it is relative, no segment of it is empty or leads
upwards, and its segments begin with those of the other. -/
structure LexicallyUnder (path allowed : String) : Prop where
  relative : path.toList.head? ≠ some '/' ∧ path.toList.head? ≠ some '\\'
  descends : ∀ segment ∈ path.toList.splitOnP fun c => c == '/' || c == '\\',
    segment ≠ [] ∧ segment ≠ ['.', '.']
  under : segments allowed <+: segments path

/-- What is left behind a beginning. -/
theorem eq_append_of_stripPrefix {s pat rest : String} (h : stripPrefix s pat = some rest) :
    s.toList = pat.toList ++ rest.toList := by
  unfold stripPrefix at h
  split_ifs at h with hbegins
  obtain rfl := Option.some.inj h
  obtain ⟨tail, htail⟩ := List.isPrefixOf_iff_prefix.mp hbegins
  rw [String.toList_ofList, ← htail, ← String.length_toList, List.drop_left]

/-- A path that the policy allows lies under one of its paths. -/
theorem lexicallyUnder_of_allowed {path : String} {allowed_paths : List String}
    (h : policyAllowsPath path allowed_paths = true) (hne : allowed_paths ≠ []) :
    ∃ allowed ∈ allowed_paths, LexicallyUnder path allowed := by
  unfold policyAllowsPath at h
  rw [if_neg hne] at h
  split_ifs at h with hvalid
  simp only [Bool.not_eq_true', Bool.not_eq_false, validRelativePath, Bool.and_eq_true,
    decide_eq_true_eq, Bool.not_eq_true', Bool.or_eq_false_iff, beq_eq_false_iff_ne,
    List.all_eq_true] at hvalid
  obtain ⟨⟨⟨-, hrelative⟩, -⟩, hdescends⟩ := hvalid
  obtain ⟨allowed, hallowed, hunder⟩ := List.any_eq_true.mp h
  refine ⟨allowed, hallowed, hrelative, fun segment hsegment => hdescends segment hsegment, ?_⟩
  unfold segments
  dsimp only at hunder
  generalize (stripPrefix path "./").getD path = normalized at hunder ⊢
  generalize (stripPrefix allowed "./").getD allowed = base at hunder ⊢
  rw [Bool.or_eq_true, beq_iff_eq] at hunder
  rcases hunder with rfl | hunder
  · exact List.prefix_rfl
  · -- Behind the allowed path comes a slash, so the segments split there.
    cases hrest : stripPrefix normalized base with
    | none =>
      rw [hrest] at hunder
      cases hunder
    | some rest =>
      rw [hrest, Option.any_some] at hunder
      have hslash : "/".toList <+: rest.toList := List.isPrefixOf_iff_prefix.mp hunder
      obtain ⟨tail, htail⟩ := hslash
      have happend : normalized.toList = base.toList ++ '/' :: tail := by
        rw [eq_append_of_stripPrefix hrest, ← htail]
        rfl
      rw [happend, List.splitOn_append_cons_self]
      exact List.prefix_append _ _

/-! ## The gates -/

/-- What the policy asks of a task and of its node, when the task is created: the node is registered
and not revoked, was seen within the time to live, and declares the ability. -/
structure PolicyMet (st : State) (env : Env) (task : Task) (node : Node) : Prop where
  node_id : node.id = task.node_id
  unrevoked : node.revoked = false
  online : node.online = true
  seen : env.now (.fresh node.id) ≤
    saturatingAdd node.last_seen (nodeOnlineTtlMs st.node_online_ttl)
  declared : task.ability.toList ∈ node.abilities.toList.splitOn ','
  ability : task.ability ∈ st.policy.allowed_abilities
  actor : st.policy.allowed_actors ≠ [] → task.actor ∈ st.policy.allowed_actors
  command : task.ability = "task.exec" → st.policy.allowed_commands ≠ [] →
    task.program ∈ st.policy.allowed_commands
  path : task.ability = "file.read" ∨ task.ability = "file.write" → st.policy.allowed_paths ≠ [] →
    ∃ allowed ∈ st.policy.allowed_paths, LexicallyUnder task.program allowed
  data_class : st.policy.allowed_data_classes ≠ [] →
    node.data_class ∈ st.policy.allowed_data_classes

/-- A task that requires approval has one when it is created: the request says so, or a record was
consumed. -/
structure Approved [Serde] (st : State) (env : Env) (body : String) (task : Task)
    (store new : Store) : Prop where
  flag : st.require_approval_records = false → jsonTrue body "approved" = true
  record : st.require_approval_records = true → ∃ approval ∈ store.approvals,
    approval.used = false ∧ Permits env task approval ∧
      { approval with used := true } ∈ new.approvals

section Gates

variable {st : State} {env : Env} {store : Store} {req : TaskRequest}

/-- Nodes with the same identifier are one. -/
theorem eq_of_node_id (hdistinct : (store.nodes.map Node.id).Nodup) {node node' : Node}
    (hnode : node ∈ store.nodes) (hnode' : node' ∈ store.nodes) (hid : node.id = node'.id) :
    node = node' :=
  List.inj_on_of_nodup_map hdistinct hnode hnode' hid

/-- A request that no gate refuses meets the policy. -/
theorem policyMet_of_allowed (hdistinct : (store.nodes.map Node.id).Nodup)
    (h : refusedByPolicy st env store req = none) :
    ∃ node ∈ store.nodes, PolicyMet st env (queuedTask st env req) node := by
  unfold refusedByPolicy at h
  split_ifs at h with hfresh hknown hability hactor hcommand hpath hclass hdeclared
  simp only [Bool.not_eq_true', Bool.not_eq_false, List.any_eq_true, Bool.and_eq_true,
    beq_iff_eq] at hfresh hdeclared
  obtain ⟨node, hnode, hid, hfresh⟩ := hfresh
  obtain ⟨other, hother, hsame, declared, hsplit, hdeclared⟩ := hdeclared
  obtain rfl := eq_of_node_id hdistinct hnode hother (hid.trans hsame.symm)
  simp only [nodeIsFresh, Bool.and_eq_true, Bool.not_eq_true', decide_eq_true_eq] at hfresh
  obtain ⟨⟨honline, hunrevoked⟩, hseen⟩ := hfresh
  refine ⟨node, hnode, hid, hunrevoked, honline, hseen, hdeclared ▸ hsplit, ?_, ?_, ?_, ?_, ?_⟩
  · show req.ability ∈ st.policy.allowed_abilities
    simpa using hability
  · intro hactors
    show req.actor ∈ st.policy.allowed_actors
    simpa [hactors] using hactor
  · intro hexec hcommands
    have hexec : req.ability = "task.exec" := hexec
    show req.program ∈ st.policy.allowed_commands
    simpa [hexec, hcommands] using hcommand
  · intro hfile hpaths
    have hfile : (req.ability == "file.read" || req.ability == "file.write") = true := by
      rw [Bool.or_eq_true, beq_iff_eq, beq_iff_eq]
      exact hfile
    rw [hfile, Bool.true_and, Bool.not_eq_true', Bool.not_eq_false] at hpath
    exact lexicallyUnder_of_allowed hpath hpaths
  · intro hclasses
    -- The lookup by identifier finds the same node.
    have hsome : (store.nodes.find? fun node => node.id == req.node_id).isSome = true :=
      List.find?_isSome.mpr ⟨node, hnode, beq_iff_eq.mpr hid⟩
    obtain ⟨found, hfound⟩ := Option.isSome_iff_exists.mp hsome
    have hfoundid : found.id = req.node_id := by simpa using List.find?_some hfound
    obtain rfl := eq_of_node_id hdistinct hnode (List.mem_of_find?_eq_some hfound)
      (hid.trans hfoundid.symm)
    simpa [hfound, hclasses] using hclass

/-- Where no record is required, the gate asks for the flag. -/
theorem approvalGate_flag {approved : Store} {k : ℕ}
    (h : approvalGate st env store req = .ok (approved, k))
    (hrecords : st.require_approval_records = false)
    (hability : req.ability = "task.exec" ∨ req.ability ∈ st.policy.approval_required) :
    req.approved = true := by
  have hgated : (req.ability == "task.exec" ||
      st.policy.approval_required.contains req.ability) = true := by
    rw [Bool.or_eq_true, beq_iff_eq, List.contains_iff_mem]
    exact hability
  unfold approvalGate at h
  rw [if_pos hgated, hrecords, if_neg Bool.false_ne_true] at h
  split_ifs at h with happroved
  exact happroved

/-- What a request reads as its approval is the flag of its body. -/
theorem parseTaskRequest_approved [Serde] {body : String} {actor : Option String}
    (h : parseTaskRequest st env body actor = .ok req) : req.approved = jsonTrue body "approved" := by
  unfold parseTaskRequest at h
  dsimp only at h
  repeat' split at h
  all_goals cases h
  rfl

end Gates

/-! ## Runs -/

/-- What was asked for in a task. -/
structure SameOrder (task task' : Task) : Prop where
  id : task'.id = task.id
  actor : task'.actor = task.actor
  node_id : task'.node_id = task.node_id
  ability : task'.ability = task.ability
  program : task'.program = task.program
  argument : task'.argument = task.argument

section Runs

variable [Serde]

/-- A step of a task keeps what was asked for. -/
theorem TaskStep.order {env : Env} {arm : Arm} {task task' : Task} (h : TaskStep env arm task task') :
    SameOrder task task' := by
  cases h <;> exact ⟨rfl, rfl, rfl, rfl, rfl, rfl⟩

variable [Ed25519]

/-- A task was created in a run by a request that was accepted, at a store where it met the policy
and had its approval. -/
inductive CreatedSoundly (events : List Event) (task : Task) : Prop
  | created (n : ℕ) (st : State) (env : Env) (body : String) (actor : Option String)
      (original : Task) (s s' : Store)
      (hn : events[n]? = some (.handled st env (.createTask body actor) ⟨.accepted, .task original⟩))
      (hsame : SameOrder original task)
      (hbefore : Run Happens Store.empty (events.take n) s)
      (hstep : Happens s (.handled st env (.createTask body actor) ⟨.accepted, .task original⟩) s')
      (hpolicy : ∃ node ∈ s.nodes, PolicyMet st env original node)
      (happroved : original.ability = "task.exec" ∨
        original.ability ∈ st.policy.approval_required → Approved st env body original s s')

variable {st : State} {env : Env} {store new : Store} {events : List Event} {event : Event}
  {task task' : Task}

/-- What becomes of a task was created as the task was. -/
theorem CreatedSoundly.order (h : CreatedSoundly events task) (hsame : SameOrder task task') :
    CreatedSoundly events task' := by
  cases h with
  | created n st env body actor original s s' hn horiginal hbefore hstep hpolicy happroved =>
    exact .created n st env body actor original s s' hn
      ⟨hsame.id.trans horiginal.id, hsame.actor.trans horiginal.actor,
        hsame.node_id.trans horiginal.node_id, hsame.ability.trans horiginal.ability,
        hsame.program.trans horiginal.program, hsame.argument.trans horiginal.argument⟩
      hbefore hstep hpolicy happroved

/-- A task of a run is one of every continuation. -/
theorem CreatedSoundly.append (h : CreatedSoundly events task) (labels : List Event) :
    CreatedSoundly (events ++ labels) task := by
  cases h with
  | created n st env body actor original s s' hn horiginal hbefore hstep hpolicy happroved =>
    have hbound := (List.getElem?_eq_some_iff.mp hn).1
    refine .created n st env body actor original s s' ?_ horiginal ?_ hstep hpolicy happroved
    · rwa [List.getElem?_append_left hbound]
    · rwa [List.take_append_of_le_length hbound.le]

/-- What a request that adds a task has passed, and what it answers. -/
structure Creates (st : State) (env : Env) (body : String) (actor : Option String)
    (store : Store) (response : Response) (new : Store) (req : TaskRequest) : Prop where
  accepts : Accepts st env body actor store req
  answers : response = ⟨.accepted, .task (queuedTask st env req)⟩
  tasks : new.tasks = store.tasks ++ [queuedTask st env req]
  approved : ∃ approved k, approvalGate st env store req = .ok (approved, k) ∧
    new.approvals = approved.approvals

/-- A request adds no task, or has passed all gates. -/
theorem Effect.creates {arm : Arm} {response : Response}
    (h : Effect st env store arm response new) :
    new.tasks.length = store.tasks.length ∨
      ∃ body actor req, arm = .createTask body actor ∧
        Creates st env body actor store response new req := by
  rcases h.tasks_length with hlength | ⟨body, actor, req, rfl, -, htasks⟩
  · exact .inl hlength
  · cases h with
    | unchanged =>
      have hlength := congrArg List.length htasks
      rw [List.length_append, List.length_singleton] at hlength
      omega
    | taskCreated _ _ req approved k h happroved =>
      have htasks := (approvalGate_frame happroved).tasks
      exact .inr ⟨body, actor, req, rfl, h, rfl, congrArg (· ++ [queuedTask st env req]) htasks,
        approved, k, happroved, rfl⟩

omit [Ed25519] in
/-- A request that adds a task has its approval. -/
theorem Creates.approval {body : String} {actor : Option String} {response : Response}
    {req : TaskRequest} (h : Creates st env body actor store response new req)
    (hability : req.ability = "task.exec" ∨ req.ability ∈ st.policy.approval_required) :
    Approved st env body (queuedTask st env req) store new := by
  obtain ⟨approved, k, hgate, hnew⟩ := h.approved
  constructor
  · intro hrecords
    rw [← parseTaskRequest_approved h.accepts.parsed]
    exact approvalGate_flag hgate hrecords hability
  · intro hrecords
    obtain ⟨approval_id, approval, hfound, hmarked⟩ := approvalGate_consumes hgate hrecords hability
    obtain ⟨hunused, hpermits⟩ := permits_of_consumable st (List.find?_some hfound)
    have hbound := (List.getElem?_eq_some_iff.mp (getElem?_findIdx hfound)).1
    refine ⟨approval, List.mem_of_find?_eq_some hfound, hunused, hpermits, ?_⟩
    rw [hnew, hmarked]
    exact List.mem_of_getElem? (List.getElem?_set_self hbound)

/-- The tasks of a store were all created soundly, and their identifiers and abilities are plain. -/
def TasksSound (events : List Event) (store : Store) : Prop :=
  ∀ task ∈ store.tasks, CreatedSoundly events task ∧ Plain task.id ∧ Plain task.ability

/-- A step of each task keeps the tasks sound. -/
theorem TasksSound.evolve {arm : Arm} (h : TasksSound events store)
    (hsteps : ∀ task' ∈ new.tasks, ∃ task ∈ store.tasks, TaskStep env arm task task')
    (label : Event) : TasksSound (events ++ [label]) new := by
  intro task' htask'
  obtain ⟨task, htask, hstep⟩ := hsteps task' htask'
  obtain ⟨hsound, hid, hability⟩ := h task htask
  refine ⟨(hsound.order hstep.order).append _, ?_, ?_⟩
  · rwa [hstep.order.id]
  · rwa [hstep.order.ability]

/-- A request keeps the tasks sound. -/
theorem TasksSound.handled (h : TasksSound events store) (hrun : Run Happens Store.empty events store)
    (hstep : Handles store event new) : TasksSound (events ++ [event]) new := by
  have hhappens : Happens store event new := .handled _ _ _ hstep
  cases hstep with
  | handled st env arm =>
    have heffect := arm.run_effect st env store
    rcases heffect.creates with hlength | ⟨body, actor, req, rfl, hcreates⟩
    · have hsteps : ∀ task' ∈ (arm.run st env store).2.tasks,
          ∃ task ∈ store.tasks, TaskStep env arm task task' := by
        intro task' htask'
        rcases heffect.tasks_evolve.of_mem htask' with hold | hnew
        · exact hold
        · rw [← hlength, List.drop_length] at hnew
          exact absurd hnew List.not_mem_nil
      exact h.evolve hsteps _
    · intro task' htask'
      rw [hcreates.tasks] at htask'
      rcases List.mem_append.mp htask' with htask | hnew
      · obtain ⟨hsound, hplain⟩ := h task' htask
        exact ⟨hsound.append _, hplain⟩
      · obtain rfl := List.mem_singleton.mp hnew
        have hwell : WellFormed store := Reachable.wellFormed ⟨events, hrun⟩
        have hallowed := hcreates.accepts.allowed
        rw [hcreates.answers] at hhappens ⊢
        refine ⟨?_, plain_newId st env _ (plain_of_decide (by decide)), plain_of_allowed hallowed⟩
        refine .created events.length st env body actor _ store _ List.getElem?_concat_length
          ⟨rfl, rfl, rfl, rfl, rfl, rfl⟩ ?_ hhappens (policyMet_of_allowed hwell.distinct hallowed)
          hcreates.approval
        rwa [List.take_left]

omit [Serde] [Ed25519] in
/-- A restart keeps what was asked for, where it is plain. -/
theorem reloadedTask_order (hnode : validNodeId task.node_id = true) (hid : Plain task.id)
    (hability : Plain task.ability) : SameOrder task (reloadedTask task) :=
  ⟨clean_of_plain hid, rfl, clean_of_valid hnode, clean_of_plain hability, rfl, rfl⟩

/-- Every run keeps the tasks sound. -/
theorem TasksSound.of_run (hrun : Run Happens Store.empty events store) :
    TasksSound events store := by
  refine (hrun.history (P := fun events store => Run Happens Store.empty events store ∧
    TasksSound events store) ⟨.start, List.forall_mem_nil _⟩ ?_).2
  rintro events s event t ⟨hrun, hsound⟩ hstep
  refine ⟨.snoc _ _ _ _ hrun hstep, ?_⟩
  cases hstep with
  | handled _ _ _ h => exact hsound.handled hrun h
  | reloaded env _ _ h =>
    have hwell : WellFormed s := Reachable.wellFormed ⟨events, hrun⟩
    rw [eq_reloadedStore h]
    intro task' htask'
    obtain ⟨task, htask, rfl⟩ := List.mem_map.mp htask'
    obtain ⟨hcreated, hid, hability⟩ := hsound task htask
    have horder := reloadedTask_order (hwell.tasks task htask) hid hability
    refine ⟨(hcreated.order horder).append _, ?_, ?_⟩
    · rwa [horder.id]
    · rwa [horder.ability]

/-- **Every task met the policy when it was created**, in every run, and a task creation that is
rejected leaves no record that the policy allowed it. -/
theorem policy_sound (hrun : Run Happens Store.empty events store) :
    (∀ task ∈ store.tasks, CreatedSoundly events task) ∧
    ∀ st env body actor, (createTaskAs st env body actor store).1.status.isSuccess = false →
      ∀ record ∈ appended store (createTaskAs st env body actor store).2,
        record.event ≠ "policy.allowed" := by
  refine ⟨fun task htask => (TasksSound.of_run hrun task htask).1, ?_⟩
  intro st env body actor hstatus
  have heffect := createTaskAs_effect st env body actor store
  rw [heffect.rolled_back rfl hstatus, appended_eq (List.append_nil _).symm]
  exact List.forall_mem_nil _

end Runs

/-! ## A small run -/

section Example

attribute [local instance] compactSerde noKeys

/-- The task of the run that asks for approval records met the default policy. -/
theorem policy_sound_approved :
    approvedRun.2.tasks.map Task.ability = ["task.exec"] ∧
    (∀ task ∈ approvedRun.2.tasks, CreatedSoundly approvedRun.1 task) ∧
    ∀ st env body actor,
      (createTaskAs st env body actor approvedRun.2).1.status.isSuccess = false →
        ∀ record ∈ appended approvedRun.2 (createTaskAs st env body actor approvedRun.2).2,
          record.event ≠ "policy.allowed" :=
  ⟨by decide +kernel, policy_sound (run_handleAll _ _ _)⟩

end Example

end NodeWe.ControlPlane
