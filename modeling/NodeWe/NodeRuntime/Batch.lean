import NodeWe.ControlPlane.Fencing
import NodeWe.ControlPlane.Representation
import NodeWe.ControlPlane.Rotation
import NodeWe.NodeRuntime.Reporting

/-!
# A batch of tasks

A poll dispatches all tasks of a node at once, and the lease of each is counted from the poll. The
agent executes them one after the other, so that a task waits for those before it as well, which its
lease does not know, and each result has to come to the control plane. `leases_cover_iff` says when
all of them are recorded.
-/

namespace NodeWe.NodeRuntime

open Text InPlace Transition ControlPlane

/-! ## The loop -/

/-- The array that the agent takes its tasks from: the body of a response, or the payload of an
envelope. -/
inductive Transport.Receives [Serde] [SerdeText] (batch : List Task) : Transport → String → Prop
  | polling : Receives batch polling (Reply.tasks batch).render
  | websocket (node_id request_id message_type queued : String)
      (h : jsonPayload (websocketEnvelope node_id request_id message_type
        (messagePayload ⟨.ok, .tasks batch⟩)) = some queued) : Receives batch websocket queued

/-- An environment whose clock has stopped. -/
def stopped (env : Env) (time : ℕ) : Env := { env with now := fun _ => time }

section Loop

variable [Serde] [Ed25519]

/-- The store after some requests. -/
def afterRequests : List (State × Env × Arm) → Store → Store
  | [], store => store
  | (st, env, arm) :: rest, store => afterRequests rest (arm.run st env store).2

variable [RingDigest]

/-- The loop over the tasks of a poll, from a time on, with one turn for each: the times at which
the uploads arrive, and the store in the end. A text that is no task ends it, and so does a channel
that takes no result or returns no answer. -/
def taskLoop (transport : Transport) (agent : Agent) :
    List String → List Turn → ℕ → Store → List ℕ × Store
  | text :: texts, turn :: turns, time, store =>
    match readTask text with
    | .error _ => ([], store)
    | .ok task =>
      let time := time + turn.duration
      let store := afterRequests turn.others store
      match transport.upload agent turn time task store with
      | none => ([], store)
      | some (store, true) =>
        let (arrivals, store) := taskLoop transport agent texts turns time store
        (time :: arrivals, store)
      | some (store, false) => ([time], store)
  | _, _, _, store => ([], store)

end Loop

/-! ## Requests of others -/

/-- What it finds is what it looks for. -/
theorem of_find?_named {node_id id : String} {task : Task} {tasks : List Task}
    (h : tasks.find? (named node_id id) = some task) : task.id = id ∧ task.node_id = node_id :=
  named_iff.mp (List.find?_some h)

section Others

variable [Serde]

/-- A request that leaves a node and its tasks alone: it cancels none of the tasks, does not revoke
the node or rotate its credential, and does not poll or report in its name. -/
def Spares (node_id : String) : Arm → Prop
  | .cancelTask _ _ => False
  | .revokeNode id _ => id ≠ node_id
  | .rotateNode id _ => id ≠ node_id
  | .agentTasks path => queryField path "node_id" ≠ some node_id
  | .agentResult _ body => (jsonField body "node_id").getD "" ≠ node_id
  | _ => True

/-- A task of the node stays as it is. -/
theorem Spares.same {env : Env} {arm : Arm} {task task' : Task} (h : Spares task.node_id arm)
    (hstep : TaskStep env arm task task') : task' = task := by
  cases hstep with
  | same => rfl
  | cancelled => exact h.elim
  | revoked id actor task hlive =>
    simp only [liveOn, Bool.and_eq_true, beq_iff_eq] at hlive
    exact absurd hlive.1.symm h
  | leased path node_id k token task hquery hclaim htoken =>
    rw [claimable_node hclaim] at h
    exact absurd hquery h
  | completed path body upload task hparsed htarget haccepted =>
    simp only [uploadTarget, Bool.and_eq_true, beq_iff_eq] at htarget
    refine absurd ?_ h
    rw [htarget.2, parseResultUpload_node hparsed]

variable [Ed25519] {node_id id : String} {task : Task}

/-- A task is found under its identifier after a request, too. -/
theorem find?_run (st : State) (env : Env) (arm : Arm) {store : Store}
    (hfound : store.tasks.find? (named node_id id) = some task) :
    ∃ task', (arm.run st env store).2.tasks.find? (named node_id id) = some task' ∧
      TaskStep env arm task task' := by
  refine (arm.run_effect st env store).tasks_evolve.find? (fun before after hstep => ?_) hfound
  rw [named, named, hstep.order.id, hstep.node_id]

/-- What requests that leave the node alone keep, they keep one after the other. -/
theorem afterRequests_keeps {P : Store → Prop} {others : List (State × Env × Arm)}
    (hspares : ∀ other ∈ others, Spares node_id other.2.2)
    (hstep : ∀ st env arm store, Spares node_id arm → P store → P (arm.run st env store).2)
    {store : Store} (h : P store) : P (afterRequests others store) := by
  induction others generalizing store with
  | nil => exact h
  | cons other rest ih =>
    obtain ⟨st, env, arm⟩ := other
    obtain ⟨harm, hrest⟩ := List.forall_mem_cons.mp hspares
    exact ih hrest (hstep st env arm store harm h)

/-- They do not hide its tasks. -/
theorem find?_afterRequests {others : List (State × Env × Arm)} {store : Store}
    (hspares : ∀ other ∈ others, Spares node_id other.2.2)
    (hfound : store.tasks.find? (named node_id id) = some task) :
    (afterRequests others store).tasks.find? (named node_id id) = some task := by
  refine afterRequests_keeps (P := fun store => store.tasks.find? (named node_id id) = some task)
    hspares (fun st env arm store harm hfound => ?_) hfound
  obtain ⟨task', hfound', hstep⟩ := find?_run st env arm hfound
  rw [← (of_find?_named hfound).2] at harm
  rwa [harm.same hstep] at hfound'

/-- They leave its agent admitted. -/
theorem admitted_afterRequests {agent : Agent} {others : List (State × Env × Arm)} {store : Store}
    (hspares : ∀ other ∈ others, Spares agent.node_id other.2.2) (h : agent.Admitted store) :
    agent.Admitted (afterRequests others store) := by
  refine afterRequests_keeps (P := agent.Admitted) hspares (fun st env arm store harm h => ?_) h
  obtain ⟨node, hmem, hid, hcredential, hlive⟩ := h
  obtain ⟨i, hi⟩ := List.getElem?_of_mem hmem
  obtain ⟨node', hi', hstep⟩ := (arm.run_effect st env store).nodes_evolve i node hi
  refine ⟨node', List.mem_of_getElem? hi', hstep.id.trans hid, ?_⟩
  cases hstep with
  | same | beaten | marked => exact ⟨hcredential, hlive⟩
  | revoked id actor node hnode => exact absurd (hnode.symm.trans hid) harm
  | rotated id actor node credential hnode => exact absurd (hnode.symm.trans hid) harm

end Others

/-! ## The whole batch -/

section Batch

variable [Serde] [Ed25519]

/-- Whatever is requested from now on, no poll dispatches the task. -/
def NeverAgain (node_id id : String) (store : Store) : Prop :=
  ∀ (events : List Event) (later : Store) (task : Task), Run Handles store events later →
    later.tasks.find? (named node_id id) = some task → ∀ env, claimable env node_id task = false

/-- The tasks of a batch are covered by their leases: every upload arrives before the lease of its
task is over, every task ends as its result says, and none is dispatched again. -/
structure Covered (node_id : String) (after : Store) (batch : List Task) (turns : List Turn)
    (arrivals : List ℕ) : Prop where
  punctual : List.Forall₂ (fun task time => time ≤ task.lease_until) batch arrivals
  accepted : List.Forall₂ (fun task turn =>
    after.tasks.find? (named node_id task.id) = some (turn.reported node_id task)) batch turns
  once : ∀ task ∈ batch, NeverAgain node_id task.id after

variable {node_id id : String} {store after : Store} {task : Task}

/-- A task that has ended is not dispatched again. -/
theorem neverAgain_of_terminal (hfound : store.tasks.find? (named node_id id) = some task)
    (hterminal : task.state ∈ terminalStates) : NeverAgain node_id id store := by
  intro events later stored hrun hstored env
  have hended : ∃ ended, later.tasks.find? (named node_id id) = some ended ∧
      ended.state ∈ terminalStates := by
    refine hrun.invariant (P := fun store => ∃ ended,
      store.tasks.find? (named node_id id) = some ended ∧ ended.state ∈ terminalStates)
      ⟨task, hfound, hterminal⟩ ?_
    rintro s event t ⟨ended, hfound, hterminal⟩ hstep
    cases hstep with
    | handled st env arm =>
      obtain ⟨ended', hfound', hstep⟩ := find?_run st env arm hfound
      have hknown : ended.state ∈ taskStates :=
        List.mem_cons_of_mem _ (List.mem_cons_of_mem _ hterminal)
      refine ⟨ended', hfound', ?_⟩
      rw [((hstep.lives hknown).frozen hterminal).1]
      exact hterminal
  obtain ⟨ended, hfound', hterminal'⟩ := hended
  rw [hstored, Option.some.injEq] at hfound'
  subst hfound'
  refine Bool.eq_false_iff.mpr fun hclaim => ?_
  obtain ⟨-, hqueued | ⟨hdispatched, -⟩⟩ := claimable_iff.mp hclaim
  · rw [hqueued] at hterminal'
    exact absurd hterminal' (by decide)
  · rw [hdispatched] at hterminal'
    exact absurd hterminal' (by decide)

/-- The first task and the others. -/
theorem covered_cons {tasks : List Task} {turn : Turn} {turns : List Turn} {time : ℕ}
    {arrivals : List ℕ} : Covered node_id after (task :: tasks) (turn :: turns) (time :: arrivals) ↔
      (time ≤ task.lease_until ∧
        after.tasks.find? (named node_id task.id) = some (turn.reported node_id task) ∧
        NeverAgain node_id task.id after) ∧ Covered node_id after tasks turns arrivals := by
  constructor
  · rintro ⟨hpunctual, haccepted, honce⟩
    obtain ⟨hfirst, hrest⟩ := List.forall₂_cons.mp hpunctual
    obtain ⟨hstored, haccepted⟩ := List.forall₂_cons.mp haccepted
    obtain ⟨hnever, honce⟩ := List.forall_mem_cons.mp honce
    exact ⟨⟨hfirst, hstored, hnever⟩, ⟨hrest, haccepted, honce⟩⟩
  · rintro ⟨⟨hfirst, hstored, hnever⟩, ⟨hpunctual, haccepted, honce⟩⟩
    exact ⟨.cons hfirst hpunctual, .cons hstored haccepted,
      List.forall_mem_cons.mpr ⟨hnever, honce⟩⟩

/-- A batch with a task that is still dispatched is not covered. -/
theorem not_covered_of_dispatched {tasks : List Task} {turns : List Turn} {arrivals : List ℕ}
    (htask : task ∈ tasks) (hstored : after.tasks.find? (named node_id task.id) = some task)
    (hdispatched : task.state = "dispatched") : ¬Covered node_id after tasks turns arrivals := by
  intro hcovered
  obtain ⟨i, hi, rfl⟩ := List.getElem_of_mem htask
  have haccepted := hcovered.accepted.get hi (hcovered.accepted.length_eq ▸ hi)
  rw [List.get_eq_getElem, hstored, Option.some.injEq] at haccepted
  rw [haccepted] at hdispatched
  exact absurd (hdispatched ▸ terminal_reported _ _ _) (by decide)

/-- The tasks are done before their leases are over, and each result is taken. -/
def Kept (transport : Transport) (agent : Agent) (time : ℕ) (tasks : List Task)
    (turns : List Turn) : Prop :=
  ∀ (i : ℕ) (task : Task) (turn : Turn), tasks[i]? = some task → turns[i]? = some turn →
    time + ((turns.take (i + 1)).map Turn.duration).sum ≤ task.lease_until ∧
      turn.persists = true ∧ transport.Delivers agent task turn ∧
      (i + 1 < tasks.length → transport.GoesOn agent task turn)

omit [Serde] [Ed25519] in
/-- The first task and the others. -/
theorem kept_cons {transport : Transport} {agent : Agent} {time : ℕ} {tasks : List Task}
    {turn : Turn} {turns : List Turn} : Kept transport agent time (task :: tasks) (turn :: turns) ↔
      (time + turn.duration ≤ task.lease_until ∧ turn.persists = true ∧
        transport.Delivers agent task turn ∧ (tasks ≠ [] → transport.GoesOn agent task turn)) ∧
      Kept transport agent (time + turn.duration) tasks turns := by
  have hsum (i : ℕ) : (((turn :: turns).take (i + 1)).map Turn.duration).sum =
      turn.duration + ((turns.take i).map Turn.duration).sum := by
    rw [List.take_succ_cons, List.map_cons, List.sum_cons]
  have hmore : tasks ≠ [] ↔ 0 + 1 < (task :: tasks).length := by
    rw [List.length_cons, Nat.add_lt_add_iff_right, List.length_pos_iff]
  constructor
  · intro h
    constructor
    · obtain ⟨htime, hpersists, hdelivers, hgoes⟩ := h 0 task turn rfl rfl
      rw [hsum, List.take_zero, List.map_nil, List.sum_nil, Nat.add_zero] at htime
      exact ⟨htime, hpersists, hdelivers, fun hne => hgoes (hmore.mp hne)⟩
    · intro i later turn' hi hi'
      obtain ⟨htime, hpersists, hdelivers, hgoes⟩ := h (i + 1) later turn' hi hi'
      rw [hsum, ← Nat.add_assoc] at htime
      exact ⟨htime, hpersists, hdelivers, fun hlt => hgoes (Nat.succ_lt_succ hlt)⟩
  · rintro ⟨⟨htime, hpersists, hdelivers, hgoes⟩, hrest⟩ i later turn' hi hi'
    rw [hsum]
    cases i with
    | zero =>
      obtain rfl := Option.some.inj hi
      obtain rfl := Option.some.inj hi'
      rw [List.take_zero, List.map_nil, List.sum_nil, Nat.add_zero]
      exact ⟨htime, hpersists, hdelivers, fun hlt => hgoes (hmore.mpr hlt)⟩
    | succ i =>
      obtain ⟨hlater, hothers⟩ := hrest i later turn' hi hi'
      rw [Nat.add_assoc] at hlater
      exact ⟨hlater, hothers.1, hothers.2.1, fun hlt => hothers.2.2 (Nat.lt_of_succ_lt_succ hlt)⟩

omit [Serde] [Ed25519] in
/-- A batch whose first result is not taken is not. -/
theorem not_kept_cons {transport : Transport} {agent : Agent} {time : ℕ} {tasks : List Task}
    {turn : Turn} {turns : List Turn}
    (h : ¬(time + turn.duration ≤ task.lease_until ∧ turn.persists = true ∧
      transport.Delivers agent task turn)) :
    ¬Kept transport agent time (task :: tasks) (turn :: turns) := by
  intro hkept
  obtain ⟨htime, hpersists, hdelivers, -⟩ := (kept_cons.mp hkept).1
  exact h ⟨htime, hpersists, hdelivers⟩

/-- How the loop leaves the tasks: each has ended as its result says, up to where one is left
behind. -/
inductive Settled (transport : Transport) (agent : Agent) (after : Store) :
    ℕ → List Task → List Turn → List ℕ → Prop
  | nil (time : ℕ) : Settled transport agent after time [] [] []
  | recorded (time : ℕ) (task : Task) (turn : Turn) (tasks : List Task) (turns : List Turn)
      (arrivals : List ℕ) (htime : time + turn.duration ≤ task.lease_until)
      (hpersists : turn.persists = true) (hdelivers : transport.Delivers agent task turn)
      (hgoes : tasks ≠ [] → transport.GoesOn agent task turn)
      (hstored : after.tasks.find? (named agent.node_id task.id) =
        some (turn.reported agent.node_id task))
      (hrest : Settled transport agent after (time + turn.duration) tasks turns arrivals) :
      Settled transport agent after time (task :: tasks) (turn :: turns)
        ((time + turn.duration) :: arrivals)
  | left (time : ℕ) (task : Task) (tasks : List Task) (turns : List Turn) (arrivals : List ℕ)
      (hover : ¬Kept transport agent time tasks turns) (htask : task ∈ tasks)
      (hstored : after.tasks.find? (named agent.node_id task.id) = some task)
      (hdispatched : task.state = "dispatched") :
      Settled transport agent after time tasks turns arrivals

/-- The tasks are covered when they are done in time and their results are taken. -/
theorem Settled.covered_iff {transport : Transport} {agent : Agent} {time : ℕ} {tasks : List Task}
    {turns : List Turn} {arrivals : List ℕ}
    (h : Settled transport agent after time tasks turns arrivals) :
    Covered agent.node_id after tasks turns arrivals ↔ Kept transport agent time tasks turns := by
  induction h with
  | nil time =>
    refine iff_of_true ⟨.nil, .nil, List.forall_mem_nil _⟩ fun i task turn hi _ => ?_
    rw [List.getElem?_nil] at hi
    cases hi
  | recorded time task turn tasks turns arrivals htime hpersists hdelivers hgoes hstored hrest ih =>
    rw [covered_cons, kept_cons, ih]
    refine and_congr_left fun _ =>
      iff_of_true ⟨htime, hstored, ?_⟩ ⟨htime, hpersists, hdelivers, hgoes⟩
    exact neverAgain_of_terminal hstored (terminal_reported _ _ _)
  | left time task tasks turns arrivals hover htask hstored hdispatched =>
    exact iff_of_false (not_covered_of_dispatched htask hstored hdispatched) hover

omit [Serde] [Ed25519] in
/-- Where the channel returns no answer to a result that is recorded, the next task is left
behind. -/
theorem Settled.of_unanswered {transport : Transport} {agent : Agent} {time : ℕ}
    {tasks : List Task} {turn : Turn} {turns : List Turn}
    (htime : time + turn.duration ≤ task.lease_until) (hpersists : turn.persists = true)
    (hdelivers : transport.Delivers agent task turn)
    (hgone : ¬transport.GoesOn agent task turn)
    (hstored : after.tasks.find? (named agent.node_id task.id) =
      some (turn.reported agent.node_id task))
    (hlater : ∀ later ∈ tasks, after.tasks.find? (named agent.node_id later.id) = some later)
    (hdispatched : ∀ later ∈ tasks, later.state = "dispatched")
    (hlength : tasks.length = turns.length) :
    Settled transport agent after time (task :: tasks) (turn :: turns)
      [time + turn.duration] := by
  cases tasks with
  | nil =>
    obtain rfl := List.length_eq_zero_iff.mp hlength.symm
    exact .recorded _ _ _ _ _ _ htime hpersists hdelivers (fun hne => absurd rfl hne) hstored
      (.nil _)
  | cons next tasks =>
    refine .left _ next _ _ _ (fun hkept => hgone ?_) (List.mem_cons_of_mem _ List.mem_cons_self)
      (hlater next List.mem_cons_self) (hdispatched next List.mem_cons_self)
    exact (kept_cons.mp hkept).1.2.2.2 (List.cons_ne_nil _ _)

/-- Nothing else is requested in the meantime that concerns the node or its tasks. -/
def Undisturbed (node_id : String) (turns : List Turn) : Prop :=
  ∀ turn ∈ turns, ∀ other ∈ turn.others, Spares node_id other.2.2

variable [RingDigest]

omit [Serde] [Ed25519] [RingDigest] in
/-- Other tasks are found as before an upload. -/
theorem Answers.find?_other {transport : Transport} {agent : Agent} {turn : Turn} {time : ℕ}
    {answered : Store × Bool}
    (h : Answers transport agent task turn time store (some answered))
    (hfound : store.tasks.find? (named agent.node_id task.id) = some task) (hid : id ≠ task.id) :
    answered.1.tasks.find? (named agent.node_id id) =
      store.tasks.find? (named agent.node_id id) := by
  have hother {x : Task} (hx : named agent.node_id task.id x = true) :
      named agent.node_id id x = false := by
    rw [named, (named_iff.mp hx).1, beq_eq_false_iff_ne.mpr (Ne.symm hid), Bool.false_and]
  cases h with
  | recorded new goes_on htime hpersists hdelivers hgoes htasks =>
    have hreported : named agent.node_id id (turn.reported agent.node_id task) = false :=
      named_reported.trans (hother (List.find?_some hfound))
    rw [htasks]
    exact find?_setFirst_other (p := named agent.node_id task.id) (q := named agent.node_id id)
      (fun x => hother) hreported store.tasks
  | refused => rfl

omit [Serde] [Ed25519] [RingDigest] in
/-- The agent is admitted as before an upload. -/
theorem Answers.admitted {transport : Transport} {agent : Agent} {turn : Turn} {time : ℕ}
    {answered : Store × Bool}
    (h : Answers transport agent task turn time store (some answered))
    (hadmitted : agent.Admitted store) : agent.Admitted answered.1 := by
  cases h with
  | recorded new goes_on htime hpersists hdelivers hgoes htasks hnodes =>
    unfold Agent.Admitted
    rwa [hnodes]
  | refused => exact hadmitted

variable [Rfc8259] [LawfulRingDigest]

/-- The loop over tasks that were handed out. Tasks that it does not have are found as before. -/
theorem taskLoop_settled (transport : Transport) {agent : Agent} {texts : List String}
    {tasks : List Task} {turns : List Turn} (time : ℕ)
    (hread : texts.map readTask = tasks.map fun task => .ok (assignment task))
    (hhanded : ∀ task ∈ tasks, HandedOut task) (hids : (tasks.map Task.id).Nodup)
    (hspares : Undisturbed agent.node_id turns) (hendpoint : Printable agent.endpoint)
    (htoken : Word agent.token)
    (hsizes : List.Forall₂ (fun task turn => postSize agent.endpoint agent.token agent.node_id
      (assignment task) (outcomeOf turn.result) < 2^64) tasks turns)
    (hadmitted : agent.Admitted store)
    (hfound : ∀ task ∈ tasks, store.tasks.find? (named agent.node_id task.id) = some task) :
    Settled transport agent (taskLoop transport agent texts turns time store).2 time tasks turns
        (taskLoop transport agent texts turns time store).1 ∧
      ∀ (id : String) (other : Task), id ∉ tasks.map Task.id →
        store.tasks.find? (named agent.node_id id) = some other →
        (taskLoop transport agent texts turns time store).2.tasks.find? (named agent.node_id id) =
          some other := by
  induction hsizes generalizing texts time store with
  | nil =>
    obtain rfl := List.map_eq_nil_iff.mp hread
    exact ⟨.nil time, fun id other _ hother => hother⟩
  | @cons task turn tasks turns hsize hsizes ih =>
    obtain ⟨text, texts, rfl, htext, hread⟩ := List.map_eq_cons_iff.mp hread
    obtain ⟨htask, htasks'⟩ := List.forall_mem_cons.mp hhanded
    obtain ⟨hturn, hturns⟩ := List.forall_mem_cons.mp hspares
    obtain ⟨hfirst, hothers⟩ := List.forall_mem_cons.mp hfound
    rw [List.map_cons, List.nodup_cons] at hids
    -- The requests of others leave the batch where it is, and so does the upload, but for its task.
    have hmeanwhile {id : String} {other : Task}
        (h : store.tasks.find? (named agent.node_id id) = some other) :
        (afterRequests turn.others store).tasks.find? (named agent.node_id id) = some other :=
      find?_afterRequests hturn h
    have hstill := admitted_afterRequests hturn hadmitted
    have hanswers := upload_answers transport turn (time + turn.duration) htask
      (hmeanwhile hfirst) hstill hendpoint htoken hsize
    rw [taskLoop, htext]
    dsimp only
    generalize transport.upload agent turn (time + turn.duration) (assignment task)
      (afterRequests turn.others store) = answer at hanswers ⊢
    have hkept {answered : Store × Bool} (h : answer = some answered) {id : String} {other : Task}
        (hid : id ≠ task.id) (hother : store.tasks.find? (named agent.node_id id) = some other) :
        answered.1.tasks.find? (named agent.node_id id) = some other := by
      rw [h] at hanswers
      rw [hanswers.find?_other (hmeanwhile hfirst) hid]
      exact hmeanwhile hother
    have hlater {answered : Store × Bool} (h : answer = some answered) : ∀ later ∈ tasks,
        answered.1.tasks.find? (named agent.node_id later.id) = some later := by
      intro later hlater
      refine hkept h (fun heq => hids.1 ?_) (hothers later hlater)
      rw [← heq]
      exact List.mem_map_of_mem hlater
    have hrest {new : Store} (h : answer = some (new, true)) :=
      ih (time + turn.duration) hread htasks' hids.2 hturns
        (by rw [h] at hanswers; exact hanswers.admitted hstill) (hlater h)
    have hframe {new : Store} (h : answer = some (new, true)) {id : String} {other : Task}
        (hid : id ∉ (task :: tasks).map Task.id)
        (hother : store.tasks.find? (named agent.node_id id) = some other) := by
      rw [List.map_cons, List.mem_cons, not_or] at hid
      exact (hrest h).2 id other hid.2 (hkept h hid.1 hother)
    -- A task whose result is not recorded stays dispatched, whether the loop goes on or not.
    cases hanswers with
    | lost hover =>
      exact ⟨.left _ task _ _ _ (not_kept_cons fun h => hover h.2.2) List.mem_cons_self
        (hmeanwhile hfirst) htask.dispatched, fun id other _ => hmeanwhile⟩
    | refused goes_on hover =>
      cases goes_on with
      | false =>
        exact ⟨.left _ task _ _ _ (not_kept_cons hover) List.mem_cons_self (hmeanwhile hfirst)
          htask.dispatched, fun id other _ => hmeanwhile⟩
      | true =>
        exact ⟨.left _ task _ _ _ (not_kept_cons hover) List.mem_cons_self
          ((hrest rfl).2 _ _ hids.1 (hmeanwhile hfirst)) htask.dispatched,
          fun id other hid => hframe rfl hid⟩
    | recorded new goes_on htime hpersists hdelivers hgoes htasks hnodes =>
      have hended : new.tasks.find? (named agent.node_id task.id) =
          some (turn.reported agent.node_id task) := by
        rw [htasks]
        exact find?_setFirst_self (hmeanwhile hfirst)
          (named_reported.trans (List.find?_some (hmeanwhile hfirst)))
      -- It has ended, and the turns behind it do not concern it.
      cases goes_on with
      | true =>
        exact ⟨.recorded _ _ _ _ _ _ htime hpersists hdelivers (fun _ => hgoes.mp rfl)
          ((hrest rfl).2 _ _ hids.1 hended) (hrest rfl).1, fun id other hid => hframe rfl hid⟩
      | false =>
        have hgone : ¬transport.GoesOn agent task turn := fun h =>
          Bool.false_ne_true (hgoes.mpr h)
        refine ⟨.of_unanswered htime hpersists hdelivers hgone hended (hlater rfl)
          (fun later hmem => (htasks' later hmem).dispatched) hsizes.length_eq, ?_⟩
        intro id other hid hother
        rw [List.map_cons, List.mem_cons, not_or] at hid
        exact hkept rfl hid.1 hother

end Batch

/-! ## The poll -/

section Poll

variable {st : State} {env : Env} {path node_id : String} {store polled : Store}
  {batch : List Task}

/-- Where the identifiers differ, a search finds the task that it names. -/
theorem find?_named {task : Task} (hnodup : (store.tasks.map Task.id).Nodup)
    (htask : task ∈ store.tasks) :
    store.tasks.find? (named task.node_id task.id) = some task := by
  have hself : named task.node_id task.id task = true := named_iff.mpr ⟨rfl, rfl⟩
  obtain ⟨found, hfound⟩ := Option.isSome_iff_exists.mp
    (List.find?_isSome.mpr ⟨task, htask, hself⟩)
  have hid := (of_find?_named hfound).1
  rw [hfound, List.inj_on_of_nodup_map hnodup (List.mem_of_find?_eq_some hfound) htask hid]

/-- What a poll answers with: tasks of the node that it has just dispatched. -/
theorem leased_of_polled (hquery : queryField path "node_id" = some node_id)
    (h : agentTasks st env path store = (⟨.ok, .tasks batch⟩, polled)) :
    ∀ task ∈ batch, ∃ before token k, claimable env node_id before = true ∧
      randomToken env k = some token ∧ task = leased env token before := by
  intro task htask
  obtain ⟨_, before, token, -, -, hclaim, htoken, hleased⟩ :=
    dispatchLoop_dispatched (agentTasks_dispatched hquery h) task htask
  exact ⟨before, token, _, hclaim, htoken, hleased⟩

/-- A poll that succeeds answers with tasks. -/
theorem agentTasks_ok {answer : Response × Store} (h : agentTasks st env path store = answer)
    (hok : answer.1.status = .ok) :
    agentTasks st env path store = (⟨.ok, .tasks answer.1.reply.shownTasks⟩, answer.2) := by
  subst h
  revert hok
  unfold agentTasks
  cases queryField path "node_id" with
  | none => exact fun hok => by cases hok
  | some node_id =>
    dsimp only
    split_ifs
    · exact fun hok => by cases hok
    · split
      · exact fun hok => by cases hok
      · exact fun _ => rfl
      · unfold persistOrRollback
        split_ifs
        · exact fun _ => rfl
        · exact fun hok => by cases hok

/-- The lease of a task that was handed out at a time. -/
theorem lease_until_of_polled {time : ℕ} {task : Task}
    (hquery : queryField path "node_id" = some node_id)
    (h : agentTasks st (stopped env time) path store = (⟨.ok, .tasks batch⟩, polled))
    (htask : task ∈ batch) : task.lease_until = time + max task.timeout_ms 30000 + 5000 := by
  obtain ⟨before, token, _, -, -, rfl⟩ := leased_of_polled hquery h task htask
  rfl

/-- A token is a text without white space. -/
theorem word_randomToken {k : ℕ} {token : String} (h : randomToken env k = some token) :
    Word token := by
  refine ⟨randomToken_ne_empty h, fun c hc => ?_⟩
  obtain ⟨drawn, -, rfl⟩ := Option.map_eq_some_iff.mp h
  obtain ⟨n, hn, rfl⟩ := mem_hexEncodeBytes hc
  have hdigits : ∀ n < 16, isAsciiControl n.digitChar = false ∧
      isWhitespace n.digitChar = false := by decide
  exact hdigits n hn

variable [Serde] [Rfc8259] [Ed25519] {events : List Event}

omit [Serde] [Rfc8259] [Ed25519] in
/-- The identifiers of tasks are texts without white space, and have no slashes. -/
theorem word_id {task : Task} (h : IdsDrawn events store) (htask : task ∈ store.tasks) :
    Word task.id ∧ '/' ∉ task.id.toList := by
  obtain ⟨event, -, hid⟩ := List.mem_filterMap.mp (h.tasks.subset (List.mem_map_of_mem htask))
  obtain ⟨⟨st, env, pre, site⟩, hcall, hid⟩ := Option.map_eq_some_iff.mp hid
  have hpre : pre = "task" ∨ pre = "approval" := by
    unfold Event.call at hcall
    split at hcall
    · split_ifs at hcall
      cases hcall
      exact .inl rfl
    · split_ifs at hcall
      cases hcall
      exact .inr rfl
    · cases hcall
  -- The prefix, the underscores and the digits are all of the same kind.
  have hchars : ∀ c ∈ task.id.toList,
      isAsciiControl c = false ∧ isWhitespace c = false ∧ c ≠ '/' := by
    have hletters : ∀ c ∈ "task".toList ++ "approval".toList ++ ['_'],
        isAsciiControl c = false ∧ isWhitespace c = false ∧ c ≠ '/' := by
      have hall : ("task".toList ++ "approval".toList ++ ['_']).all
          (fun c => !isAsciiControl c && !isWhitespace c && c != '/') = true := by decide +kernel
      intro c hc
      simpa [and_assoc] using List.all_eq_true.mp hall c hc
    have hdigits : ∀ d < 16, isAsciiControl d.digitChar = false ∧
        isWhitespace d.digitChar = false ∧ d.digitChar ≠ '/' := by decide
    intro c hc
    rw [← hid] at hc
    rcases mem_newId hc with hmem | rfl | ⟨d, hd, rfl⟩
    · refine hletters c (List.mem_append_left _ (List.mem_append.mpr ?_))
      rcases hpre with rfl | rfl
      · exact .inl hmem
      · exact .inr hmem
    · exact hletters _ (by decide)
    · exact hdigits d hd
  refine ⟨⟨?_, fun c hc => ⟨(hchars c hc).1, (hchars c hc).2.1⟩⟩, fun hslash => ?_⟩
  · rw [← hid]
    simp [newId]
  · exact (hchars _ hslash).2.2 rfl

/-- What a poll hands out in a run: tasks that the agent can read and report, each found by its
identifier. -/
theorem handedOut_of_polled (hrun : Run Happens Store.empty events store) (htime : InTime events)
    (hids : NewIdsDiffer events) (hclock : env.ClockFits)
    (hquery : queryField path "node_id" = some node_id)
    (hpoll : agentTasks st env path store = (⟨.ok, .tasks batch⟩, polled)) :
    Reachable polled ∧ (batch.map Task.id).Nodup ∧ ∀ task ∈ batch, HandedOut task ∧
      TaskInRange task ∧ polled.tasks.find? (named node_id task.id) = some task := by
  have hsublist := dispatchLoop_sublist (agentTasks_dispatched hquery hpoll)
  -- The poll is one more request of the run.
  have hstep : Handles store (.handled st env (.agentTasks path) ⟨.ok, .tasks batch⟩) polled := by
    have h := Handles.handled st env (.agentTasks path) store
    have hanswer : (Arm.agentTasks path).run st env store = (⟨.ok, .tasks batch⟩, polled) := hpoll
    rwa [hanswer] at h
  have hrun' := Run.snoc _ _ _ _ hrun (Happens.handled _ _ _ hstep)
  have htime' : InTime (events ++ [.handled st env (.agentTasks path) ⟨.ok, .tasks batch⟩]) :=
    List.forall_mem_append.mpr ⟨htime, List.forall_mem_singleton.mpr hclock⟩
  have hdrawn := (Shaped.of_run hrun' htime').2
  have hnodup : (polled.tasks.map Task.id).Nodup := by
    have hall := hdrawn.tasks
    rw [List.filterMap_append] at hall
    exact ((List.append_nil _).subst hall).nodup hids.nodup
  have hfits := StoreFits.of_run hrun' htime'
  refine ⟨⟨_, hrun'⟩, (hsublist.map Task.id).nodup hnodup, fun task htask => ?_⟩
  have hmem := hsublist.subset htask
  have htaskfits := hfits.tasks task hmem
  obtain ⟨before, token, k, hclaim, htoken, hleased⟩ := leased_of_polled hquery hpoll task htask
  have hnode : task.node_id = node_id := by
    rw [hleased]
    exact (claimable_node hclaim : before.node_id = node_id)
  obtain ⟨hword, hslash⟩ := word_id hdrawn hmem
  refine ⟨⟨?_, ?_, htaskfits.request_id, hword, hslash⟩, ?_, ?_⟩
  · rw [hleased]
    rfl
  · rw [hleased]
    exact randomToken_ne_empty htoken
  · have htimeout := htaskfits.timeout_ms.2
    have hlimit := htaskfits.output_limit.2
    have hmax : maxTaskTimeoutMs ≤ u64Max ∧ maxTaskOutputLimit ≤ u64Max := by decide
    exact ⟨by omega, htaskfits.exit_code, htaskfits.lease_until, by omega⟩
  · rw [← hnode]
    exact find?_named hnodup hmem

end Poll

/-! ## Leases and batches -/

section Cover

variable [Serde] [Rfc8259] [SerdeText] [LawfulPrinter] [Ed25519] [RingDigest] [LawfulRingDigest]

omit [Ed25519] [RingDigest] [LawfulRingDigest] in
/-- The agent reads the tasks that it receives. -/
theorem Transport.Receives.reads {transport : Transport} {batch : List Task} {queued : String}
    (h : transport.Receives batch queued) (hrange : ∀ task ∈ batch, TaskInRange task) :
    (jsonObjects queued).map readTask = batch.map fun task => .ok (assignment task) := by
  cases h with
  | polling => exact readTasks_render hrange
  | websocket node_id request_id message_type queued h =>
    obtain ⟨payload, hpayload, hread⟩ := readTasks_payload hrange node_id request_id message_type
    rw [h, Option.some.injEq] at hpayload
    rw [hpayload]
    exact hread

variable {st : State} {env : Env} {path queued : String} {store polled : Store} {batch : List Task}
  {events : List Event} {time : ℕ} {transport : Transport} {agent : Agent} {turns : List Turn}

/-- A batch is covered when each task, with those before it, is done before its own lease is over
and its result is taken. -/
theorem covered_iff_kept (hrun : Run Happens Store.empty events store) (htime : InTime events)
    (hids : NewIdsDiffer events) (hclock : time + 305000 ≤ u64Max)
    (hquery : queryField path "node_id" = some agent.node_id)
    (hpoll : agentTasks st (stopped env time) path store = (⟨.ok, .tasks batch⟩, polled))
    (hreceives : transport.Receives batch queued) (hadmitted : agent.Admitted polled)
    (hendpoint : Printable agent.endpoint)
    (hsizes : List.Forall₂ (fun task turn => postSize agent.endpoint agent.token agent.node_id
      (assignment task) (outcomeOf turn.result) < 2^64) batch turns)
    (hspares : Undisturbed agent.node_id turns) :
    Covered agent.node_id (taskLoop transport agent (jsonObjects queued) turns time polled).2 batch
        turns (taskLoop transport agent (jsonObjects queued) turns time polled).1 ↔
      Kept transport agent time batch turns := by
  obtain ⟨hreachable, hnodup, hbatch⟩ :=
    handedOut_of_polled hrun htime hids (fun _ => hclock) hquery hpoll
  have hread := hreceives.reads fun task htask => (hbatch task htask).2.1
  have hhanded : ∀ task ∈ batch, HandedOut task := fun task htask => (hbatch task htask).1
  -- The agent has the credential of its node, which the random source gave.
  have htoken : Word agent.token := by
    obtain ⟨node, hnode, -, hcredential, -⟩ := hadmitted
    obtain ⟨drawing, k, hdrawn⟩ := hreachable.credential node hnode
    rw [hcredential] at hdrawn
    exact word_randomToken hdrawn
  have hsettled := taskLoop_settled transport time hread hhanded hnodup hspares
    hendpoint htoken hsizes hadmitted fun task htask => (hbatch task htask).2.2
  exact hsettled.1.covered_iff

/-- **When the leases of a batch are long enough.** A poll dispatches a batch, and the agent
executes it task by task. The results arrive in time, are accepted, and end their tasks exactly when
each task, together with those before it, takes no longer than the lease of that task, the backend
persists the results, each of them comes to the control plane, and the agent goes on after all but
the last. A result comes to the control plane when it is within the limit of its way, and the
channel was silent for less than 15 s. -/
theorem leases_cover_iff (hrun : Run Happens Store.empty events store) (htime : InTime events)
    (hids : NewIdsDiffer events) (hclock : time + 305000 ≤ u64Max)
    (hquery : queryField path "node_id" = some agent.node_id)
    (hpoll : agentTasks st (stopped env time) path store = (⟨.ok, .tasks batch⟩, polled))
    (hreceives : transport.Receives batch queued) (hadmitted : agent.Admitted polled)
    (hendpoint : Printable agent.endpoint)
    (hsizes : List.Forall₂ (fun task turn => postSize agent.endpoint agent.token agent.node_id
      (assignment task) (outcomeOf turn.result) < 2^64) batch turns)
    (hspares : Undisturbed agent.node_id turns) :
    Covered agent.node_id (taskLoop transport agent (jsonObjects queued) turns time polled).2 batch
        turns (taskLoop transport agent (jsonObjects queued) turns time polled).1 ↔
      ∀ (i : ℕ) (task : Task) (turn : Turn), batch[i]? = some task → turns[i]? = some turn →
        ((turns.take (i + 1)).map Turn.duration).sum ≤ max task.timeout_ms 30000 + 5000 ∧
          turn.persists = true ∧ transport.Delivers agent task turn ∧
          (i + 1 < batch.length → transport.GoesOn agent task turn) := by
  rw [covered_iff_kept hrun htime hids hclock hquery hpoll hreceives hadmitted hendpoint hsizes
    hspares]
  refine forall₃_congr fun i task turn => forall_congr' fun hi => forall_congr' fun _ =>
    and_congr_left fun _ => ?_
  rw [lease_until_of_polled hquery hpoll (List.mem_of_getElem? hi)]
  omega

end Cover

/-! ## Two tasks -/

section Example

attribute [local instance] compactSerde rfc8259_compactSerde compactText
  lawful_compactText noKeys ownDigest lawful_ownDigest

/-- The administrator enrols the node `n1` and creates two tasks for it. -/
def pairRun : List Event × Store :=
  handleAll exampleState [(exampleEnv 0, .createNode exampleBodies.1 none),
    (exampleEnv 0, .createTask exampleBodies.2 none),
    ({ exampleEnv 0 with sequence := fun _ => 2 }, .createTask exampleBodies.2 none)] .empty

/-- The node polls. -/
def pairPoll : Response × Store :=
  agentTasks exampleState (stopped (exampleEnv 0) 0) "/v1/agent/tasks?node_id=n1" pairRun.2

/-- The tasks that it gets. -/
def pair : List Task := pairPoll.1.reply.shownTasks

/-- Its agent. -/
def pairAgent : Agent :=
  ⟨"127.0.0.1:8080", "n1", "000000000000000000000000000000000000000000000000"⟩

/-- A task that takes some time, and prints nothing. Its upload arrives byte by byte. -/
def quietTurn (duration : ℕ) : Turn where
  others := []
  duration := duration
  result := .ok ("", 0)
  st := exampleState
  env := exampleEnv 0
  persists := true
  cut request := ⟨request.map fun byte => [byte], by
    refine ⟨List.flatMap_singleton' request, fun piece hpiece => ?_⟩
    obtain ⟨byte, -, rfl⟩ := List.mem_map.mp hpiece
    exact ⟨List.cons_ne_nil _ _, by simp⟩⟩
  mask := Vector.replicate 4 7

/-- The results of the two tasks, which take some time each. -/
def pairLoop (first second : ℕ) : List ℕ × Store :=
  taskLoop .polling pairAgent (jsonObjects (Reply.tasks pair).render)
    [quietTurn first, quietTurn second] 0 pairPoll.2

/-- Both tasks are handed out, with the timeout that tasks have by default, and their results are
small. -/
theorem pair_evaluated : pairPoll.1.status = .ok ∧ pair.map Task.timeout_ms = [30000, 30000] ∧
    (∀ task ∈ pair, postSize pairAgent.endpoint pairAgent.token pairAgent.node_id (assignment task)
      (outcomeOf (.ok ("", 0))) ≤ maxRequestBytes) ∧
    (pairPoll.2.nodes.any fun node => node.id == pairAgent.node_id &&
      node.credential == pairAgent.token && !node.revoked) = true ∧
    (pairRun.1.filterMap Event.sequence).Nodup ∧
    queryField "/v1/agent/tasks?node_id=n1" "node_id" = some pairAgent.node_id ∧
    pairAgent.endpoint.toList.all (fun c => !isAsciiControl c) = true := by
  decide +kernel

/-- The clock of the run fits. -/
theorem inTime_pairRun : InTime pairRun.1 := by
  have hclock (n : ℕ) : Env.ClockFits { exampleEnv 0 with sequence := fun _ => n } := by
    intro site
    show 0 + 305000 ≤ u64Max
    decide
  refine inTime_handleAll fun call hcall => ?_
  simp only [List.mem_cons, List.not_mem_nil, or_false] at hcall
  obtain rfl | rfl | rfl := hcall
  · exact hclock 1
  · exact hclock 1
  · exact hclock 2

/-- Their identifiers differ. -/
theorem newIdsDiffer_pairRun : NewIdsDiffer pairRun.1 :=
  newIdsDiffer_handleAll pair_evaluated.2.2.2.2.1

/-- The poll hands out both tasks. -/
theorem pair_polled : agentTasks exampleState (stopped (exampleEnv 0) 0)
    "/v1/agent/tasks?node_id=n1" pairRun.2 = (⟨.ok, .tasks pair⟩, pairPoll.2) :=
  agentTasks_ok (Eq.refl pairPoll) pair_evaluated.1

/-- Both have the timeout that tasks have by default. -/
theorem pair_timeouts : ∃ first second, pair = [first, second] ∧ first.timeout_ms = 30000 ∧
    second.timeout_ms = 30000 := by
  have htimeouts := pair_evaluated.2.1
  have hlength : pair.length = 2 := by
    rw [← List.length_map Task.timeout_ms, htimeouts]
    rfl
  obtain ⟨first, second, hpair⟩ := List.length_eq_two.mp hlength
  rw [hpair, List.map_cons, List.map_singleton, List.cons.injEq, List.singleton_inj] at htimeouts
  exact ⟨first, second, hpair, htimeouts⟩

/-- The agent has the credential of the node. -/
theorem admitted_pairAgent : pairAgent.Admitted pairPoll.2 := by
  have hany := pair_evaluated.2.2.2.1
  simp only [List.any_eq_true, Bool.and_eq_true, beq_iff_eq, Bool.not_eq_true'] at hany
  obtain ⟨node, hnode, ⟨hid, hcredential⟩, hlive⟩ := hany
  exact ⟨node, hnode, hid, hcredential, hlive⟩

/-- Its endpoint may be in a line of a header. -/
theorem printable_pairAgent : Printable pairAgent.endpoint :=
  printable_of_decide pair_evaluated.2.2.2.2.2.2

/-- The requests are small. -/
theorem pair_sizes (first second : ℕ) :
    List.Forall₂ (fun task turn => postSize pairAgent.endpoint pairAgent.token pairAgent.node_id
      (assignment task) (outcomeOf turn.result) < 2^64) pair
      [quietTurn first, quietTurn second] := by
  have hsmall := pair_evaluated.2.2.1
  obtain ⟨task, task', hpair, -⟩ := pair_timeouts
  rw [hpair] at hsmall ⊢
  have hmax : maxRequestBytes < 2^64 := by decide
  have hfirst := hsmall task List.mem_cons_self
  have hsecond := hsmall task' (List.mem_cons_of_mem _ List.mem_cons_self)
  exact .cons (hfirst.trans_lt hmax) (.cons (hsecond.trans_lt hmax) .nil)

/-- Nothing else happens. -/
theorem undisturbed_pair (first second : ℕ) :
    Undisturbed pairAgent.node_id [quietTurn first, quietTurn second] :=
  List.forall_mem_cons.mpr ⟨List.forall_mem_nil _,
    List.forall_mem_singleton.mpr (List.forall_mem_nil _)⟩

/-- Ten seconds each are covered, for the two tasks one after the other. -/
theorem leases_cover_short : Covered "n1" (pairLoop 10000 10000).2 pair
    [quietTurn 10000, quietTurn 10000] (pairLoop 10000 10000).1 := by
  refine (leases_cover_iff (run_handleAll _ _ _) inTime_pairRun newIdsDiffer_pairRun (by decide)
    pair_evaluated.2.2.2.2.2.1 pair_polled .polling admitted_pairAgent printable_pairAgent
    (pair_sizes 10000 10000) (undisturbed_pair 10000 10000)).mpr fun i task turn hi hi' => ?_
  have hmem : turn ∈ [quietTurn 10000, quietTurn 10000] := List.mem_of_getElem? hi'
  obtain rfl : turn = quietTurn 10000 := by simpa using hmem
  have hbound : i < 2 := (List.getElem?_eq_some_iff.mp hi').1
  have hsum : (([quietTurn 10000, quietTurn 10000].take (i + 1)).map Turn.duration).sum ≤
      20000 := by
    interval_cases i <;> decide
  exact ⟨by omega, rfl, pair_evaluated.2.2.1 task (List.mem_of_getElem? hi), fun _ => trivial⟩

/-- Half a minute for the first of two tasks is within its timeout, and so are ten seconds for the
second one, whose result comes too late. -/
theorem leases_too_short :
    List.Forall₂ (fun turn task => turn.duration ≤ task.timeout_ms)
        [quietTurn 30000, quietTurn 10000] pair ∧
      ¬Covered "n1" (pairLoop 30000 10000).2 pair [quietTurn 30000, quietTurn 10000]
        (pairLoop 30000 10000).1 := by
  have hquery := pair_evaluated.2.2.2.2.2.1
  have hcover := covered_iff_kept (run_handleAll _ _ _) inTime_pairRun newIdsDiffer_pairRun
    (by decide) hquery pair_polled .polling admitted_pairAgent printable_pairAgent
    (pair_sizes 30000 10000) (undisturbed_pair 30000 10000)
  obtain ⟨first, second, hpair, hfirst, hsecond⟩ := pair_timeouts
  constructor
  · rw [hpair]
    exact .cons hfirst.ge (.cons (by rw [hsecond]; decide) .nil)
  · intro hcovered
    have hmem : second ∈ pair := by
      rw [hpair]
      exact List.mem_cons_of_mem _ List.mem_cons_self
    have hlate := (hcover.mp hcovered 1 second (quietTurn 10000) (by rw [hpair]; rfl) rfl).1
    rw [lease_until_of_polled hquery pair_polled hmem, hsecond] at hlate
    exact absurd hlate (by decide)

end Example

end NodeWe.NodeRuntime
