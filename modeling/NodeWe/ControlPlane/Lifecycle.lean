import Mathlib.Logic.Relation
import NodeWe.ControlPlane.Runs

/-!
# The life of a task

The node runtime specifies the states of a task (`TaskState`) and the steps between them
(`can_transition_to`). The control plane keeps the state as a text and changes it in four handlers.
`tasks_live` relates the two over every run of requests from a reachable store: no task is lost,
what was asked for stays as it is, the state moves along the specified steps, and a task that is
over stays as it is.
-/

namespace NodeWe.ControlPlane

open Text InPlace Transition

/-! ## The specified states -/

/-- `TaskState` of the node runtime. -/
inductive TaskState
  | pending
  | approved
  | running
  | succeeded
  | failed
  | cancelRequested
  | cancelled
  | timedOut
  deriving DecidableEq

/-- `TaskState::can_transition_to`. -/
def TaskState.canTransitionTo : TaskState → TaskState → Bool
  | pending, approved | pending, cancelRequested => true
  | approved, running | approved, cancelRequested => true
  | running, succeeded | running, failed | running, cancelRequested | running, timedOut => true
  | cancelRequested, cancelled => true
  | _, _ => false

/-- How the state of a task is read. -/
def TaskState.ofText (state : String) : Option TaskState :=
  if state = "queued" then some approved
  else if state = "dispatched" then some running
  else if state = "succeeded" then some succeeded
  else if state = "failed" then some failed
  else if state = "cancelled" then some cancelled
  else if state = "timed_out" then some timedOut
  else none

/-- A path of specified steps, which may be empty. -/
def TaskState.Path : TaskState → TaskState → Prop :=
  Relation.ReflTransGen fun state next => state.canTransitionTo next = true

/-- A live task is approved or running. -/
theorem TaskState.ofText_live {state : String} (h : state ∈ taskStates)
    (hlive : state ∉ terminalStates) : state = "queued" ∨ state = "dispatched" := by
  rcases List.mem_cons.mp h with rfl | h
  · exact .inl rfl
  · exact .inr ((List.mem_cons.mp h).resolve_right hlive)

/-! ## One task -/

/-- What may become of a task. -/
structure Lives (task task' : Task) : Prop where
  id : task'.id = task.id
  request_id : task'.request_id = task.request_id
  actor : task'.actor = task.actor
  node_id : task'.node_id = task.node_id
  ability : task'.ability = task.ability
  idempotency_key : task'.idempotency_key = task.idempotency_key
  program : task'.program = task.program
  argument : task'.argument = task.argument
  timeout_ms : task'.timeout_ms = task.timeout_ms
  output_limit : task'.output_limit = task.output_limit
  path : ∃ state state', TaskState.ofText task.state = some state ∧
    TaskState.ofText task'.state = some state' ∧ state.Path state'
  frozen : task.state ∈ terminalStates → task'.state = task.state ∧ task'.output = task.output ∧
    task'.output_sha256 = task.output_sha256 ∧ task'.output_truncated = task.output_truncated ∧
    task'.exit_code = task.exit_code

/-- A task with a known state lives on as it is. -/
theorem Lives.refl {task : Task} (h : task.state ∈ taskStates) : Lives task task := by
  have hread : ∀ state ∈ taskStates, (TaskState.ofText state).isSome = true := by decide
  obtain ⟨state, hstate⟩ := Option.isSome_iff_exists.mp (hread _ h)
  exact ⟨rfl, rfl, rfl, rfl, rfl, rfl, rfl, rfl, rfl, rfl, ⟨state, state, hstate, hstate, .refl⟩,
    fun _ => ⟨rfl, rfl, rfl, rfl, rfl⟩⟩

/-- Lives compose. -/
theorem Lives.trans {task task' task'' : Task} (h : Lives task task') (h' : Lives task' task'') :
    Lives task task'' where
  id := h'.id.trans h.id
  request_id := h'.request_id.trans h.request_id
  actor := h'.actor.trans h.actor
  node_id := h'.node_id.trans h.node_id
  ability := h'.ability.trans h.ability
  idempotency_key := h'.idempotency_key.trans h.idempotency_key
  program := h'.program.trans h.program
  argument := h'.argument.trans h.argument
  timeout_ms := h'.timeout_ms.trans h.timeout_ms
  output_limit := h'.output_limit.trans h.output_limit
  path := by
    obtain ⟨state, middle, hstate, hmiddle, hpath⟩ := h.path
    obtain ⟨middle', state'', hmiddle', hstate'', hpath'⟩ := h'.path
    obtain rfl : middle = middle' := Option.some.inj (hmiddle.symm.trans hmiddle')
    exact ⟨state, state'', hstate, hstate'', hpath.trans hpath'⟩
  frozen := by
    intro hterminal
    obtain ⟨hstate, houtput, hsha, htruncated, hexit⟩ := h.frozen hterminal
    rw [← hstate] at hterminal
    obtain ⟨hstate', houtput', hsha', htruncated', hexit'⟩ := h'.frozen hterminal
    exact ⟨hstate'.trans hstate, houtput'.trans houtput, hsha'.trans hsha,
      htruncated'.trans htruncated, hexit'.trans hexit⟩

/-- A task that is not over may be cancelled: the cancellation is requested and then done. -/
theorem lives_cancelledTask {task : Task} (h : task.state = "queued" ∨ task.state = "dispatched") :
    Lives task (cancelledTask task) := by
  have hover : task.state ∉ terminalStates := by
    rcases h with h | h <;> rw [h] <;> decide
  refine ⟨rfl, rfl, rfl, rfl, rfl, rfl, rfl, rfl, rfl, rfl, ?_, fun h => absurd h hover⟩
  have hdone : TaskState.Path .cancelRequested .cancelled := .single rfl
  rcases h with h | h
  · exact ⟨.approved, .cancelled, by rw [h]; rfl, rfl, hdone.head rfl⟩
  · exact ⟨.running, .cancelled, by rw [h]; rfl, rfl, hdone.head rfl⟩

/-- A queued task may be dispatched, and a dispatched one dispatched again. -/
theorem lives_leased {env : Env} {token : String} {task : Task}
    (h : task.state = "queued" ∨ task.state = "dispatched") :
    Lives task (leased env token task) := by
  have hover : task.state ∉ terminalStates := by
    rcases h with h | h <;> rw [h] <;> decide
  refine ⟨rfl, rfl, rfl, rfl, rfl, rfl, rfl, rfl, rfl, rfl, ?_, fun h => absurd h hover⟩
  rcases h with h | h
  · exact ⟨.approved, .running, by rw [h]; rfl, rfl, .single rfl⟩
  · exact ⟨.running, .running, by rw [h]; rfl, rfl, .refl⟩

/-- A dispatched task may end in any terminal state. -/
theorem lives_completed {task : Task} {upload : ResultUpload} (h : task.state = "dispatched")
    (hterminal : upload.state ∈ terminalStates) : Lives task (completed task upload) := by
  have hover : task.state ∉ terminalStates := by rw [h]; decide
  refine ⟨rfl, rfl, rfl, rfl, rfl, rfl, rfl, rfl, rfl, rfl, ?_, fun h => absurd h hover⟩
  have hrunning : TaskState.ofText task.state = some .running := by rw [h]; rfl
  have hstate : (completed task upload).state = upload.state := rfl
  rw [hstate]
  simp only [terminalStates, List.mem_cons, List.not_mem_nil, or_false] at hterminal
  rcases hterminal with h | h | h | h
  · exact ⟨.running, .succeeded, hrunning, by rw [h]; rfl, .single rfl⟩
  · exact ⟨.running, .failed, hrunning, by rw [h]; rfl, .single rfl⟩
  · exact ⟨.running, .cancelled, hrunning, by rw [h]; rfl,
      .head (b := .cancelRequested) rfl (.single rfl)⟩
  · exact ⟨.running, .timedOut, hrunning, by rw [h]; rfl, .single rfl⟩

/-! ## Every run -/

section Steps

variable [Serde] {env : Env} {arm : Arm}

/-- A step of a task is one that it may take. -/
theorem TaskStep.lives {task task' : Task} (h : TaskStep env arm task task')
    (hknown : task.state ∈ taskStates) : Lives task task' := by
  cases h with
  | same => exact .refl hknown
  | cancelled path actor task htarget hallowed hlive =>
    exact lives_cancelledTask (TaskState.ofText_live hknown hlive)
  | revoked id actor task hlive =>
    simp only [liveOn, Bool.and_eq_true, Bool.or_eq_true, beq_iff_eq] at hlive
    exact lives_cancelledTask hlive.2
  | leased path node_id k token task hquery hclaim htoken =>
    refine lives_leased ?_
    simp only [claimable, Bool.and_eq_true, Bool.or_eq_true, beq_iff_eq] at hclaim
    exact hclaim.2.imp id And.left
  | completed path body upload task hparsed htarget haccepted =>
    have htakes := refusedResult_none haccepted
    exact lives_completed htakes.dispatched htakes.terminal

variable [Ed25519]

/-- The tasks of a well-formed store live on over every run of requests. -/
theorem Lives.of_run {store store' : Store} {events : List Event} (hstore : WellFormed store)
    (hrun : Run Handles store events store') : Evolves Lives store.tasks store'.tasks := by
  refine hrun.related (P := fun store => WellFormed store)
    (R := fun store store' => Evolves Lives store.tasks store'.tasks) ?_ ?_ hstore ?_
  · intro store h i task htask
    exact ⟨task, htask, .refl (h.states task (List.mem_of_getElem? htask))⟩
  · intro store store' store'' h h'
    exact Evolves.trans (R := Lives) (fun _ _ _ hlives hlives' => hlives.trans hlives') h h'
  · intro store event store' h hstep
    refine ⟨(Happens.handled _ _ _ hstep).wellFormed h, fun i task htask => ?_⟩
    have hknown := h.states task (List.mem_of_getElem? htask)
    cases hstep with
    | handled st env arm =>
      obtain ⟨task', htask', hlives⟩ := (arm.run_effect st env store).tasks_evolve i task htask
      exact ⟨task', htask', hlives.lives hknown⟩

/-- **Tasks live as specified.** Over every run of requests from a reachable store, each task keeps
its place and what was asked for, its state moves along specified steps, and once it is over its
result stays. -/
theorem tasks_live {store store' : Store} {events : List Event} (hreach : Reachable store)
    (hrun : Run Handles store events store') : Evolves Lives store.tasks store'.tasks :=
  Lives.of_run hreach.wellFormed hrun

end Steps

section Example

attribute [local instance] exampleParser noKeys

/-- A queued task is dispatched. -/
theorem tasks_live_dispatch : Evolves Lives queuedStore.tasks dispatchedStore.tasks :=
  tasks_live reachable_queuedStore (.single (.handled exampleState (exampleEnv 0)
    (.agentTasks "/v1/agent/tasks?node_id=n1") queuedStore))

end Example

end NodeWe.ControlPlane
