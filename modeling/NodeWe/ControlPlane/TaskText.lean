import NodeWe.JsonText
import NodeWe.ControlPlane.WebSocket

/-!
# The texts of tasks

The values that the control plane prints for the agents: a task, the tasks of a poll, and the
envelope of the channel. Each text that the source formats is the text of its value, whatever the
fields hold.
-/

namespace NodeWe.ControlPlane

open Text

/-! ## Values -/

/-- An integer, or `null`. -/
def optionalInteger (code : Option ℤ) : Value :=
  (code.map fun n => Value.number (.ofInt n)).getD .null

/-- The members of a task, as `task_json` names them. -/
def taskMembers (task : Task) : List (String × Value) :=
  [("task_id", .string task.id), ("request_id", .string task.request_id),
    ("actor", .string task.actor), ("node_id", .string task.node_id),
    ("ability", .string task.ability), ("state", .string task.state),
    ("idempotency_key", .string task.idempotency_key), ("program", .string task.program),
    ("argument", .string task.argument), ("output", .string task.output),
    ("output_sha256", .string task.output_sha256),
    ("output_truncated", .bool task.output_truncated),
    ("output_limit", .number (.ofNat task.output_limit)),
    ("exit_code", optionalInteger task.exit_code),
    ("lease_until", .number (.ofNat task.lease_until)), ("lease_token", .string task.lease_token),
    ("timeout_ms", .number (.ofNat task.timeout_ms))]

/-- The value of a task. -/
def taskValue (task : Task) : Value := .object (taskMembers task)

/-- The members of an envelope. -/
def envelopeMembers (node_id request_id message_type : String) (payload : Value) :
    List (String × Value) :=
  [("protocol_version", .number (.ofNat 1)), ("agent_version", .string version),
    ("node_id", .string node_id), ("request_id", .string request_id),
    ("type", .string message_type), ("payload", payload)]

/-- The numbers of a task are in the ranges of their types. -/
structure TaskInRange (task : Task) : Prop where
  output_limit : task.output_limit ≤ u64Max
  exit_code : ∀ code ∈ task.exit_code, -2^31 ≤ code ∧ code < 2^31
  lease_until : task.lease_until ≤ u64Max
  timeout_ms : task.timeout_ms ≤ u64Max

/-! ## Texts -/

/-- The characters of an integer, or of `null`. -/
theorem chars_optionalInteger (code : Option ℤ) :
    (optionalInteger code).chars = ((code.map Int.repr).getD "null").toList := by
  cases code <;> simp [optionalInteger, Value.chars, Number.text_ofInt]

set_option maxRecDepth 2000 in
/-- A task is printed as its value. -/
theorem taskJson_eq_text (task : Task) : taskJson task = (taskValue task).text := by
  have hkeys : ∀ key ∈ ["task_id", "request_id", "actor", "node_id", "ability", "state",
      "idempotency_key", "program", "argument", "output", "output_sha256", "output_truncated",
      "output_limit", "exit_code", "lease_until", "lease_token", "timeout_ms"],
      (quoted key).toList = '"' :: (key.toList ++ ['"']) := by
    decide +kernel
  simp only [List.forall_mem_cons] at hkeys
  rw [Value.text, ← String.toList_inj, String.toList_ofList]
  unfold taskJson taskValue taskMembers
  simp [Value.chars, Value.memberChars, chars_optionalInteger, Number.text_ofNat, hkeys]

/-- An envelope is printed as its value. -/
theorem websocketEnvelope_eq_text (node_id request_id message_type : String) (payload : Value) :
    websocketEnvelope node_id request_id message_type payload.text =
      (Value.object (envelopeMembers node_id request_id message_type payload)).text := by
  have hkeys : ∀ key ∈ ["protocol_version", "agent_version", "node_id", "request_id", "type",
      "payload", version], (quoted key).toList = '"' :: (key.toList ++ ['"']) := by
    decide +kernel
  simp only [List.forall_mem_cons] at hkeys
  have hone : (Number.ofNat 1).text.toList = ['1'] := rfl
  rw [← String.toList_inj]
  unfold websocketEnvelope envelopeMembers
  simp [Value.chars, Value.memberChars, Value.text, hkeys, hone]

/-- The items of an array, joined by commas. -/
theorem toList_intercalate_text (items : List Value) :
    (",".intercalate (items.map Value.text)).toList = Value.itemChars items := by
  induction items with
  | nil => rfl
  | cons v rest ih =>
    cases rest with
    | nil => simp [Value.itemChars, Value.text]
    | cons w rest =>
      rw [List.map_cons, String.intercalate_cons_of_ne_nil (by simp), String.toList_append,
        String.toList_append, ih, Value.itemChars]
      simp [Value.text]

/-- An array is printed as its value. -/
theorem jsonArray_eq_text (items : List Value) :
    jsonArray (items.map Value.text) = (Value.array items).text := by
  rw [Value.text, ← String.toList_inj, String.toList_ofList, Value.chars, jsonArray,
    String.toList_append, String.toList_append, toList_intercalate_text]
  rfl

/-- The tasks of a poll are printed as the array of their values. -/
theorem render_tasks_eq_text (tasks : List Task) :
    (Reply.tasks tasks).render = (Value.array (tasks.map taskValue)).text := by
  have htexts : tasks.map taskJson = (tasks.map taskValue).map Value.text := by
    rw [List.map_map]
    exact List.map_congr_left fun task _ => taskJson_eq_text task
  show jsonArray (tasks.map taskJson) = _
  rw [htexts, jsonArray_eq_text]

/-! ## Values that fit -/

/-- An integer, or `null`, fits. -/
theorem fits_optionalInteger (code : Option ℤ) : (optionalInteger code).Fits := by
  cases code with
  | none => exact .null
  | some n => exact .number _ (Number.fits_ofInt n)

/-- The value of a task fits. -/
theorem fits_taskValue (task : Task) : (taskValue task).Fits := by
  refine .object _ (by simp [taskMembers]) ?_
  simp only [taskMembers, List.forall_mem_cons, List.not_mem_nil, false_imp_iff, implies_true,
    and_true]
  exact ⟨.string _, .string _, .string _, .string _, .string _, .string _, .string _, .string _,
    .string _, .string _, .string _, .bool _, .number _ (Number.fits_ofNat _),
    fits_optionalInteger _, .number _ (Number.fits_ofNat _), .string _,
    .number _ (Number.fits_ofNat _)⟩

/-! ## Whole values -/

/-- An exit code, or `null`, is whole. -/
theorem whole_optionalInteger {code : Option ℤ} (h : ∀ n ∈ code, -2^31 ≤ n ∧ n < 2^31) :
    (optionalInteger code).Whole := by
  cases code with
  | none => exact .null
  | some n =>
    obtain ⟨hlow, hhigh⟩ := h n rfl
    exact .number n (by omega) (by unfold u64Max; omega)

/-- The value of a task in range is whole. -/
theorem whole_taskValue {task : Task} (h : TaskInRange task) : (taskValue task).Whole := by
  refine .object _ (by simp [taskMembers]) ?_
  simp only [taskMembers, List.forall_mem_cons, List.not_mem_nil, false_imp_iff, implies_true,
    and_true]
  exact ⟨.string _, .string _, .string _, .string _, .string _, .string _, .string _, .string _,
    .string _, .string _, .string _, .bool _, Value.whole_ofNat h.output_limit,
    whole_optionalInteger h.exit_code, Value.whole_ofNat h.lease_until, .string _,
    Value.whole_ofNat h.timeout_ms⟩

/-- An envelope of a whole value is whole. -/
theorem whole_envelope (node_id request_id message_type : String) {payload : Value}
    (h : payload.Whole) :
    (Value.object (envelopeMembers node_id request_id message_type payload)).Whole := by
  refine .object _ (by simp [envelopeMembers]) ?_
  simp only [envelopeMembers, List.forall_mem_cons, List.not_mem_nil, false_imp_iff, implies_true,
    and_true]
  exact ⟨Value.whole_ofNat (by decide), .string _, .string _, .string _, .string _, h⟩

end NodeWe.ControlPlane
