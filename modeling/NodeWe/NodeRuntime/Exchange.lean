import NodeWe.NodeRuntime.Agent
import NodeWe.ControlPlane.TaskText
import NodeWe.ControlPlane.AuditBinding
import NodeWe.ControlPlane.History

/-!
# What the two programs tell each other

A task goes to the agent as text: the control plane formats it with `esc`, the agent parses the
array or the envelope that it is in, prints each task again, and parses it once more for each field.
A result comes back as text that the agent formats with `escape`. Every field arrives as it was sent
(`task_data_round_trips`), since each of these texts is a text of the grammar.
-/

namespace NodeWe.NodeRuntime

open Text ControlPlane

/-! ## Reading -/

section Reading

variable [Serde] [Rfc8259]

/-- The agent reads the text members of an object. -/
theorem jsonValue_denotes {text : String} {members : List (String × Value)}
    (h : Denotes text.toList (.object members)) (hbounded : (Value.object members).Bounded)
    (key : String) : jsonValue text key = ((Value.object members).get key).bind Value.asStr := by
  obtain ⟨read, hread, hget⟩ := fromStr_object h hbounded
  rw [jsonValue, hread, Option.bind_some, hget, bind_asStr_arrange]

/-- The agent reads the numeric members of an object. -/
theorem jsonNumber_denotes {text : String} {members : List (String × Value)}
    (h : Denotes text.toList (.object members)) (hbounded : (Value.object members).Bounded)
    (key : String) : jsonNumber text key = ((Value.object members).get key).bind Value.asU64 := by
  obtain ⟨read, hread, hget⟩ := fromStr_object h hbounded
  rw [jsonNumber, hread, Option.bind_some, hget, bind_asU64_arrange]

/-- The agent takes an array of objects apart. -/
theorem jsonObjects_denotes [SerdeText] {text : String} {items : List Value}
    (h : Denotes text.toList (.array items)) (hbounded : (Value.array items).Bounded)
    (hobjects : ∀ v ∈ items, isObject v = true) :
    jsonObjects text = items.map fun v => SerdeText.toText (v.arrange Rfc8259.order) := by
  have hread := Rfc8259.reads h hbounded
  rw [String.ofList_toList, Value.arrange, Value.arrangeItems_eq_map] at hread
  have hkept : (items.map (Value.arrange Rfc8259.order)).filter isObject =
      items.map (Value.arrange Rfc8259.order) := by
    refine List.filter_eq_self.mpr (List.forall_mem_map.mpr fun v hv => ?_)
    have hobject := hobjects v hv
    cases v <;> exact hobject
  rw [jsonObjects, hread, Option.bind_some]
  show ((items.map (Value.arrange Rfc8259.order)).filter isObject).map SerdeText.toText = _
  rw [hkept, List.map_map]
  rfl

end Reading

/-! ## Tasks -/

/-- What the agent is to do for a task. A limit that is out of the agent's range is its default. -/
def assignment (task : Task) : Assignment where
  task_id := task.id
  request_id := task.request_id
  lease_token := task.lease_token
  timeout_ms := if 0 < task.timeout_ms ∧ task.timeout_ms ≤ 300000 then task.timeout_ms else 30000
  output_limit := if 0 < task.output_limit ∧ task.output_limit ≤ maxOutput then task.output_limit
    else maxOutput
  ability := task.ability
  program := task.program
  argument := task.argument

/-- A value that looks up as a task does, in whatever order its members are. -/
structure LooksUp (task : Task) (v : Value) : Prop where
  whole : v.Whole
  depth : v.depth ≤ 1
  object : isObject v = true
  asStr : ∀ key, (v.get key).bind Value.asStr = ((taskValue task).get key).bind Value.asStr
  asU64 : ∀ key, (v.get key).bind Value.asU64 = ((taskValue task).get key).bind Value.asU64

/-- The value of a task is not nested. -/
theorem depth_taskValue (task : Task) : (taskValue task).depth = 1 := by
  have hcode : (optionalInteger task.exit_code).depth = 0 := by
    cases task.exit_code <;> rfl
  simp [taskValue, taskMembers, Value.depth, Value.membersDepth, hcode]

/-- The value of a task looks up as the task does. -/
theorem looksUp_taskValue {task : Task} (h : TaskInRange task) : LooksUp task (taskValue task) :=
  ⟨whole_taskValue h, (depth_taskValue task).le, rfl, fun _ => rfl, fun _ => rfl⟩

section Tasks

variable [Serde] [Rfc8259] {task : Task} {v : Value}

/-- A value that is arranged looks up as before. -/
theorem LooksUp.arrange (h : LooksUp task v) : LooksUp task (v.arrange Rfc8259.order) := by
  have hwhole := h.whole.arrange Rfc8259.perm_order
  have hdepth := (h.whole.depth_arrange Rfc8259.perm_order).trans h.depth
  have hasStr := h.asStr
  have hasU64 := h.asU64
  obtain ⟨members, rfl⟩ : ∃ members, v = .object members := by
    have hobject := h.object
    cases v <;> first | exact ⟨_, rfl⟩ | cases hobject
  have hkeys : (members.map Prod.fst).Nodup := by
    cases h.whole with
    | object _ hkeys _ => exact hkeys
  refine ⟨hwhole, hdepth, rfl, fun key => ?_, fun key => ?_⟩
  · rw [Value.get_arrange Rfc8259.perm_order hkeys, bind_asStr_arrange, hasStr]
  · rw [Value.get_arrange Rfc8259.perm_order hkeys, bind_asU64_arrange, hasU64]

variable [SerdeText] [LawfulPrinter]

omit [Rfc8259] [SerdeText] [LawfulPrinter] in
/-- A number that is there is taken where it is within its range. -/
theorem numberWithin_eq {text key : String} {n : ℕ} (h : jsonNumber text key = some n)
    (max default : ℕ) :
    numberWithin text key max default = if 0 < n ∧ n ≤ max then n else default := by
  rw [numberWithin, h, Option.filter_some]
  split_ifs <;> simp_all

/-- A value that looks up as a task does is read as the task once it is printed. -/
theorem LooksUp.readTask (h : LooksUp task v) (hrange : TaskInRange task) :
    readTask (SerdeText.toText v) = .ok (assignment task) := by
  have hprinted := LawfulPrinter.prints h.whole
  have hbounded : v.Bounded := ⟨h.whole, h.depth.trans (by omega)⟩
  have hasStr := h.asStr
  have hasU64 := h.asU64
  obtain ⟨members, rfl⟩ : ∃ members, v = .object members := by
    have hobject := h.object
    cases v <;> first | exact ⟨_, rfl⟩ | cases hobject
  have hvalue (key : String) : jsonValue (SerdeText.toText (.object members)) key =
      ((taskValue task).get key).bind Value.asStr := by
    rw [jsonValue_denotes hprinted hbounded, hasStr]
  have hnumber (key : String) : jsonNumber (SerdeText.toText (.object members)) key =
      ((taskValue task).get key).bind Value.asU64 := by
    rw [jsonNumber_denotes hprinted hbounded, hasU64]
  have htimeout : numberWithin (SerdeText.toText (.object members)) "timeout_ms" 300000 30000 =
      (assignment task).timeout_ms := by
    refine numberWithin_eq ((hnumber "timeout_ms").trans ?_) 300000 30000
    simp [taskValue, taskMembers, Value.get, Value.asU64, Number.ofNat, hrange.timeout_ms]
  have hlimit : numberWithin (SerdeText.toText (.object members)) "output_limit" maxOutput maxOutput =
      (assignment task).output_limit := by
    refine numberWithin_eq ((hnumber "output_limit").trans ?_) maxOutput maxOutput
    simp [taskValue, taskMembers, Value.get, Value.asU64, Number.ofNat, hrange.output_limit]
  unfold NodeRuntime.readTask
  rw [htimeout, hlimit]
  simp only [hvalue]
  simp [taskValue, taskMembers, Value.get, Value.asStr, assignment]

/-- An array of values that look up as tasks do is read as the tasks. -/
theorem readTasks {text : String} {tasks : List Task} {value : Task → Value}
    (h : Denotes text.toList (.array (tasks.map value)))
    (hvalue : ∀ task ∈ tasks, LooksUp task (value task))
    (hrange : ∀ task ∈ tasks, TaskInRange task) :
    (jsonObjects text).map NodeRuntime.readTask = tasks.map fun task => .ok (assignment task) := by
  have hbounded : (Value.array (tasks.map value)).Bounded := by
    have hitems : Value.itemsDepth (tasks.map value) ≤ 1 :=
      Value.itemsDepth_le.mpr (List.forall_mem_map.mpr fun task htask => (hvalue task htask).depth)
    refine ⟨.array _ (List.forall_mem_map.mpr fun task htask => (hvalue task htask).whole), ?_⟩
    rw [Value.depth]
    omega
  rw [jsonObjects_denotes h hbounded (List.forall_mem_map.mpr fun task htask =>
    (hvalue task htask).object), List.map_map, List.map_map]
  refine List.map_congr_left fun task htask => ?_
  exact (hvalue task htask).arrange.readTask (hrange task htask)

variable {tasks : List Task} (hrange : ∀ task ∈ tasks, TaskInRange task)

include hrange

omit [Serde] [Rfc8259] [SerdeText] [LawfulPrinter] in
/-- The array of the values of tasks in range is whole. -/
theorem whole_tasks : (Value.array (tasks.map taskValue)).Whole :=
  .array _ (List.forall_mem_map.mpr fun task htask => whole_taskValue (hrange task htask))

/-- The agent reads the tasks of a poll from the array. -/
theorem readTasks_render :
    (jsonObjects (Reply.tasks tasks).render).map NodeRuntime.readTask =
      tasks.map fun task => .ok (assignment task) := by
  rw [render_tasks_eq_text]
  exact readTasks (whole_tasks hrange).fits.denotes_text
    (fun task htask => looksUp_taskValue (hrange task htask)) hrange

/-- The agent reads the tasks of a poll from an envelope. -/
theorem readTasks_payload (node_id request_id message_type : String) :
    ∃ payload, jsonPayload (websocketEnvelope node_id request_id message_type
        (messagePayload ⟨.ok, .tasks tasks⟩)) = some payload ∧
      (jsonObjects payload).map NodeRuntime.readTask = tasks.map fun task => .ok (assignment task) := by
  have hwhole := whole_tasks hrange
  have hdepth : (Value.array (tasks.map taskValue)).depth ≤ 2 := by
    have hitems : Value.itemsDepth (tasks.map taskValue) ≤ 1 :=
      Value.itemsDepth_le.mpr (List.forall_mem_map.mpr fun task _ => (depth_taskValue task).le)
    rw [Value.depth]
    omega
  have henvelope := whole_envelope node_id request_id message_type hwhole
  have hdenotes := henvelope.fits.denotes_text
  have hsuccess : Status.ok.isSuccess = true := by decide
  have hbody : messagePayload ⟨.ok, .tasks tasks⟩ = (Value.array (tasks.map taskValue)).text := by
    rw [messagePayload, if_pos hsuccess, render_tasks_eq_text]
  rw [← websocketEnvelope_eq_text, ← hbody] at hdenotes
  obtain ⟨read, hread, hget⟩ := fromStr_object hdenotes ⟨henvelope, by
    simp only [envelopeMembers, Value.depth, Value.membersDepth] at hdepth ⊢
    omega⟩
  have hpayload : (Value.object (envelopeMembers node_id request_id message_type
      (.array (tasks.map taskValue)))).get "payload" = some (.array (tasks.map taskValue)) := rfl
  refine ⟨_, by rw [jsonPayload, hread, Option.bind_some, hget, hpayload]; rfl, ?_⟩
  -- The payload is printed from the tasks as the parser arranged them.
  have hprinted := LawfulPrinter.prints (hwhole.arrange Rfc8259.perm_order)
  rw [Value.arrange, Value.arrangeItems_eq_map, List.map_map] at hprinted ⊢
  exact readTasks hprinted (fun task htask => (looksUp_taskValue (hrange task htask)).arrange) hrange

end Tasks

/-! ## Results -/

/-- A text that `escape` leaves as it is. -/
def Unescaped (s : String) : Prop := ∀ c ∈ s.toList, escChar c = [c]

/-- `escape` leaves it as it is. -/
theorem Unescaped.quoted {s : String} (h : Unescaped s) :
    ControlPlane.quoted s = "\"" ++ s ++ "\"" := by
  have hchars : s.toList.flatMap escChar = s.toList := by
    rw [List.flatMap_congr h, List.flatMap_singleton']
  rw [ControlPlane.quoted, esc, hchars, String.ofList_toList]

/-- A digit is not escaped. -/
theorem escChar_digitChar : ∀ n < 16, escChar n.digitChar = [n.digitChar] := by decide

/-- Bytes in hexadecimal are not escaped. -/
theorem unescaped_hexEncodeBytes (bs : List UInt8) : Unescaped (hexEncodeBytes bs) := by
  intro c hc
  obtain ⟨n, hn, rfl⟩ := mem_hexEncodeBytes hc
  exact escChar_digitChar n hn

/-- A number is not escaped. -/
theorem unescaped_repr (n : ℤ) : Unescaped n.repr := by
  have hdigits {m : ℕ} {c : Char} (hc : c ∈ m.repr.toList) : escChar c = [c] := by
    have hdigit := isDigit_of_mem_repr hc
    have hcode : 48 ≤ c.toNat ∧ c.toNat ≤ 57 := by
      simpa [Char.isDigit, UInt32.le_iff_toNat_le] using hdigit
    have hother (d : Char) (hd : d.isDigit = false) : c ≠ d := by
      rintro rfl
      exact Bool.false_ne_true (hd.symm.trans hdigit)
    rw [escChar, if_neg (hother _ rfl), if_neg (hother _ rfl), if_neg (hother _ rfl),
      if_neg (hother _ rfl), if_neg (hother _ rfl), if_neg]
    simp only [isControl, Bool.or_eq_true, Bool.and_eq_true, decide_eq_true_eq]
    omega
  cases n with
  | ofNat m => exact fun c hc => hdigits hc
  | negSucc m =>
    intro c hc
    have hc : c ∈ ("-" ++ m.succ.repr).toList := hc
    rw [String.toList_append, List.mem_append] at hc
    rcases hc with hc | hc
    · rw [List.mem_singleton.mp hc]
      rfl
    · exact hdigits hc

/-- The state that is reported is not escaped. -/
theorem unescaped_outcomeOf (result : Except String (String × ℤ)) :
    Unescaped (outcomeOf result).state := by
  have hstates : Unescaped "succeeded" ∧ Unescaped "failed" := by
    constructor <;> simp [Unescaped, escChar, isControl]
  rcases result with error | ⟨output, code⟩
  · exact hstates.2
  · show Unescaped (if code = 0 then "succeeded" else "failed")
    split_ifs
    · exact hstates.1
    · exact hstates.2

section Results

variable [RingDigest] {node_id : String} {task : Assignment} {outcome : Outcome}

/-- The members of a result in both texts. -/
def outcomeFields (outcome : Outcome) : List (String × Value) :=
  [("state", .string outcome.state), ("output", .string outcome.output),
    ("output_sha256", .string (sha256Hex (bytes outcome.output))),
    ("exit_code", .string outcome.exit_code.repr)]

/-- The members of a result that is posted. -/
def bodyMembers (node_id : String) (task : Assignment) (outcome : Outcome) :
    List (String × Value) :=
  [("node_id", .string node_id), ("request_id", .string task.request_id),
    ("lease_token", .string task.lease_token)] ++ outcomeFields outcome

/-- The members of a result that is sent in a frame. -/
def messageMembers (node_id : String) (task : Assignment) (outcome : Outcome) :
    List (String × Value) :=
  [("protocol_version", .number (.ofNat 1)), ("agent_version", .string version),
    ("node_id", .string node_id), ("request_id", .string task.request_id),
    ("type", .string "task.result"), ("task_id", .string task.task_id),
    ("lease_token", .string task.lease_token)] ++ outcomeFields outcome

omit [RingDigest] in
/-- A member is printed as a text. -/
theorem member_eq (name value : String) : member name value = "\"" ++ name ++ "\":" ++ quoted value := by
  rw [member, escape, quoted, esc, ← String.toList_inj]
  simp

/-- The body is the text of its members. -/
theorem resultBody_eq_text (h : Unescaped outcome.state) :
    resultBody node_id task outcome = (Value.object (bodyMembers node_id task outcome)).text := by
  have hkeys : ∀ key ∈ ["node_id", "request_id", "lease_token", "state", "output", "output_sha256",
      "exit_code"], (quoted key).toList = '"' :: (key.toList ++ ['"']) := by
    decide +kernel
  simp only [List.forall_mem_cons] at hkeys
  have hhash := (unescaped_hexEncodeBytes (RingDigest.ringDigest (bytes outcome.output))).quoted
  have hcode := (unescaped_repr outcome.exit_code).quoted
  rw [Value.text, ← String.toList_inj, String.toList_ofList]
  unfold resultBody outcomeMembers bodyMembers outcomeFields sha256Hex
  simp only [member_eq]
  simp [Value.chars, Value.memberChars, hkeys, h.quoted, hhash, hcode]

set_option maxRecDepth 2000 in
/-- The message is the text of its members. -/
theorem resultMessage_eq_text (h : Unescaped outcome.state) :
    resultMessage node_id task outcome =
      (Value.object (messageMembers node_id task outcome)).text := by
  have hkeys : ∀ key ∈ ["protocol_version", "agent_version", "node_id", "request_id", "type",
      "task_id", "lease_token", "state", "output", "output_sha256", "exit_code", "task.result",
      version], (quoted key).toList = '"' :: (key.toList ++ ['"']) := by
    decide +kernel
  simp only [List.forall_mem_cons] at hkeys
  have hone : (Number.ofNat 1).text.toList = ['1'] := rfl
  have hhash := (unescaped_hexEncodeBytes (RingDigest.ringDigest (bytes outcome.output))).quoted
  have hcode := (unescaped_repr outcome.exit_code).quoted
  rw [Value.text, ← String.toList_inj, String.toList_ofList]
  unfold resultMessage outcomeMembers messageMembers outcomeFields sha256Hex
  simp only [member_eq]
  simp [Value.chars, Value.memberChars, hkeys, h.quoted, hhash, hcode, hone]

omit [RingDigest] in
/-- A digest passes the checks of `agent_result`. -/
theorem digest_checked (output : String) :
    len (digest output) = 64 ∧ (digest output).toList.all isAsciiHexdigit = true ∧
      toAsciiLowercase (digest output) = digest output := by
  have hdigit : ∀ n < 16, isAsciiHexdigit n.digitChar = true ∧
      n.digitChar.toLower = n.digitChar ∧ n.digitChar.utf8Size = 1 := by decide
  have hchar : ∀ c ∈ (digest output).toList,
      isAsciiHexdigit c = true ∧ c.toLower = c ∧ c.utf8Size = 1 := by
    intro c hc
    obtain ⟨n, hn, rfl⟩ := mem_hexEncodeBytes hc
    exact hdigit n hn
  refine ⟨?_, List.all_eq_true.mpr fun c hc => (hchar c hc).1, ?_⟩
  · have hlen := len_ofList (digest output).toList
    rw [String.ofList_toList, List.map_congr_left fun c hc => (hchar c hc).2.2, List.map_const',
      List.sum_replicate, (digest_chars output).1] at hlen
    exact hlen
  · rw [toAsciiLowercase, List.map_congr_left fun c hc => (hchar c hc).2.1, List.map_id',
      String.ofList_toList]

/-- The upload of a result. -/
def uploadOf (path node_id : String) (task : Assignment) (outcome : Outcome) : ResultUpload where
  task_id := resultTaskId path
  node_id := node_id
  request_id := some task.request_id
  lease_token := task.lease_token
  state := outcome.state
  output := outcome.output
  output_sha256 := digest outcome.output
  exit_code := parseI32 outcome.exit_code.repr.toList

variable [Serde] [Rfc8259]

omit [RingDigest] in
/-- A text with the members of a result is read as its upload. -/
theorem parseResultUpload_denotes {path text : String} {members : List (String × Value)}
    (h : Denotes text.toList (.object members)) (hbounded : (Value.object members).Bounded)
    (hget : ∀ m ∈ [("node_id", node_id), ("request_id", task.request_id),
      ("lease_token", task.lease_token), ("state", outcome.state), ("output", outcome.output),
      ("output_sha256", digest outcome.output), ("exit_code", outcome.exit_code.repr)],
      (Value.object members).get m.1 = some (.string m.2)) :
    jsonField text "output" = some outcome.output ∧
      parseResultUpload path text =
        if validNodeId task.request_id then .ok (uploadOf path node_id task outcome)
        else .error (failure .badRequest "invalid_request_id") := by
  have hfields : ∀ m ∈ [("node_id", node_id), ("request_id", task.request_id),
      ("lease_token", task.lease_token), ("state", outcome.state), ("output", outcome.output),
      ("output_sha256", digest outcome.output), ("exit_code", outcome.exit_code.repr)],
      jsonField text m.1 = some m.2 := by
    intro m hm
    rw [jsonField_denotes h hbounded, hget m hm]
    rfl
  have htypes : jsonTypesValid text ["node_id", "request_id", "lease_token", "state", "output",
      "output_sha256", "exit_code"] [] [] = true :=
    jsonTypesValid_denotes h hbounded hget
  simp only [List.forall_mem_cons] at hfields
  obtain ⟨hnode, hrequest, htoken, hstate, houtput, hhash, hcode, -⟩ := hfields
  obtain ⟨hlen, hdigits, hlower⟩ := digest_checked outcome.output
  have hmatch : constantTimeEq (digest outcome.output)
      (hexEncodeBytes (sha256 (bytes outcome.output))) = true := constantTimeEq_iff.mpr rfl
  refine ⟨houtput, ?_⟩
  unfold parseResultUpload
  simp only [htypes, hnode, hrequest, htoken, hstate, houtput, hhash, hcode, Option.getD_some,
    Option.any_some, hlen, hdigits, hlower, hmatch]
  by_cases hvalid : validNodeId task.request_id = true
  · simp only [hvalid]
    rfl
  · simp only [hvalid]
    rfl

variable [LawfulRingDigest]

omit [Serde] [Rfc8259] [LawfulRingDigest] in
/-- The body of a result is a text of its members. -/
theorem denotes_resultBody (node_id : String) (task : Assignment)
    (result : Except String (String × ℤ)) :
    Denotes (resultBody node_id task (outcomeOf result)).toList
        (.object (bodyMembers node_id task (outcomeOf result))) ∧
      (Value.object (bodyMembers node_id task (outcomeOf result))).Bounded := by
  have hbounded : (Value.object (bodyMembers node_id task (outcomeOf result))).Bounded := by
    refine Value.bounded_object (by simp [bodyMembers, outcomeFields]) ?_
    simp only [bodyMembers, outcomeFields, List.cons_append, List.nil_append, List.forall_mem_cons,
      List.not_mem_nil, false_imp_iff, implies_true, and_true]
    exact ⟨⟨.string _, rfl⟩, ⟨.string _, rfl⟩, ⟨.string _, rfl⟩, ⟨.string _, rfl⟩, ⟨.string _, rfl⟩,
      ⟨.string _, rfl⟩, ⟨.string _, rfl⟩⟩
  rw [resultBody_eq_text (unescaped_outcomeOf result)]
  exact ⟨hbounded.whole.fits.denotes_text, hbounded⟩

omit [Serde] [Rfc8259] [LawfulRingDigest] in
/-- The message of a result is a text of its members. -/
theorem denotes_resultMessage (node_id : String) (task : Assignment)
    (result : Except String (String × ℤ)) :
    Denotes (resultMessage node_id task (outcomeOf result)).toList
        (.object (messageMembers node_id task (outcomeOf result))) ∧
      (Value.object (messageMembers node_id task (outcomeOf result))).Bounded := by
  have hbounded : (Value.object (messageMembers node_id task (outcomeOf result))).Bounded := by
    refine Value.bounded_object (by simp [messageMembers, outcomeFields]) ?_
    simp only [messageMembers, outcomeFields, List.cons_append, List.nil_append,
      List.forall_mem_cons, List.not_mem_nil, false_imp_iff, implies_true, and_true]
    exact ⟨⟨Value.whole_ofNat (by decide), rfl⟩, ⟨.string _, rfl⟩, ⟨.string _, rfl⟩,
      ⟨.string _, rfl⟩, ⟨.string _, rfl⟩, ⟨.string _, rfl⟩, ⟨.string _, rfl⟩, ⟨.string _, rfl⟩,
      ⟨.string _, rfl⟩, ⟨.string _, rfl⟩, ⟨.string _, rfl⟩⟩
  rw [resultMessage_eq_text (unescaped_outcomeOf result)]
  exact ⟨hbounded.whole.fits.denotes_text, hbounded⟩

/-- Both texts of a result are read as its upload. -/
theorem parseResultUpload_result (path node_id : String) (task : Assignment)
    (result : Except String (String × ℤ)) {text : String}
    (htext : text ∈ [resultBody node_id task (outcomeOf result),
      resultMessage node_id task (outcomeOf result)]) :
    jsonField text "output" = some (outcomeOf result).output ∧
      parseResultUpload path text =
        if validNodeId task.request_id then .ok (uploadOf path node_id task (outcomeOf result))
        else .error (failure .badRequest "invalid_request_id") := by
  have hhash : sha256Hex (bytes (outcomeOf result).output) = digest (outcomeOf result).output :=
    congrArg hexEncodeBytes (LawfulRingDigest.digests _)
  rcases List.mem_pair.mp htext with rfl | rfl
  · obtain ⟨hdenotes, hbounded⟩ := denotes_resultBody node_id task result
    refine parseResultUpload_denotes hdenotes hbounded ?_
    simp only [List.forall_mem_cons, ← hhash]
    exact ⟨rfl, rfl, rfl, rfl, rfl, rfl, rfl, List.forall_mem_nil _⟩
  · obtain ⟨hdenotes, hbounded⟩ := denotes_resultMessage node_id task result
    refine parseResultUpload_denotes hdenotes hbounded ?_
    simp only [List.forall_mem_cons, ← hhash]
    exact ⟨rfl, rfl, rfl, rfl, rfl, rfl, rfl, List.forall_mem_nil _⟩

end Results

/-- The tasks that a poll answers with are in the store that it leaves. -/
theorem mem_of_polled {st : State} {env : Env} {path : String} {store after : Store}
    {tasks : List Task} {task : Task} (h : agentTasks st env path store = (⟨.ok, .tasks tasks⟩, after))
    (htask : task ∈ tasks) : task ∈ after.tasks := by
  cases hquery : queryField path "node_id" with
  | none =>
    unfold agentTasks at h
    rw [hquery] at h
    cases h
  | some node_id => exact (dispatchLoop_sublist (agentTasks_dispatched hquery h)).subset htask

/-- **Task data reaches the agent and comes back unchanged.** -/
theorem task_data_round_trips [Serde] [Rfc8259] [SerdeText] [LawfulPrinter] [RingDigest]
    [LawfulRingDigest] :
    (∀ task : Task, Denotes (taskJson task).toList (.object (taskMembers task)) ∧
      (TaskInRange task → ∃ members, Serde.fromStr (taskJson task) = some (.object members) ∧
        members.Perm (taskMembers task))) ∧
    (∀ (st : State) (env : Env) (path : String) (store after : Store) (tasks : List Task),
      agentTasks st env path store = (⟨.ok, .tasks tasks⟩, after) →
        ∀ task ∈ tasks, task ∈ after.tasks) ∧
    (∀ tasks : List Task, (∀ task ∈ tasks, TaskInRange task) →
      (jsonObjects (Reply.tasks tasks).render).map readTask =
          tasks.map (fun task => .ok (assignment task)) ∧
        ∀ node_id request_id message_type, ∃ payload,
          jsonPayload (websocketEnvelope node_id request_id message_type
            (messagePayload ⟨.ok, .tasks tasks⟩)) = some payload ∧
          (jsonObjects payload).map readTask = tasks.map (fun task => .ok (assignment task))) ∧
    (∀ (path node_id : String) (task : Assignment) (result : Except String (String × ℤ)),
      ∀ text ∈ [resultBody node_id task (outcomeOf result),
          resultMessage node_id task (outcomeOf result)],
        jsonField text "output" = some (outcomeOf result).output ∧
          parseResultUpload path text =
            if validNodeId task.request_id then .ok (uploadOf path node_id task (outcomeOf result))
            else .error (failure .badRequest "invalid_request_id")) := by
  refine ⟨fun task => ?_, fun st env path store after tasks h task htask => ?_,
    fun tasks hrange => ⟨readTasks_render hrange, readTasks_payload hrange⟩,
    fun path node_id task result text => parseResultUpload_result path node_id task result⟩
  · have hdenotes := (fits_taskValue task).denotes_text
    rw [← taskJson_eq_text] at hdenotes
    refine ⟨hdenotes, fun hrange => ?_⟩
    have hbounded : (taskValue task).Bounded := by
      refine ⟨whole_taskValue hrange, ?_⟩
      rw [depth_taskValue]
      omega
    have hread := Rfc8259.reads hdenotes hbounded
    have hcode : (optionalInteger task.exit_code).arrange Rfc8259.order =
        optionalInteger task.exit_code := by
      cases task.exit_code <;> rfl
    have hscalars : Value.arrangeMembers Rfc8259.order (taskMembers task) = taskMembers task := by
      simp [taskMembers, Value.arrangeMembers, Value.arrange, hcode]
    rw [String.ofList_toList, taskValue, Value.arrange, hscalars] at hread
    exact ⟨_, hread, Rfc8259.perm_order _⟩
  · exact mem_of_polled h htask

/-- A task whose argument has what a text of JSON has to escape. -/
def quotingTask : Task where
  id := "task-1"
  request_id := "request-1"
  actor := "operator"
  node_id := "node-1"
  ability := "task.exec"
  state := "dispatched"
  idempotency_key := ""
  program := "printf"
  argument := "a\x7d,\x7bb \"\\\n\x7f你"
  output := ""
  output_sha256 := ""
  output_truncated := false
  output_limit := 4096
  exit_code := none
  lease_until := 35000
  lease_token := "token"
  timeout_ms := 30000

section Example

attribute [local instance] compactSerde rfc8259_compactSerde compactText lawful_compactText

/-- The crate that computes what the control plane does. -/
@[reducible] def ownDigest : RingDigest where
  ringDigest := sha256

/-- It is what the agent relies on. -/
theorem lawful_ownDigest : @LawfulRingDigest ownDigest := @LawfulRingDigest.mk ownDigest fun _ => rfl

attribute [local instance] ownDigest lawful_ownDigest

/-- A task that has to be escaped, and an output that has to be. -/
theorem task_data_round_trips_quoting :
    (jsonObjects (Reply.tasks [quotingTask]).render).map readTask =
        [.ok (assignment quotingTask)] ∧
      jsonField (resultBody "node-1" (assignment quotingTask) (outcomeOf (.ok ("\"\\\n", 0))))
        "output" = some "\"\\\n" := by
  have hround := task_data_round_trips
  have hrange : ∀ task ∈ [quotingTask], TaskInRange task := by
    intro task htask
    rw [List.mem_singleton.mp htask]
    exact ⟨by decide, nofun, by decide, by decide⟩
  refine ⟨(hround.2.2.1 [quotingTask] hrange).1, ?_⟩
  exact (hround.2.2.2 "" "node-1" (assignment quotingTask) (.ok ("\"\\\n", 0)) _
    List.mem_cons_self).1

end Example

end NodeWe.NodeRuntime
