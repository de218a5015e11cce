import NodeWe.JsonGrammar
import NodeWe.ControlPlane.Render

/-!
# The agent's tasks

The loop over the tasks of a poll, which `connect_polling` and `websocket_session` both have: the
tasks are taken apart one by one (`readTask`), executed, and answered with what came of it. The
execution is outside, and `Outcome` is what the agent makes of it. The two loops differ in the text
that carries the outcome: `resultBody` in a request, `resultMessage` in a frame.
-/

namespace NodeWe.NodeRuntime

open Text ControlPlane

/-- `MAX_OUTPUT`. -/
def maxOutput : ℕ := 1024 * 1024

/-- `escape`. Its branches are those of `esc`. -/
def escape (value : String) : String := String.ofList (value.toList.flatMap escChar)

/-- The digests of the third-party crate. -/
class RingDigest where
  /-- `ring::digest::digest(&SHA256, data)`. -/
  ringDigest : List UInt8 → List UInt8

/-- The crate computes SHA-256, as the control plane's own code does. -/
class LawfulRingDigest [RingDigest] : Prop where
  digests : ∀ data, RingDigest.ringDigest data = sha256 data

/-- `sha256_hex`. -/
def sha256Hex [RingDigest] (value : List UInt8) : String :=
  hexEncodeBytes (RingDigest.ringDigest value)

/-- `valid_labels`. -/
def validLabels (value : String) : Bool :=
  ((value.toList.splitOn ',').filter (trimChars · ≠ [])).all fun label =>
    let label := trimChars label
    len (String.ofList label) ≤ 64 &&
      label.all fun c => c.isAlphanum || ['_', '-', '.', '+'].contains c

/-! ## Reading a task -/

section Reading

variable [Serde]

/-- `Value::is_object`. -/
def isObject : Value → Bool
  | .object _ => true
  | _ => false

/-- `json_payload`: the payload of an envelope, printed again. -/
def jsonPayload [SerdeText] (object : String) : Option String :=
  (Serde.fromStr object).bind fun value => (value.get "payload").map SerdeText.toText

/-- `json_objects`: the objects of an array, each printed again. -/
def jsonObjects [SerdeText] (array : String) : List String :=
  ((((Serde.fromStr array).bind Value.asArray).getD []).filter isObject).map SerdeText.toText

/-- `json_value`. -/
def jsonValue (object key : String) : Option String :=
  (Serde.fromStr object).bind fun value => (value.get key).bind Value.asStr

/-- `json_number` of the agent. -/
def jsonNumber (object key : String) : Option ℕ :=
  (Serde.fromStr object).bind fun value => (value.get key).bind Value.asU64

/-- What the loops read from a task. -/
structure Assignment where
  task_id : String
  request_id : String
  lease_token : String
  timeout_ms : ℕ
  output_limit : ℕ
  ability : String
  program : String
  argument : String

/-- A number of a task, or its default where it is absent or out of its range. -/
def numberWithin (task key : String) (max default : ℕ) : ℕ :=
  ((jsonNumber task key).filter fun value => 0 < value ∧ value ≤ max).getD default

/-- The body of the loops up to the execution: the task, or the error that ends the session. -/
def readTask (task : String) : Except String Assignment :=
  match jsonValue task "task_id" with
  | none => .error "task response missing task_id"
  | some task_id =>
    match jsonValue task "lease_token" with
    | none => .error "task response missing lease_token"
    | some lease_token =>
      match jsonValue task "program" with
      | none => .error "task response missing program"
      | some program => .ok {
          task_id := task_id
          request_id := (jsonValue task "request_id").getD task_id
          lease_token := lease_token
          timeout_ms := numberWithin task "timeout_ms" 300000 30000
          output_limit := numberWithin task "output_limit" maxOutput maxOutput
          ability := (jsonValue task "ability").getD "task.exec"
          program := program
          argument := (jsonValue task "argument").getD "" }

end Reading

/-! ## Reporting what came of it -/

section Reporting

variable [RingDigest]

/-- What the loops report of an execution. -/
structure Outcome where
  state : String
  output : String
  exit_code : ℤ

/-- What the loops make of the result of `execute_task_with_limit`. -/
def outcomeOf : Except String (String × ℤ) → Outcome
  | .ok (output, code) => ⟨if code = 0 then "succeeded" else "failed", output, code⟩
  | .error error => ⟨"failed", error, 1⟩

/-- A member of a message, with `escape`. -/
def member (name value : String) : String := "\"" ++ name ++ "\":\"" ++ escape value ++ "\""

/-- The members of an outcome in both texts. The state, the hash and the code are not escaped, and
have nothing that `escape` would change. -/
def outcomeMembers (outcome : Outcome) : String :=
  "\"state\":\"" ++ outcome.state ++ "\"," ++ member "output" outcome.output ++
    ",\"output_sha256\":\"" ++ sha256Hex (bytes outcome.output) ++ "\",\"exit_code\":\"" ++
    outcome.exit_code.repr ++ "\"\x7d"

/-- The body of `connect_polling`. -/
def resultBody (node_id : String) (task : Assignment) (outcome : Outcome) : String :=
  "\x7b" ++ member "node_id" node_id ++ "," ++ member "request_id" task.request_id ++ "," ++
    member "lease_token" task.lease_token ++ "," ++ outcomeMembers outcome

/-- The message of `websocket_session`. -/
def resultMessage (node_id : String) (task : Assignment) (outcome : Outcome) : String :=
  "\x7b\"protocol_version\":1,\"agent_version\":\"" ++ version ++ "\"," ++
    member "node_id" node_id ++ "," ++ member "request_id" task.request_id ++
    ",\"type\":\"task.result\"," ++ member "task_id" task.task_id ++ "," ++
    member "lease_token" task.lease_token ++ "," ++ outcomeMembers outcome

end Reporting

/-- The path that a result is posted to. -/
def resultPath (task : Assignment) : String := "/v1/agent/tasks/" ++ task.task_id ++ "/result"

/-- The request that `post_json` writes. -/
def postJson (endpoint path body token : String) : String :=
  "POST " ++ path ++ " HTTP/1.1\r\nHost: " ++ endpoint ++ "\r\nAuthorization: Bearer " ++ token ++
    "\r\nContent-Type: application/json\r\nContent-Length: " ++ (len body).repr ++
    "\r\nConnection: close\r\n\r\n" ++ body

end NodeWe.NodeRuntime
