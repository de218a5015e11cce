import NodeWe.ControlPlane.Route

/-!
# The agents' channel

A message of an agent's WebSocket channel is authenticated by itself and then handled like the
request of the same kind: `websocket_message` checks the node and its credential, calls the
handler, and wraps the handler's body in an envelope.
-/

namespace NodeWe.ControlPlane

open Text

/-- `websocket_envelope`. -/
def websocketEnvelope (node_id request_id message_type payload : String) : String :=
  "\x7b\"protocol_version\":1,\"agent_version\":\"" ++ version ++ "\",\"node_id\":" ++
    quoted node_id ++ ",\"request_id\":" ++ quoted request_id ++ ",\"type\":" ++
    quoted message_type ++ ",\"payload\":" ++ payload ++ "\x7d"

/-- An error code in an envelope. -/
def websocketError (node_id request_id code : String) : String :=
  websocketEnvelope node_id request_id "error" ("\x7b\"code\":\"" ++ code ++ "\"\x7d")

/-- What a message that is authenticated asks for: the handler, as the arm of the request of the
same kind, and the type of the answer. -/
structure MessageCall where
  request_id : String
  arm : Arm
  response_type : String

variable [Serde]

/-- `websocket_message` up to its handler: the call, or the envelope that answers at once. -/
def messageCall (st : State) (env : Env) (store : Store) (message expected_node presented : String) :
    Except String MessageCall :=
  let request_id := (jsonField message "request_id").getD (newId st env "request" .requestId)
  let message_type := (jsonField message "type").getD ""
  let node_id := (jsonField message "node_id").getD ""
  if node_id ≠ expected_node || !validNodeId request_id ||
      !credentialAuthorized store message message presented then
    .error (websocketError node_id request_id "unauthenticated")
  else if message_type = "heartbeat" then .ok ⟨request_id, .heartbeat message, "heartbeat.ack"⟩
  else if message_type = "tasks.request" then
    .ok ⟨request_id, .agentTasks ("/v1/agent/tasks?node_id=" ++ expected_node), "tasks.available"⟩
  else if message_type = "task.result" then
    match jsonField message "task_id" with
    | none => .error (websocketError expected_node request_id "task_id_required")
    | some task_id =>
      .ok ⟨request_id, .agentResult ("/v1/agent/tasks/" ++ task_id ++ "/result") message,
        "task.result.ack"⟩
  else .error (websocketError expected_node request_id "unsupported_message_type")

/-- The payload of an answer: the body of the handler, or its status and body where it failed. -/
def messagePayload (response : Response) : String :=
  if response.status.isSuccess then response.reply.render
  else
    "\x7b\"code\":\"websocket_request_failed\",\"http_status\":\"" ++
      String.ofList (response.status.text.toList.map fun c => if c = ' ' then '_' else c) ++
      "\",\"detail\":" ++ response.reply.render ++ "\x7d"

/-- `websocket_message`. -/
def websocketMessage [Ed25519] (st : State) (env : Env) (store : Store)
    (message expected_node presented : String) : String × Store :=
  match messageCall st env store message expected_node presented with
  | .error envelope => (envelope, store)
  | .ok call =>
    let (response, store) := call.arm.run st env store
    (websocketEnvelope expected_node call.request_id call.response_type (messagePayload response),
      store)

/-- A message that is handled presents the credential of the node that it names. -/
theorem messageCall_ok {st : State} {env : Env} {store : Store}
    {message expected_node presented : String} {call : MessageCall}
    (h : messageCall st env store message expected_node presented = .ok call) :
    credentialAuthorized store message message presented = true := by
  unfold messageCall at h
  dsimp only at h
  split_ifs at h with hrefused
  all_goals
    simp only [Bool.or_eq_true, not_or, Bool.not_eq_true', Bool.not_eq_false] at hrefused
    exact hrefused.2

end NodeWe.ControlPlane
