import NodeWe.ControlPlane.Store

/-!
# Responses

The JSON that the control plane writes, and the statuses and bodies of its responses. The handlers
of the source return their body as text. Here they return what the body is made from (`Reply`), and
`Reply.text` is the text that the source formats.
-/

namespace NodeWe.ControlPlane

open Text

/-! ## JSON text -/

/-- One character of `esc`. -/
def escChar (c : Char) : List Char :=
  if c = '"' then ['\\', '"']
  else if c = '\\' then ['\\', '\\']
  else if c = '\n' then ['\\', 'n']
  else if c = '\r' then ['\\', 'r']
  else if c = '\t' then ['\\', 't']
  else if isControl c then
    ['\\', 'u', '0', '0', (c.toNat / 16).digitChar, (c.toNat % 16).digitChar]
  else [c]

/-- `esc`. -/
def esc (value : String) : String := String.ofList (value.toList.flatMap escChar)

/-- A JSON string. -/
def quoted (value : String) : String := "\"" ++ esc value ++ "\""

/-- A JSON string, or `null`. -/
def quotedOrNull (value : Option String) : String := (value.map quoted).getD "null"

/-- A Boolean as `format!` prints it. -/
def boolText (b : Bool) : String := if b then "true" else "false"

/-- `abilities_json`. -/
def abilitiesJson (abilities : String) : String :=
  ",".intercalate
    (((abilities.toList.splitOn ',').filter (· ≠ [])).map fun a => quoted (String.ofList a))

/-- `labels_json`. -/
def labelsJson (labels : String) : String :=
  ",".intercalate
    ((((labels.toList.splitOn ',').map trimChars).filter (· ≠ [])).map
      fun a => quoted (String.ofList a))

/-- The members of a node that `node_json` and `node_with_credential_json` both print. -/
def nodeMembers (node : Node) (fresh : Bool) : String :=
  "\"node_id\":" ++ quoted node.id ++ ",\"name\":" ++ quoted node.name ++
    ",\"online\":" ++ boolText fresh ++ ",\"revoked\":" ++ boolText node.revoked ++
    ",\"abilities\":[" ++ abilitiesJson node.abilities ++ "],\"platform\":" ++
    quoted node.platform ++ ",\"architecture\":" ++ quoted node.architecture ++
    ",\"version\":" ++ quoted node.version ++ ",\"labels\":[" ++ labelsJson node.labels ++
    "],\"region\":" ++ quoted node.region ++ ",\"data_class\":" ++ quoted node.data_class ++
    ",\"capacity\":" ++ quoted node.capacity

/-- `node_json`, on the value that `node_is_fresh` has. -/
def nodeJson (node : Node) (fresh : Bool) : String := "\x7b" ++ nodeMembers node fresh ++ "\x7d"

/-- `node_with_credential_json`. -/
def nodeWithCredentialJson (node : Node) (fresh : Bool) (credential : String) : String :=
  "\x7b" ++ nodeMembers node fresh ++ ",\"credential\":" ++ quoted credential ++ "\x7d"

/-- `task_json`. -/
def taskJson (task : Task) : String :=
  "\x7b\"task_id\":" ++ quoted task.id ++ ",\"request_id\":" ++ quoted task.request_id ++
    ",\"actor\":" ++ quoted task.actor ++ ",\"node_id\":" ++ quoted task.node_id ++
    ",\"ability\":" ++ quoted task.ability ++ ",\"state\":" ++ quoted task.state ++
    ",\"idempotency_key\":" ++ quoted task.idempotency_key ++
    ",\"program\":" ++ quoted task.program ++ ",\"argument\":" ++ quoted task.argument ++
    ",\"output\":" ++ quoted task.output ++ ",\"output_sha256\":" ++ quoted task.output_sha256 ++
    ",\"output_truncated\":" ++ boolText task.output_truncated ++
    ",\"output_limit\":" ++ task.output_limit.repr ++
    ",\"exit_code\":" ++ (task.exit_code.map Int.repr).getD "null" ++
    ",\"lease_until\":" ++ task.lease_until.repr ++
    ",\"lease_token\":" ++ quoted task.lease_token ++
    ",\"timeout_ms\":" ++ task.timeout_ms.repr ++ "\x7d"

/-- `approval_json`. -/
def approvalJson (approval : Approval) : String :=
  "\x7b\"approval_id\":" ++ quoted approval.id ++ ",\"node_id\":" ++ quoted approval.node_id ++
    ",\"ability\":" ++ quoted approval.ability ++ ",\"program\":" ++ quoted approval.program ++
    ",\"argument\":" ++ quoted approval.argument ++ ",\"actor\":" ++ quoted approval.actor ++
    ",\"expires_at\":" ++ approval.expires_at.repr ++ ",\"used\":" ++ boolText approval.used ++
    "\x7d"

/-- The members of a grant that `create_grant_as` and `list_grants` both print. -/
def grantMembers (grant : Grant) : String :=
  "\"grant_code\":" ++ quoted grant.code ++ ",\"grant_signature\":" ++ quoted grant.signature ++
    ",\"expires_at\":" ++ grant.expires_at.repr

/-- A grant as `list_grants` prints it. -/
def grantJson (grant : Grant) : String :=
  "\x7b" ++ grantMembers grant ++ ",\"used\":" ++ boolText grant.used ++ ",\"revoked\":" ++
    boolText grant.revoked ++ "\x7d"

/-! ## The audit chain -/

/-- `activity_json_with_chain`. -/
def activityJsonWithChain (item : Activity) (prev_hash hash : String) : String :=
  "\x7b\"activity_id\":" ++ quoted item.id ++ ",\"event\":" ++ quoted item.event ++
    ",\"node_id\":" ++ quotedOrNull item.node_id ++ ",\"task_id\":" ++ quotedOrNull item.task_id ++
    ",\"actor\":" ++ quotedOrNull item.actor ++ ",\"timestamp\":" ++ item.timestamp.repr ++
    ",\"prev_hash\":" ++ quoted prev_hash ++ ",\"hash\":" ++ quoted hash ++ "\x7d"

/-- `activity_hash`. A record without an actor keeps the canonical form of six fields. -/
def activityHash (item : Activity) (prev_hash : String) : String :=
  let canonical := "\n".intercalate <|
    [item.id, item.event, item.node_id.getD "", item.task_id.getD ""] ++ item.actor.toList ++
      [item.timestamp.repr, prev_hash]
  hexEncodeBytes (sha256 (bytes canonical))

/-- The loop of `sealed_activity_json`, after the records whose last hash is `previous`. -/
def sealedFrom (previous : String) : List Activity → ℕ → String
  | [], _ => ""
  | item :: rest, index =>
    let hash := activityHash item previous
    match index with
    | 0 => activityJsonWithChain item previous hash
    | index + 1 => sealedFrom hash rest index

/-- `sealed_activity_json`. -/
def sealedActivityJson (audit : List Activity) (index : ℕ) : String :=
  sealedFrom "GENESIS" audit index

/-- `audit_jsonl`. -/
def auditJsonl (audit : List Activity) : String :=
  "\n".intercalate ((List.range audit.length).map (sealedActivityJson audit)) ++
    if audit = [] then "" else "\n"

/-! ## Statuses and bodies -/

/-- The statuses of the source's responses. -/
inductive Status
  | ok
  | created
  | accepted
  | badRequest
  | unauthorized
  | forbidden
  | notFound
  | conflict
  | payloadTooLarge
  | rangeNotSatisfiable
  | unprocessableEntity
  | upgradeRequired
  | preconditionRequired
  | internalServerError
  | serviceUnavailable
  deriving DecidableEq

/-- The text of a status line. -/
def Status.text : Status → String
  | ok => "200 OK"
  | created => "201 Created"
  | accepted => "202 Accepted"
  | badRequest => "400 Bad Request"
  | unauthorized => "401 Unauthorized"
  | forbidden => "403 Forbidden"
  | notFound => "404 Not Found"
  | conflict => "409 Conflict"
  | payloadTooLarge => "413 Payload Too Large"
  | rangeNotSatisfiable => "416 Range Not Satisfiable"
  | unprocessableEntity => "422 Unprocessable Entity"
  | upgradeRequired => "426 Upgrade Required"
  | preconditionRequired => "428 Precondition Required"
  | internalServerError => "500 Internal Server Error"
  | serviceUnavailable => "503 Service Unavailable"

/-- `status.starts_with('2')`. -/
def Status.isSuccess (status : Status) : Bool := status.text.toList.head? == some '2'

/-- What a response body is made from. -/
inductive Reply
  | text (body : String)
  | code (code : String)
  | node (node : Node) (fresh : Bool)
  | nodes (nodes : List (Node × Bool))
  | nodeWithCredential (node : Node) (fresh : Bool) (credential : String)
  | heartbeat (node : Node) (fresh : Bool)
  | grantCreated (grant : Grant)
  | grants (grants : List Grant)
  | grantRevoked (code : String)
  | approval (approval : Approval)
  | approvals (approvals : List Approval)
  | task (task : Task)
  | tasks (tasks : List Task)
  | audit (audit : List Activity)
  | auditPage (audit : List Activity) (start stop : ℕ)

/-- A JSON array of rendered items. -/
def jsonArray (items : List String) : String := "[" ++ ",".intercalate items ++ "]"

/-- The text of a body. -/
def Reply.render : Reply → String
  | text body => body
  | code c => "\x7b\"code\":\"" ++ c ++ "\"\x7d"
  | node n fresh => nodeJson n fresh
  | nodes ns => jsonArray (ns.map fun (n, fresh) => nodeJson n fresh)
  | nodeWithCredential n fresh credential => nodeWithCredentialJson n fresh credential
  | heartbeat n fresh =>
    "\x7b\"protocol_version\":" ++ protocolVersion.repr ++ ",\"negotiated_abilities\":[" ++
      abilitiesJson n.abilities ++ "],\"node\":" ++ nodeJson n fresh ++ "\x7d"
  | grantCreated g => "\x7b" ++ grantMembers g ++ "\x7d"
  | grants gs => jsonArray (gs.map grantJson)
  | grantRevoked c => "\x7b\"grant_code\":" ++ quoted c ++ ",\"revoked\":true\x7d"
  | approval a => approvalJson a
  | approvals as => jsonArray (as.map approvalJson)
  | task t => taskJson t
  | tasks ts => jsonArray (ts.map taskJson)
  | audit records => jsonArray ((List.range records.length).map (sealedActivityJson records))
  | auditPage records start stop =>
    "\x7b\"protocol_version\":" ++ protocolVersion.repr ++ ",\"from\":" ++ start.repr ++
      ",\"count\":" ++ (stop - start).repr ++ ",\"next\":" ++
      (if stop < records.length then stop.repr else "null") ++ ",\"records\":" ++
      jsonArray ((List.range' start (stop - start)).map (sealedActivityJson records)) ++ "\x7d"

/-- The tasks that a body shows, with their programs, outputs, and lease tokens. -/
def Reply.shownTasks : Reply → List Task
  | task t => [t]
  | tasks ts => ts
  | _ => []

/-- The approvals that a body shows, with their programs. -/
def Reply.shownApprovals : Reply → List Approval
  | approval a => [a]
  | approvals as => as
  | _ => []

/-- A response: the status and the body. -/
structure Response where
  status : Status
  reply : Reply

/-- A response whose body is an error code. -/
def failure (status : Status) (code : String) : Response := ⟨status, .code code⟩

/-- `storage_unavailable`. -/
def storageUnavailable : Response := failure .serviceUnavailable "storage_unavailable"

/-- `persist_or_rollback`, with what its callers do: the handler's response and the changed store
where the backend persists it, and otherwise `503` and the store before. -/
def persistOrRollback (env : Env) (store before : Store) (response : Response) :
    Response × Store :=
  if env.persist store then (response, store) else (storageUnavailable, before)

end NodeWe.ControlPlane
