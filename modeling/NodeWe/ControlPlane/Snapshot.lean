import NodeWe.ControlPlane.Render

/-!
# The store on disk

The text of a snapshot and the parsers that read it back, with the loader of the older files. A
record is one line of tab-separated fields. Free text is written in hexadecimal or with its tabs and
line ends replaced; the audit records are JSON lines. `hex_decode` slices its text without looking
at character boundaries, so a parser may panic.
-/

namespace NodeWe.ControlPlane

open Text

/-! ## Writing -/

/-- `clean`. -/
def clean (value : String) : String :=
  String.ofList (value.toList.map fun c => if c = '\t' ∨ c = '\n' ∨ c = '\r' then ' ' else c)

/-- One line of tab-separated fields. -/
def row (fields : List String) : String := "\t".intercalate fields ++ "\n"

/-- The fields of a node. -/
def nodeFields (node : Node) : List String :=
  [clean node.id, clean node.name,
    if node.revoked then "revoked" else if node.online then "online" else "offline",
    clean node.credential, clean node.abilities, hexEncode node.platform,
    hexEncode node.architecture, hexEncode node.version, hexEncode node.labels,
    hexEncode node.region, hexEncode node.data_class, hexEncode node.capacity,
    node.last_seen.repr]

/-- The fields of a task. -/
def taskFields (task : Task) : List String :=
  [clean task.id, clean task.node_id, clean task.ability, clean task.state,
    clean task.idempotency_key, task.lease_until.repr, hexEncode task.program,
    hexEncode task.argument, hexEncode task.output, clean task.output_sha256,
    if task.output_truncated then "truncated" else "complete",
    (task.exit_code.map Int.repr).getD "", hexEncode task.request_id,
    hexEncode task.lease_token, hexEncode task.actor, task.timeout_ms.repr,
    task.output_limit.repr]

/-- The fields of a grant. -/
def grantFields (grant : Grant) : List String :=
  [clean grant.code, clean grant.signature, grant.expires_at.repr,
    if grant.used then "used" else "unused", if grant.revoked then "revoked" else "active"]

/-- The fields of an approval. -/
def approvalFields (approval : Approval) : List String :=
  [clean approval.id, clean approval.node_id, clean approval.ability,
    hexEncode approval.program, hexEncode approval.argument, clean approval.actor,
    approval.expires_at.repr, if approval.used then "used" else "unused"]

/-- `snapshot_text`. -/
def snapshotText (store : Store) : String :=
  "NODEWE-SNAPSHOT-V1\n[NODES]\n" ++ String.join (store.nodes.map fun n => row (nodeFields n)) ++
    "[TASKS]\n" ++ String.join (store.tasks.map fun t => row (taskFields t)) ++
    "[GRANTS]\n" ++ String.join (store.grants.map fun g => row (grantFields g)) ++
    "[APPROVALS]\n" ++ String.join (store.approvals.map fun a => row (approvalFields a)) ++
    "[AUDIT]\n" ++ auditJsonl store.audit

/-! ## Reading -/

/-- A field in hexadecimal, or its default where it is missing or does not decode. -/
def decodeOr (field : Option (List Char)) (default : String) : Except Panic String :=
  match field with
  | none => .ok default
  | some value => (hexDecode (String.ofList value)).map fun decoded => decoded.getD default

/-- A field as it stands, or its default. -/
def fieldOr (field : Option (List Char)) (default : String) : String :=
  (field.map String.ofList).getD default

/-- The node of a line with at least three fields, of which the first `width` are told apart. -/
def nodeOfFields (env : Env) (fields : List (List Char)) : Except Panic (Option Node) := do
  match fields with
  | id :: name :: status :: rest =>
    let platform ← decodeOr rest[2]? "unknown"
    let architecture ← decodeOr rest[3]? "unknown"
    let version ← decodeOr rest[4]? "unknown"
    let labels ← decodeOr rest[5]? ""
    let region ← decodeOr rest[6]? "unknown"
    let data_class ← decodeOr rest[7]? "unclassified"
    let capacity ← decodeOr rest[8]? ""
    return some {
      id := String.ofList id
      name := String.ofList name
      online := status == "online".toList
      revoked := status == "revoked".toList
      credential := fieldOr rest[0]? ""
      abilities := fieldOr rest[1]? defaultAbilities
      platform := platform
      architecture := architecture
      version := version
      labels := labels
      region := region
      data_class := data_class
      capacity := capacity
      last_seen := (rest[9]?.bind (parseUnsigned u64Max)).getD
        (env.now (.loaded (String.ofList id))) }
  | _ => return none

/-- `parse_node_line`. -/
def parseNodeLine (env : Env) (line : List Char) : Except Panic (Option Node) :=
  nodeOfFields env (splitN '\t' 13 line)

/-- A number of a line, or its default where it is missing, malformed, zero, or above `max`. -/
def limitOr (field : Option (List Char)) (max default : ℕ) : ℕ :=
  ((field.bind (parseUnsigned u64Max)).filter fun value => 0 < value ∧ value ≤ max).getD default

/-- An exit code of a line. -/
def exitCodeOf (field : Option (List Char)) : Option ℤ :=
  field.bind fun value => if value = [] then none else parseI32 value

/-- `parse_task_line`. A line of the older layout has no output metadata. -/
def parseTaskLine (line : List Char) : Except Panic (Option Task) := do
  let fields := line.splitOn '\t'
  if fields.length < 14 then return none
  let field (i : ℕ) : List Char := fields.getD i []
  let has_output_metadata := fields.length ≥ 16 &&
    (field 10 == "truncated".toList || field 10 == "complete".toList)
  let exit_index := if has_output_metadata then 11 else 9
  let program ← decodeOr (some (field 6)) "echo"
  let argument ← decodeOr (some (field 7)) ""
  let output ← decodeOr (some (field 8)) ""
  let request_id ← decodeOr fields[exit_index + 1]? (String.ofList (field 0))
  let lease_token ← decodeOr fields[exit_index + 2]? ""
  let actor ← decodeOr fields[exit_index + 3]? "admin"
  return some {
    id := String.ofList (field 0)
    request_id := request_id
    actor := actor
    node_id := String.ofList (field 1)
    ability := String.ofList (field 2)
    state := String.ofList (field 3)
    idempotency_key := String.ofList (field 4)
    program := program
    argument := argument
    output := output
    output_sha256 := if has_output_metadata then String.ofList (field 9) else ""
    output_truncated := has_output_metadata && field 10 == "truncated".toList
    output_limit := limitOr fields[exit_index + 5]? maxTaskOutputLimit maxTaskOutputLimit
    exit_code := exitCodeOf fields[exit_index]?
    lease_until := (parseUnsigned u64Max (field 5)).getD 0
    lease_token := lease_token
    timeout_ms := limitOr fields[exit_index + 4]? maxTaskTimeoutMs defaultTaskTimeoutMs }

/-- `parse_grant_line`. -/
def parseGrantLine (line : List Char) : Option Grant :=
  match splitN '\t' 5 line with
  | code :: signature :: expires_at :: status :: rest =>
    (parseUnsigned u64Max expires_at).map fun expires_at =>
      { code := String.ofList code
        signature := String.ofList signature
        expires_at := expires_at
        used := status == "used".toList
        revoked := rest.head? == some "revoked".toList }
  | _ => none

/-- `parse_approval_line`. -/
def parseApprovalLine (line : List Char) : Except Panic (Option Approval) := do
  match splitN '\t' 8 line with
  | [id, node_id, ability, program, argument, actor, expires_at, status] =>
    let program ← hexDecode (String.ofList program)
    let argument ← hexDecode (String.ofList argument)
    return program.bind fun program => argument.bind fun argument =>
      (parseUnsigned u64Max expires_at).map fun expires_at =>
        { id := String.ofList id
          node_id := String.ofList node_id
          ability := String.ofList ability
          program := program
          argument := argument
          actor := String.ofList actor
          expires_at := expires_at
          used := status == "used".toList }
  | _ => return none

/-! ## The older files -/

/-- A line of the older `tasks.tsv`, which has no output metadata. -/
def parseLegacyTaskLine (line : List Char) : Except Panic (Option Task) := do
  match splitN '\t' 15 line with
  | id :: node_id :: ability :: state :: rest =>
    let program ← decodeOr rest[2]? "echo"
    let argument ← decodeOr rest[3]? ""
    let output ← decodeOr rest[4]? ""
    let request_id ← decodeOr rest[6]? (String.ofList id)
    let lease_token ← decodeOr rest[7]? ""
    let actor ← decodeOr rest[8]? "admin"
    return some {
      id := String.ofList id
      request_id := request_id
      actor := actor
      node_id := String.ofList node_id
      ability := String.ofList ability
      state := String.ofList state
      idempotency_key := fieldOr rest[0]? ""
      program := program
      argument := argument
      output := output
      output_sha256 := ""
      output_truncated := false
      output_limit := maxTaskOutputLimit
      exit_code := exitCodeOf rest[5]?
      lease_until := (rest[1]?.bind (parseUnsigned u64Max)).getD 0
      lease_token := lease_token
      timeout_ms := limitOr rest[9]? maxTaskTimeoutMs defaultTaskTimeoutMs }
  | _ => return none

/-- The records of the lines that hold one, in order. -/
def parseLines {α β : Type} (parse : β → Except Panic (Option α)) : List β → Except Panic (List α)
  | [] => .ok []
  | line :: rest => do
    let record ← parse line
    let records ← parseLines parse rest
    return record.toList ++ records

/-- The records of a file, or none where it cannot be read. -/
def parseFile {α : Type} (parse : List Char → Except Panic (Option α)) (contents : Option String) :
    Except Panic (List α) :=
  parseLines parse ((contents.map fun text => lines text.toList).getD [])

/-- `load_legacy_store`, on the texts that `read_store_text` gives for the files that it reads. -/
def loadLegacyStore (env : Env) (read_store_text : String → Option String) :
    Except Panic Store := do
  let nodes ← parseFile (fun line => nodeOfFields env (splitN '\t' 15 line))
    (read_store_text "nodes.tsv")
  let tasks ← parseFile parseLegacyTaskLine (read_store_text "tasks.tsv")
  let grants ← parseFile (fun line => .ok (parseGrantLine line)) (read_store_text "grants.tsv")
  let approvals ← parseFile parseApprovalLine (read_store_text "approvals.tsv")
  return { nodes := nodes, tasks := tasks, audit := [], grants := grants, approvals := approvals }

/-! ## Snapshots -/

section Activities

variable [Serde]

/-- `parse_activity_line`. -/
def parseActivityLine (line : List Char) : Option Activity :=
  let line := String.ofList line
  (jsonField line "activity_id").bind fun id => (jsonField line "event").bind fun event =>
    (jsonNumber line "timestamp").map fun timestamp =>
      { id := id
        event := event
        node_id := jsonField line "node_id"
        task_id := jsonField line "task_id"
        actor := jsonField line "actor"
        timestamp := timestamp
        prev_hash := (jsonField line "prev_hash").getD ""
        hash := (jsonField line "hash").getD "" }

/-- The loop of `audit_chain_valid`. -/
def chainValidFrom (previous : String) : List Activity → Bool
  | [] => true
  | item :: rest =>
    let expected := activityHash item previous
    if item.hash ≠ "" && (item.prev_hash ≠ previous || item.hash ≠ expected) then false
    else chainValidFrom (if item.hash = "" then expected else item.hash) rest

/-- `audit_chain_valid`. -/
def auditChainValid (audit : List Activity) : Bool := chainValidFrom "GENESIS" audit

/-- One line of `parse_snapshot` under a section heading. -/
def parseRecord (env : Env) (section_name line : List Char) (store : Store) :
    Except Panic Store :=
  if section_name = "[NODES]".toList then
    (parseNodeLine env line).map fun node => { store with nodes := store.nodes ++ node.toList }
  else if section_name = "[TASKS]".toList then
    (parseTaskLine line).map fun task => { store with tasks := store.tasks ++ task.toList }
  else if section_name = "[GRANTS]".toList then
    .ok { store with grants := store.grants ++ (parseGrantLine line).toList }
  else if section_name = "[APPROVALS]".toList then
    (parseApprovalLine line).map fun approval =>
      { store with approvals := store.approvals ++ approval.toList }
  else if section_name = "[AUDIT]".toList then
    .ok { store with audit := store.audit ++ (parseActivityLine line).toList }
  else .ok store

/-- A line that heads a section. -/
def isHeading (line : List Char) : Bool := line.head? == some '[' && line.getLast? == some ']'

/-- The loop of `parse_snapshot`. -/
def parseRecords (env : Env) : List Char → Store → List (List Char) → Except Panic Store
  | _, store, [] => .ok store
  | section_name, store, line :: rest =>
    if isHeading line then parseRecords env line store rest
    else
      match parseRecord env section_name line store with
      | .error panic => .error panic
      | .ok store => parseRecords env section_name store rest

/-- `parse_snapshot`. -/
def parseSnapshot (env : Env) (contents : String) : Except Panic (Option Store) :=
  if !startsWith contents "NODEWE-SNAPSHOT-V1\n" then .ok none
  else (parseRecords env [] .empty ((lines contents.toList).drop 1)).map fun store =>
    if auditChainValid store.audit then some store else none

end Activities

end NodeWe.ControlPlane
