import NodeWe.Json
import NodeWe.Digest

/-!
# The control plane's store and its surroundings

The records of the in-memory store, the configuration that a running process holds, and what a
request draws from outside: the clock, the random source, the identifier counter, and the storage
backend. A request reads the clock several times, so `Env.now` answers each call site (`Site`) on
its own. The theorems about one instant ask that the readings agree.
-/

namespace NodeWe.ControlPlane

open Text

/-! ## Records -/

/-- `Node`. -/
structure Node where
  id : String
  name : String
  online : Bool
  revoked : Bool
  credential : String
  abilities : String
  platform : String
  architecture : String
  version : String
  labels : String
  region : String
  data_class : String
  capacity : String
  last_seen : ℕ
  deriving DecidableEq

/-- `Task`. The state is a string in the source too. -/
structure Task where
  id : String
  request_id : String
  actor : String
  node_id : String
  ability : String
  state : String
  idempotency_key : String
  program : String
  argument : String
  output : String
  output_sha256 : String
  output_truncated : Bool
  output_limit : ℕ
  exit_code : Option ℤ
  lease_until : ℕ
  /-- The fencing token of the current dispatch. -/
  lease_token : String
  timeout_ms : ℕ
  deriving DecidableEq

/-- `Activity`, one audit record. -/
structure Activity where
  id : String
  event : String
  node_id : Option String
  task_id : Option String
  actor : Option String
  timestamp : ℕ
  prev_hash : String
  hash : String
  deriving DecidableEq

/-- `Grant`. -/
structure Grant where
  code : String
  signature : String
  expires_at : ℕ
  used : Bool
  revoked : Bool
  deriving DecidableEq

/-- `Approval`. -/
structure Approval where
  id : String
  node_id : String
  ability : String
  program : String
  argument : String
  actor : String
  expires_at : ℕ
  used : Bool
  deriving DecidableEq

/-- `Store`. -/
structure Store where
  nodes : List Node
  tasks : List Task
  audit : List Activity
  grants : List Grant
  approvals : List Approval
  deriving DecidableEq

/-- `Store::default()`. -/
def Store.empty : Store := ⟨[], [], [], [], []⟩

/-! ## Constants -/

/-- `VERSION`, the workspace version. -/
def version : String := "0.1.3"

/-- `PROTOCOL_VERSION`. -/
def protocolVersion : ℕ := 1

/-- `SUPPORTED_ABILITIES`. -/
def supportedAbilities : List String := ["file.read", "file.write", "task.exec", "system.inspect"]

/-- The abilities that an enrolled node starts with. -/
def defaultAbilities : String := "file.read,file.write,task.exec,system.inspect"

/-- `DEFAULT_TASK_TIMEOUT_MS`. -/
def defaultTaskTimeoutMs : ℕ := 30000

/-- `MAX_TASK_TIMEOUT_MS`. -/
def maxTaskTimeoutMs : ℕ := 300000

/-- `MAX_PERSISTED_OUTPUT_BYTES`. -/
def maxPersistedOutputBytes : ℕ := 4 * 1024

/-- `MAX_TASK_OUTPUT_LIMIT`. -/
def maxTaskOutputLimit : ℕ := 1024 * 1024

/-- `node_online_ttl_ms`, on the value of `NODEWE_NODE_ONLINE_TTL_MS` where it is set. -/
def nodeOnlineTtlMs (raw : Option String) : ℕ :=
  ((raw.bind fun value => parseUnsigned u64Max value.toList).filter
    fun value => 1000 ≤ value ∧ value ≤ 300000).getD 30000

/-! ## Configuration -/

/-- `Policy`. -/
structure Policy where
  allowed_abilities : List String
  approval_required : List String
  allowed_data_classes : List String
  allowed_actors : List String
  allowed_commands : List String
  allowed_paths : List String

/-- `Policy::default()`. -/
def Policy.default : Policy := ⟨supportedAbilities, ["task.exec", "file.write"], [], [], [], []⟩

/-- `OidcConfig`. -/
structure OidcConfig where
  issuer : String
  audience : String
  hmac_secret : List UInt8
  admin_group : String
  group_claim : String

/-- `State`, less the store and the backend, which the handlers take apart, with the process id and
the environment variable that the handlers read. -/
structure State where
  admin_token : String
  grant_secret : String
  require_approval_records : Bool
  policy : Policy
  oidc : Option OidcConfig
  process_id : ℕ
  node_online_ttl : Option String

/-! ## The surroundings of a request -/

/-- The call sites of `now` and `new_id` in the handlers. Those in a loop or a closure are told
apart by the record they look at, and the audit records of a request by their number. -/
inductive Site
  | fresh (node_id : String)
  | lastSeen
  | grantExpiry (code : String)
  | approvalExpiry (approval_id : String)
  | expiresAt
  | claim (task_id : String)
  | lease (task_id : String)
  | result
  | oidc
  | loaded (node_id : String)
  | requestId
  | taskId
  | approvalId
  | activityId (k : ℕ)
  | timestamp (k : ℕ)
  deriving DecidableEq

/-- What a request draws from outside the store. -/
structure Env where
  /-- The reading of the clock, in milliseconds, at each call of `now`. -/
  now : Site → ℕ
  /-- The number that `NEXT_ID.fetch_add` hands to each call of `new_id`. -/
  sequence : Site → ℕ
  /-- The `k`-th 24 bytes that the request reads from the random source, where it answers. -/
  random : ℕ → Option (Vector UInt8 24)
  /-- `configured_grant_signing_key`, where it does not fail. -/
  signing_key : Option (Option (List UInt8))
  /-- The previous signing key, where reading it does not fail. -/
  previous_key : Option (Option (List UInt8))
  /-- Whether the backend persists a store. -/
  persist : Store → Bool

/-- `new_id`. -/
def newId (st : State) (env : Env) (pre : String) (site : Site) : String :=
  pre ++ "_" ++ hex (env.now site) ++ "_" ++ hex st.process_id ++ "_" ++ hex (env.sequence site)

/-- `random_token`: 24 random bytes in hexadecimal. -/
def randomToken (env : Env) (k : ℕ) : Option String := (env.random k).map fun v => hexEncodeBytes v.toList

/-- `node_is_fresh`. -/
def nodeIsFresh (st : State) (env : Env) (node : Node) : Bool :=
  node.online && !node.revoked &&
    decide (saturatingAdd node.last_seen (nodeOnlineTtlMs st.node_online_ttl) ≥
      env.now (.fresh node.id))

/-- `Activity::with_actor`, for the `k`-th record that the request appends. -/
def Activity.withActor (st : State) (env : Env) (k : ℕ) (event : String)
    (node_id task_id actor : Option String) : Activity where
  id := newId st env "activity" (.activityId k)
  event := event
  node_id := node_id
  task_id := task_id
  actor := actor
  timestamp := env.now (.timestamp k)
  prev_hash := ""
  hash := ""

/-! ## Identifiers -/

/-- `valid_node_id`. -/
def validNodeId (value : String) : Bool :=
  value ≠ "" && len value ≤ 128 &&
    value.toList.all fun c =>
      isAsciiGraphic c && !(['/', '\\', '?', '&', '=', '#', '%'].contains c)

/-- `valid_actor_id`. -/
def validActorId (value : String) : Bool :=
  value ≠ "" && len value ≤ 256 &&
    value.toList.all fun c =>
      c.isAlphanum || ['_', '-', '.', ':', '@', '|', '+'].contains c

/-- `valid_labels`. -/
def validLabels (value : String) : Bool :=
  (((value.toList.splitOn ',').map trimChars).filter (· ≠ [])).all fun label =>
    label.length ≤ 64 && label.all fun c => c.isAlphanum || ['_', '-', '.', '+'].contains c

/-- `normalize_abilities`: the distinct abilities, in order, unless one is not supported or none
is left. -/
def normalizeAbilities (abilities : String) : Option String :=
  let items := (((abilities.toList.splitOn ',').map trimChars).filter (· ≠ [])).map String.ofList
  if items.all (supportedAbilities.contains ·) then
    let normalized := items.foldl (fun acc a => if acc.contains a then acc else acc ++ [a]) []
    if normalized = [] then none else some (",".intercalate normalized)
  else none

/-- `query_field`: the value of a key in the query string. -/
def queryField (path key : String) : Option String :=
  (splitOnce '?' path.toList).bind fun (_, query) =>
    (query.splitOn '&').findSome? fun item =>
      (splitOnce '=' item).bind fun (name, value) =>
        if name = key.toList then some (String.ofList value) else none

/-! ## Comparison of secrets -/

/-- `constant_time_eq_bytes`. -/
def constantTimeEqBytes (left right : List UInt8) : Bool :=
  (List.range (max left.length right.length)).foldl
    (fun difference i =>
      difference ||| ((left.getD i 0).toNat ^^^ (right.getD i 0).toNat))
    (left.length ^^^ right.length) == 0

/-- `constant_time_eq`. -/
def constantTimeEq (left right : String) : Bool := constantTimeEqBytes (bytes left) (bytes right)

/-- An accumulated difference is zero when each of its parts is. -/
theorem foldl_or_eq_zero {f : ℕ → ℕ} {l : List ℕ} {d : ℕ} :
    l.foldl (fun difference i => difference ||| f i) d = 0 ↔ d = 0 ∧ ∀ i ∈ l, f i = 0 := by
  induction l generalizing d with
  | nil => simp
  | cons i rest ih => rw [List.foldl_cons, ih, Nat.or_eq_zero_iff, List.forall_mem_cons, and_assoc]

/-- The comparison of byte strings is equality: a difference in length shows in the first word,
and one in a byte at that byte. -/
theorem constantTimeEqBytes_iff {left right : List UInt8} :
    constantTimeEqBytes left right = true ↔ left = right := by
  unfold constantTimeEqBytes
  rw [beq_iff_eq, foldl_or_eq_zero, Nat.xor_eq_zero_iff]
  constructor
  · rintro ⟨hlength, hbytes⟩
    refine List.ext_getElem hlength fun i hl hr => ?_
    have hi := hbytes i (by rw [List.mem_range]; omega)
    rw [Nat.xor_eq_zero_iff, List.getD_eq_getElem _ _ hl, List.getD_eq_getElem _ _ hr] at hi
    exact UInt8.toNat_inj.mp hi
  · rintro rfl
    exact ⟨rfl, fun i _ => Nat.xor_self _⟩

/-- The comparison of secrets is equality. -/
theorem constantTimeEq_iff {left right : String} :
    constantTimeEq left right = true ↔ left = right := by
  rw [constantTimeEq, constantTimeEqBytes_iff, bytes_inj]

/-- **The comparison in constant time is equality**, of byte strings and of texts, whatever their
lengths. -/
theorem constant_time_comparison :
    (∀ left right : List UInt8, constantTimeEqBytes left right = true ↔ left = right) ∧
    ∀ left right : String,
      (constantTimeEq left right = true ↔ bytes left = bytes right) ∧
      (constantTimeEq left right = true ↔ left = right) :=
  ⟨fun _ _ => constantTimeEqBytes_iff,
    fun _ _ => ⟨constantTimeEqBytes_iff, constantTimeEq_iff⟩⟩

/-! ## A small deployment

The inputs on which the general statements are evaluated. -/

/-- A process with the administrator's token `root` and the default policy. -/
def exampleState : State := ⟨"root", "s", false, .default, none, 7, none⟩

/-- Surroundings at one instant, in which nothing fails. -/
def exampleEnv (now : ℕ) : Env where
  now := fun _ => now
  sequence := fun _ => 1
  random := fun k => some (Vector.replicate 24 (UInt8.ofNat k))
  signing_key := some none
  previous_key := some none
  persist := fun _ => true

/-- An online node. -/
def exampleNode (id credential : String) : Node where
  id := id
  name := id
  online := true
  revoked := false
  credential := credential
  abilities := defaultAbilities
  platform := "linux"
  architecture := "x86_64"
  version := version
  labels := ""
  region := "unknown"
  data_class := "unclassified"
  capacity := ""
  last_seen := 1000

/-- A queued task. -/
def exampleTask (id actor node_id : String) : Task where
  id := id
  request_id := id
  actor := actor
  node_id := node_id
  ability := "task.exec"
  state := "queued"
  idempotency_key := ""
  program := "echo"
  argument := "hello"
  output := ""
  output_sha256 := ""
  output_truncated := false
  output_limit := maxTaskOutputLimit
  exit_code := none
  lease_until := 0
  lease_token := ""
  timeout_ms := defaultTaskTimeoutMs

/-- A parser that knows the texts of a table. -/
@[reducible] def tableParser (table : List (String × Value)) : Serde where
  fromStr text := (table.find? fun entry => entry.1 == text).map Prod.snd

end NodeWe.ControlPlane
