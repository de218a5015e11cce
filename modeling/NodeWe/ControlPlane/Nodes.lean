import NodeWe.InPlace
import NodeWe.ControlPlane.Render

/-!
# Handlers of nodes and grants

The handlers that enrol, revoke, and rotate nodes, those of the pairing grants, and the heartbeat.
Each takes the store and returns its response with the store that it leaves behind. The source
mutates the store under its lock and rolls back when the backend fails (`persistOrRollback`); an
early return after a mutation leaves the mutated store.
-/

namespace NodeWe.ControlPlane

open Text InPlace

/-- The Ed25519 keys of the third-party cryptography crate, given by their PKCS#8 bytes. -/
class Ed25519 where
  /-- The signature of a message, where the key is valid. -/
  sign : List UInt8 → List UInt8 → Option (List UInt8)
  /-- Whether a key is valid and its public key verifies a signature of a message. -/
  verify : List UInt8 → List UInt8 → List UInt8 → Bool

/-- A cryptography crate to which no key is valid. -/
@[reducible] def noKeys : Ed25519 where
  sign _ _ := none
  verify _ _ _ := false

/-- `audit_actor`. -/
def auditActor (actor : Option String) : String := actor.getD "admin"

section Nodes

variable [Serde]

/-- The metadata of a node. -/
structure NodeMetadata where
  platform : String
  architecture : String
  version : String
  labels : String
  region : String
  data_class : String
  capacity : String

/-- `node_metadata`. -/
def nodeMetadata (body : String) : NodeMetadata where
  platform := (jsonField body "platform").getD "unknown"
  architecture := (jsonField body "architecture").getD "unknown"
  version := (jsonField body "version").getD "unknown"
  labels := (jsonField body "labels").getD ""
  region := (jsonField body "region").getD "unknown"
  data_class := (jsonField body "data_class").getD "unclassified"
  capacity := (jsonField body "capacity").getD ""

/-- The record that `create_node_as` and `redeem_grant` both enrol. -/
def enrolledNode (env : Env) (id name credential : String) (metadata : NodeMetadata) : Node where
  id := id
  name := name
  online := true
  revoked := false
  credential := credential
  abilities := defaultAbilities
  platform := metadata.platform
  architecture := metadata.architecture
  version := metadata.version
  labels := metadata.labels
  region := metadata.region
  data_class := metadata.data_class
  capacity := metadata.capacity
  last_seen := env.now .lastSeen

/-- `create_node_as`. -/
def createNodeAs (st : State) (env : Env) (body : String) (actor : Option String)
    (store : Store) : Response × Store :=
  let id := (jsonField body "node_id").getD ""
  let name := (jsonField body "name").getD id
  let metadata := nodeMetadata body
  if !jsonTypesValid body ["node_id", "name", "platform", "architecture", "version", "labels",
      "region", "data_class", "capacity"] [] [] then
    (failure .badRequest "invalid_json_type", store)
  else if !validNodeId id then (failure .badRequest "invalid_node", store)
  else if !validLabels metadata.labels then (failure .badRequest "invalid_labels", store)
  else if store.nodes.any fun node => node.id == id then (failure .conflict "node_exists", store)
  else
    match randomToken env 0 with
    | none => (failure .internalServerError "secure_random_unavailable", store)
    | some credential =>
      let node := enrolledNode env id name credential metadata
      persistOrRollback env
        { store with
          nodes := store.nodes ++ [node]
          audit := store.audit ++ [Activity.withActor st env 0 "node.created" (some id) none
            (some (auditActor actor))] }
        store ⟨.created, .nodeWithCredential node (nodeIsFresh st env node) credential⟩

/-- `revoke_node_as`. The audit records are numbered after `node.revoked` in the order of the
cancelled tasks. -/
def revokeNodeAs (st : State) (env : Env) (id : String) (actor : Option String)
    (store : Store) : Response × Store :=
  match store.nodes.find? fun node => node.id == id with
  | none => (failure .notFound "node_not_found", store)
  | some node =>
    let node := { node with revoked := true, online := false }
    let live (task : Task) : Bool :=
      task.node_id == id && (task.state == "queued" || task.state == "dispatched")
    let cancelled := (store.tasks.filter live).map Task.id
    persistOrRollback env
      { store with
        nodes := setFirst (fun node => node.id == id) node store.nodes
        tasks := store.tasks.map fun task =>
          if live task then { task with state := "cancelled", lease_until := 0 } else task
        audit := store.audit ++
          Activity.withActor st env 0 "node.revoked" (some id) none (some (auditActor actor)) ::
          cancelled.mapIdx fun k task_id =>
            Activity.withActor st env (k + 1) "task.cancelled_by_node_revoke" (some id)
              (some task_id) (some (auditActor actor)) }
      store ⟨.ok, .node node (nodeIsFresh st env node)⟩

/-- `rotate_node_as`. -/
def rotateNodeAs (st : State) (env : Env) (id : String) (actor : Option String)
    (store : Store) : Response × Store :=
  match randomToken env 0 with
  | none => (failure .internalServerError "secure_random_unavailable", store)
  | some credential =>
    match store.nodes.find? fun node => node.id == id with
    | none => (failure .notFound "node_not_found", store)
    | some node =>
      if node.revoked then (failure .forbidden "node_revoked", store)
      else
        let node := { node with credential := credential }
        persistOrRollback env
          { store with
            nodes := setFirst (fun node => node.id == id) node store.nodes
            audit := store.audit ++ [Activity.withActor st env 0 "node.credential_rotated"
              (some id) none (some (auditActor actor))] }
          store ⟨.ok, .nodeWithCredential node (nodeIsFresh st env node) credential⟩

/-- The node that a heartbeat updates, or the response that refuses it. The source takes the
store's lock before the lookup. -/
def heartbeatTarget (body : String) (store : Store) : Except Response Node :=
  match parseJsonObject body with
  | none => .error (failure .badRequest "malformed_request")
  | some object =>
    let node_id := (jsonField body "node_id").getD ""
    if (object.get "protocol_version").any (fun value => value.asU64.isNone) ||
        ["node_id", "abilities", "platform", "architecture", "version"].any
          (fun key => (object.get key).any fun value => !value.isString) then
      .error (failure .badRequest "invalid_json_type")
    else if node_id = "" then .error (failure .badRequest "invalid_node")
    else if (jsonNumber body "protocol_version").any (· ≠ protocolVersion) then
      .error ⟨.upgradeRequired, .text ("\x7b\"code\":\"unsupported_protocol_version\"," ++
        "\"protocol_version\":1\x7d")⟩
    else
      match store.nodes.find? fun node => node.id == node_id with
      | none => .error (failure .notFound "node_not_found")
      | some node =>
        if node.revoked then .error (failure .forbidden "node_revoked")
        else if ["labels", "region", "data_class", "capacity"].any
            (fun key => (object.get key).isSome) then
          .error (failure .badRequest "immutable_node_metadata")
        else .ok node

/-- A node as a heartbeat marks it before it looks at the abilities. -/
def markedOnline (env : Env) (node : Node) : Node :=
  { node with online := true, last_seen := env.now .lastSeen }

/-- A node as an accepted heartbeat leaves it. -/
def beaten (env : Env) (body : String) (abilities : Option String) (node : Node) : Node :=
  { markedOnline env node with
    abilities := abilities.getD node.abilities
    platform := (jsonField body "platform").getD node.platform
    architecture := (jsonField body "architecture").getD node.architecture
    version := (jsonField body "version").getD node.version }

/-- `heartbeat`. -/
def heartbeat (st : State) (env : Env) (body : String) (store : Store) : Response × Store :=
  match heartbeatTarget body store with
  | .error refusal => (refusal, store)
  | .ok node =>
    let node_id := (jsonField body "node_id").getD ""
    let replace (node : Node) := setFirst (fun node => node.id == node_id) node store.nodes
    match (jsonField body "abilities").map normalizeAbilities with
    | some none =>
      -- The source has already marked the node online and returns without a rollback.
      (failure .unprocessableEntity "unsupported_ability",
        { store with nodes := replace (markedOnline env node) })
    | negotiated =>
      let node := beaten env body negotiated.join node
      persistOrRollback env
        { store with
          nodes := replace node
          audit := store.audit ++ [Activity.withActor st env 0 "node.heartbeat" (some node_id) none
            (some node_id)] }
        store ⟨.ok, .heartbeat node (nodeIsFresh st env node)⟩

end Nodes

section Grants

variable [Ed25519]

/-- `configured_grant_verification_keys`, where it does not fail. -/
def configuredGrantVerificationKeys (env : Env) : Option (List (List UInt8)) :=
  env.signing_key.bind fun active =>
    env.previous_key.map fun previous => active.toList ++ previous.toList

/-- The text that a grant's signature signs. -/
def grantPayload (code : String) (expires_at : ℕ) : List UInt8 :=
  bytes (code ++ ":" ++ expires_at.repr)

/-- `sign_grant`, where it does not fail. -/
def signGrant (env : Env) (code : String) (expires_at : ℕ) (secret : String) : Option String :=
  match env.signing_key with
  | none => none
  | some (some key) => (Ed25519.sign key (grantPayload code expires_at)).map hexEncodeBytes
  | some none =>
    match configuredGrantVerificationKeys env with
    | some [] => some (hexEncodeBytes (hmacSha256 (bytes secret) (grantPayload code expires_at)))
    | _ => none

/-- `verify_grant`. A signature that is not ASCII panics in the source when keys are configured;
here it does not verify. The signature is that of a stored grant, and no run stores one that panics
(`Reachable.signature_decodes`). -/
def verifyGrant (env : Env) (code : String) (expires_at : ℕ) (signature secret : String) : Bool :=
  match configuredGrantVerificationKeys env with
  | none => false
  | some [] =>
    constantTimeEq signature
      (hexEncodeBytes (hmacSha256 (bytes secret) (grantPayload code expires_at)))
  | some keys =>
    match hexDecodeBytes signature with
    | .ok (some signature) =>
      keys.any fun key => Ed25519.verify key (grantPayload code expires_at) signature
    | _ => false

/-- `create_grant_as`. -/
def createGrantAs (st : State) (env : Env) (actor : Option String) (store : Store) :
    Response × Store :=
  match randomToken env 0 with
  | none => (failure .internalServerError "secure_random_unavailable", store)
  | some code =>
    let expires_at := env.now .expiresAt + 300000
    match signGrant env code expires_at st.grant_secret with
    | none => (failure .internalServerError "grant_signing_unavailable", store)
    | some signature =>
      let grant : Grant := ⟨code, signature, expires_at, false, false⟩
      persistOrRollback env
        { store with
          audit := store.audit ++ [Activity.withActor st env 0 "grant.created" none none
            (some (auditActor actor))]
          grants := store.grants ++ [grant] }
        store ⟨.created, .grantCreated grant⟩

/-- `list_grants`. -/
def listGrants (store : Store) : Response := ⟨.ok, .grants store.grants⟩

/-- The grant code in a path of `revoke_grant_as`. -/
def revokedGrantCode (path : String) : String :=
  trimEndMatches (trimEndMatches (trimStartMatches path "/v1/grants/") "/revoke") "/"

/-- `revoke_grant_as`. -/
def revokeGrantAs (st : State) (env : Env) (path : String) (actor : Option String)
    (store : Store) : Response × Store :=
  let code := revokedGrantCode path
  if !validNodeId code then (failure .badRequest "invalid_grant", store)
  else
    match store.grants.find? fun grant => grant.code == code with
    | none => (failure .notFound "grant_not_found", store)
    | some grant =>
      persistOrRollback env
        { store with
          grants := setFirst (fun grant => grant.code == code) { grant with revoked := true }
            store.grants
          audit := store.audit ++ [Activity.withActor st env 0 "grant.revoked" none none
            (some (auditActor actor))] }
        store ⟨.ok, .grantRevoked code⟩

variable [Serde]

/-- The grants that `redeem_grant` accepts. The stored signature is the one that is verified, and in
every run it is in hexadecimal. -/
def redeemable (st : State) (env : Env) (code signature : String) (grant : Grant) : Bool :=
  grant.code == code && constantTimeEq grant.signature signature &&
    verifyGrant env grant.code grant.expires_at grant.signature st.grant_secret &&
    !grant.used && !grant.revoked && decide (grant.expires_at > env.now (.grantExpiry grant.code))

/-- `redeem_grant`. -/
def redeemGrant (st : State) (env : Env) (body : String) (store : Store) : Response × Store :=
  let code := (jsonField body "grant_code").getD ""
  let signature := (jsonField body "grant_signature").getD ""
  let id := (jsonField body "node_id").getD ""
  let name := (jsonField body "name").getD id
  let metadata := nodeMetadata body
  if !jsonTypesValid body ["grant_code", "grant_signature", "node_id", "name", "platform",
      "architecture", "version", "labels", "region", "data_class", "capacity"] [] [] then
    (failure .badRequest "invalid_json_type", store)
  else if code = "" || signature = "" || !validNodeId id then
    (failure .badRequest "invalid_grant", store)
  else if !validLabels metadata.labels then (failure .badRequest "invalid_labels", store)
  else if store.nodes.any fun node => node.id == id then (failure .conflict "node_exists", store)
  else
    match store.grants.find? (redeemable st env code signature) with
    | none => (failure .forbidden "grant_invalid_or_expired", store)
    | some grant =>
      let grants := setFirst (redeemable st env code signature) { grant with used := true }
        store.grants
      match randomToken env 0 with
      | none =>
        -- The source has already marked the grant used and returns without a rollback.
        (failure .internalServerError "secure_random_unavailable", { store with grants := grants })
      | some credential =>
        let node := enrolledNode env id name credential metadata
        persistOrRollback env
          { store with
            grants := grants
            nodes := store.nodes ++ [node]
            audit := store.audit ++ [Activity.withActor st env 0 "grant.redeemed" (some id) none
              (some id)] }
          store ⟨.created, .nodeWithCredential node (nodeIsFresh st env node) credential⟩

end Grants

end NodeWe.ControlPlane
