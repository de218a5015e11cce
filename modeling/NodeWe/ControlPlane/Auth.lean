import NodeWe.ControlPlane.Store

/-!
# Authentication

`authenticate_request` tries three kinds of bearer token in turn: the administrator's token, the
credential of a node that the request names, and an operator's OIDC token. A node may be named by
the body or by the query string, and the body goes first.
-/

namespace NodeWe.ControlPlane

open Text

variable [Serde]

/-- The node that `credential_authorized` takes a request to come from. -/
def namedNode (path body : String) : Option String :=
  (jsonField body "node_id").or (queryField path "node_id")

/-- A node that the body names is the node that the request is taken to come from. -/
theorem namedNode_of_body {path body : String} (h : (jsonField body "node_id").getD "" ≠ "") :
    namedNode path body = some ((jsonField body "node_id").getD "") := by
  unfold namedNode
  cases hfield : jsonField body "node_id" with
  | none => exact absurd (by rw [hfield]; rfl) h
  | some node_id => rfl

/-- `credential_authorized`. -/
def credentialAuthorized (store : Store) (path body presented : String) : Bool :=
  match namedNode path body with
  | none => false
  | some node_id =>
    store.nodes.any fun node =>
      node.id == node_id && constantTimeEq node.credential presented && !node.revoked

/-- `OidcClaims`. -/
structure OidcClaims where
  subject : String
  groups : List String
  deriving DecidableEq

/-- `jwt_audience_matches`. -/
def jwtAudienceMatches (payload audience : String) : Bool :=
  jsonField payload "aud" == some audience || (jsonStringArray payload "aud").contains audience

/-- `String::from_utf8(base64url_decode(part)?).ok()`. -/
def decodePart (part : List Char) : Option String :=
  (base64urlDecode (String.ofList part)).bind fun decoded => String.fromUTF8? ⟨decoded.toArray⟩

/-- Whether the third part of a token is the HS256 signature of the other two. -/
def signatureValid (config : OidcConfig) (header_part payload_part signature_part : List Char) :
    Bool :=
  match base64urlDecode (String.ofList signature_part) with
  | none => false
  | some signature =>
    signature.length == 32 &&
      constantTimeEqBytes signature (hmacSha256 config.hmac_secret
        (bytes (String.ofList (header_part ++ '.' :: payload_part))))

/-- The claims of a signed payload, where `validate_oidc_token` accepts them. -/
def payloadClaims (env : Env) (config : OidcConfig) (payload : String) : Option OidcClaims :=
  let now_seconds := env.now .oidc / 1000
  if jsonField payload "iss" ≠ some config.issuer ||
      !jwtAudienceMatches payload config.audience then none
  else
    match jsonNumber payload "exp" with
    | none => none
    | some expires_at =>
      if expires_at ≤ now_seconds then none
      else if (jsonNumber payload "nbf").any (· > saturatingAdd now_seconds 30) then none
      else
        match jsonField payload "sub" with
        | none => none
        | some subject =>
          if !validActorId subject then none
          else some ⟨subject, jsonStringArray payload config.group_claim⟩

/-- `validate_oidc_token`. -/
def validateOidcToken (env : Env) (token : String) (config : OidcConfig) : Option OidcClaims :=
  match token.toList.splitOn '.' with
  | [header_part, payload_part, signature_part] =>
    match decodePart header_part with
    | none => none
    | some header =>
      if jsonField header "alg" ≠ some "HS256" then none
      else if jsonField header "typ" ≠ some "JWT" then none
      else if !signatureValid config header_part payload_part signature_part then none
      else (decodePart payload_part).bind (payloadClaims env config)
  | _ => none

/-- `AuthContext`. -/
structure AuthContext where
  authorized : Bool
  admin : Bool
  node : Bool
  actor : Option String
  deriving DecidableEq

/-- `AuthContext::default()`. -/
def AuthContext.default : AuthContext := ⟨false, false, false, none⟩

/-- `authenticate_request`. -/
def authenticateRequest (st : State) (env : Env) (store : Store) (path body presented : String) :
    AuthContext :=
  if constantTimeEq presented st.admin_token then ⟨true, true, false, some "admin"⟩
  else if credentialAuthorized store path body presented then ⟨true, false, true, none⟩
  else
    match st.oidc with
    | none => .default
    | some config =>
      match validateOidcToken env presented config with
      | none => .default
      | some claims =>
        ⟨true, claims.groups.any (· == config.admin_group), false, some claims.subject⟩

/-- A credential is accepted when the request names its node and the node is not revoked. -/
theorem credentialAuthorized_iff {store : Store} {path body presented : String} :
    credentialAuthorized store path body presented = true ↔
      ∃ node ∈ store.nodes, namedNode path body = some node.id ∧ node.credential = presented ∧
        node.revoked = false := by
  unfold credentialAuthorized
  cases hnamed : namedNode path body with
  | none => simp
  | some node_id =>
    simp only [List.any_eq_true, Bool.and_eq_true, beq_iff_eq, constantTimeEq_iff,
      Bool.not_eq_true', Option.some.injEq]
    constructor
    · rintro ⟨node, hmem, ⟨hid, hcredential⟩, hlive⟩
      exact ⟨node, hmem, hid.symm, hcredential, hlive⟩
    · rintro ⟨node, hmem, hid, hcredential, hlive⟩
      exact ⟨node, hmem, ⟨hid.symm, hcredential⟩, hlive⟩

/-- A credential makes a request a node's. -/
theorem authenticateRequest_of_credential {st : State} {env : Env} {store : Store}
    {path body presented : String} (hadmin : presented ≠ st.admin_token)
    (h : credentialAuthorized store path body presented = true) :
    authenticateRequest st env store path body presented = ⟨true, false, true, none⟩ := by
  unfold authenticateRequest
  rw [if_neg (fun hadmin' => hadmin (constantTimeEq_iff.mp hadmin')), if_pos h]

/-- Authentication reads nothing of its surroundings but the clock. -/
theorem authenticateRequest_congr {st : State} {env env' : Env} (hnow : env'.now = env.now)
    (store : Store) (path body presented : String) :
    authenticateRequest st env' store path body presented =
      authenticateRequest st env store path body presented := by
  have hclaims (config : OidcConfig) :
      payloadClaims env' config = payloadClaims env config := by
    funext payload
    rw [payloadClaims, payloadClaims, hnow]
  simp only [authenticateRequest, validateOidcToken, hclaims]

end NodeWe.ControlPlane
