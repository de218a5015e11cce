import NodeWe.ControlPlane.Auth
import NodeWe.ControlPlane.Tasks

/-!
# Routing

`route_with_actor` is one match on the method, the path, and what authentication granted. Its arms
either answer at once or call a handler. `routedArm` is the match, and `Arm.run` the handlers, so
that a request that is already authenticated is its arm and nothing else.
-/

namespace NodeWe.ControlPlane

open Text

/-- `ADMIN_UI_HTML`. -/
def adminUiHtml : String :=
  "<!doctype html><html><head><meta charset=\"utf-8\">" ++
    "<meta name=\"viewport\" content=\"width=device-width,initial-scale=1\">" ++
    "<title>NodeWe Control Plane</title>" ++
    "<style>body\x7bfont:16px system-ui;max-width:960px;margin:2rem auto;padding:0 1rem;" ++
    "background:#f6f7f9;color:#17202a\x7dbutton\x7bpadding:.5rem 1rem\x7d" ++
    "pre\x7bbackground:white;padding:1rem;border-radius:8px;overflow:auto\x7d</style></head>" ++
    "<body><h1>NodeWe</h1><p>Control Plane 管理台</p><button onclick=\"load()\">刷新节点</button>" ++
    "<pre id=\"out\">请输入 Bearer Token 后刷新</pre><script>async function load()\x7b" ++
    "const token=prompt('Admin Bearer Token');if(!token)return;" ++
    "const r=await fetch('/v1/nodes',\x7bheaders:\x7bAuthorization:'Bearer '+token\x7d\x7d);" ++
    "document.querySelector('#out').textContent=await r.text()\x7d</script></body></html>"

/-! ## Audit export -/

/-- A number of a query string, or its default where it is absent or does not parse. -/
def queryNumber (path key : String) (default : ℕ) : ℕ :=
  ((queryField path key).bind fun value => parseUnsigned u64Max value.toList).getD default

/-- `export_audit`. -/
def exportAudit (path : String) (store : Store) : Response :=
  let start := queryNumber path "from" 0
  let limit := queryNumber path "limit" 1000
  if limit = 0 || limit > 10000 then failure .badRequest "invalid_audit_limit"
  else if start > store.audit.length then failure .rangeNotSatisfiable "invalid_audit_offset"
  else ⟨.ok, .auditPage store.audit start (min (saturatingAdd start limit) store.audit.length)⟩

/-! ## The arms -/

/-- What an arm of `route_with_actor` does: a response that depends on no store, a reading of the
store, or a handler with the arguments that the arm passes on. -/
inductive Arm
  | respond (response : Response)
  | redeemGrant (body : String)
  | listNodes
  | createNode (body : String) (actor : Option String)
  | createGrant (actor : Option String)
  | listGrants
  | revokeGrant (path : String) (actor : Option String)
  | createApproval (body : String) (actor : Option String)
  | listApprovals
  | listTasks
  | getTask (path : String)
  | createTask (body : String) (actor : Option String)
  | cancelTask (path : String) (actor : Option String)
  | heartbeat (body : String)
  | agentTasks (path : String)
  | agentResult (path body : String)
  | listAudit
  | exportAudit (path : String)
  | revokeNode (id : String) (actor : Option String)
  | rotateNode (id : String) (actor : Option String)

/-- The response and the store that an arm leaves behind. -/
def Arm.run [Serde] [Ed25519] (st : State) (env : Env) (arm : Arm) (store : Store) :
    Response × Store :=
  match arm with
  | respond response => (response, store)
  | redeemGrant body => ControlPlane.redeemGrant st env body store
  | listNodes => (⟨.ok, .nodes (store.nodes.map fun node => (node, nodeIsFresh st env node))⟩, store)
  | createNode body actor => createNodeAs st env body actor store
  | createGrant actor => createGrantAs st env actor store
  | listGrants => (ControlPlane.listGrants store, store)
  | revokeGrant path actor => revokeGrantAs st env path actor store
  | createApproval body actor => createApprovalAs st env body actor store
  | listApprovals => (⟨.ok, .approvals store.approvals⟩, store)
  | listTasks => (⟨.ok, .tasks store.tasks⟩, store)
  | getTask path => (ControlPlane.getTask path store, store)
  | createTask body actor => createTaskAs st env body actor store
  | cancelTask path actor => cancelTaskAs st env path actor store
  | heartbeat body => ControlPlane.heartbeat st env body store
  | agentTasks path => ControlPlane.agentTasks st env path store
  | agentResult path body => ControlPlane.agentResult st env path body store
  | listAudit => (⟨.ok, .audit store.audit⟩, store)
  | exportAudit path => (ControlPlane.exportAudit path store, store)
  | revokeNode id actor => revokeNodeAs st env id actor store
  | rotateNode id actor => rotateNodeAs st env id actor store

/-! ## The match -/

/-- The node in a path that revokes or rotates it. -/
def nodeOfPath (path suffix : String) : String :=
  trimEndMatches (trimEndMatches (trimStartMatches path "/v1/nodes/") suffix) "/"

/-- The refusal of an operator who is no administrator. -/
def adminRequired : Arm := .respond (failure .forbidden "admin_required")

/-- The arm of `route_with_actor` that a request takes. -/
def routedArm (method path body : String) (authorized admin : Bool) (actor : Option String) : Arm :=
  let under (base suffix : String) : Bool := startsWith path base && endsWith path suffix
  if path == "/health" && method == "GET" then
    .respond ⟨.ok, .text ("\x7b\"status\":\"ok\",\"protocol_version\":1," ++
      "\"service\":\"nodewe-control-plane\"\x7d")⟩
  else if path == "/" && method == "GET" then .respond ⟨.ok, .text adminUiHtml⟩
  else if method == "POST" && path == "/v1/grants/redeem" then .redeemGrant body
  else if !authorized then .respond (failure .unauthorized "unauthenticated")
  else if method == "GET" && path == "/v1/nodes" then
    if admin then .listNodes else adminRequired
  else if method == "POST" && path == "/v1/nodes" then
    if admin then .createNode body actor else adminRequired
  else if method == "POST" && path == "/v1/grants" then
    if admin then .createGrant actor else adminRequired
  else if method == "GET" && path == "/v1/grants" then
    if admin then .listGrants else adminRequired
  else if method == "POST" && under "/v1/grants/" "/revoke" then
    if admin then .revokeGrant path actor else adminRequired
  else if method == "POST" && path == "/v1/approvals" && admin then .createApproval body actor
  else if method == "GET" && path == "/v1/approvals" && admin then .listApprovals
  else if method == "GET" && path == "/v1/tasks" then
    if admin then .listTasks else adminRequired
  else if method == "GET" && startsWith path "/v1/tasks/" then
    if admin then .getTask path else adminRequired
  else if method == "POST" && path == "/v1/tasks" then
    if admin then .createTask body actor else adminRequired
  else if method == "POST" && under "/v1/tasks/" "/cancel" then
    if admin then .cancelTask path none
    else if actor.isSome then .cancelTask path actor
    else adminRequired
  else if method == "POST" && path == "/v1/agent/heartbeat" then .heartbeat body
  else if method == "GET" && startsWith path "/v1/agent/tasks" then .agentTasks path
  else if method == "POST" && under "/v1/agent/tasks/" "/result" then .agentResult path body
  else if method == "GET" && path == "/v1/audit" && admin then .listAudit
  else if method == "GET" && admin &&
      String.ofList (((splitOnce '?' path.toList).map Prod.fst).getD path.toList) ==
        "/v1/audit/export" then
    .exportAudit path
  else if method == "GET" && path == "/v1/audit" then adminRequired
  else if method == "POST" && under "/v1/nodes/" "/revoke" then
    if admin then .revokeNode (nodeOfPath path "/revoke") actor else adminRequired
  else if method == "POST" && under "/v1/nodes/" "/rotate" then
    if admin then .rotateNode (nodeOfPath path "/rotate") actor else adminRequired
  else .respond (failure .notFound "not_found")

/-- `route_with_actor`. -/
def routeWithActor [Serde] [Ed25519] (st : State) (env : Env) (method path body : String)
    (authorized admin : Bool) (actor : Option String) (store : Store) : Response × Store :=
  (routedArm method path body authorized admin actor).run st env store

/-- The last part of `handle`: the request is authenticated and then routed. -/
def serve [Serde] [Ed25519] (st : State) (env : Env) (store : Store)
    (method path body presented : String) : Response × Store :=
  let auth := authenticateRequest st env store path body presented
  routeWithActor st env method path body auth.authorized auth.admin auth.actor store

/-! ## What each caller reaches -/

/-- The identity that an agent's handler acts on. -/
def Arm.actsOn [Serde] : Arm → Option String
  | heartbeat body => some ((jsonField body "node_id").getD "")
  | agentTasks path => queryField path "node_id"
  | agentResult _ body => some ((jsonField body "node_id").getD "")
  | _ => none

/-- An arm is one of the three handlers for agents. -/
def Arm.isAgent : Arm → Bool
  | heartbeat _ | agentTasks _ | agentResult _ _ => true
  | _ => false

/-- The arms that are open to a caller who is no administrator: a response that reads no store
and shows no task, the redemption of a grant, the cancellation of a task in the caller's name, and
the handlers for agents. -/
inductive Unprivileged (method path body : String) (actor : Option String) : Arm → Prop
  | respond (response : Response) (htasks : response.reply.shownTasks = [])
      (happrovals : response.reply.shownApprovals = []) :
      Unprivileged method path body actor (.respond response)
  | redeemGrant (hmethod : method = "POST") (hpath : path = "/v1/grants/redeem") :
      Unprivileged method path body actor (.redeemGrant body)
  | cancelTask (a : String) (hactor : actor = some a) :
      Unprivileged method path body actor (.cancelTask path (some a))
  | heartbeat : Unprivileged method path body actor (.heartbeat body)
  | agentTasks : Unprivileged method path body actor (.agentTasks path)
  | agentResult : Unprivileged method path body actor (.agentResult path body)

/-- The arms that are open to a caller who is not authenticated. -/
inductive Public (method path body : String) : Arm → Prop
  | respond (response : Response) (htasks : response.reply.shownTasks = [])
      (happrovals : response.reply.shownApprovals = []) :
      Public method path body (.respond response)
  | redeemGrant (hmethod : method = "POST") (hpath : path = "/v1/grants/redeem") :
      Public method path body (.redeemGrant body)

/-- A caller who is no administrator reaches no other arm. -/
theorem unprivileged_routedArm (method path body : String) (authorized : Bool)
    (actor : Option String) :
    Unprivileged method path body actor (routedArm method path body authorized false actor) := by
  have hrefused : Unprivileged method path body actor adminRequired := .respond _ rfl rfl
  unfold routedArm
  -- One goal for each arm; those that ask for an administrator have a false guard.
  repeat' refine iteInduction (fun h => ?_) (fun h => ?_)
  all_goals
    first
    | exact hrefused
    | exact .respond _ rfl rfl
    | exact .heartbeat
    | exact .agentTasks
    | exact .agentResult
    | obtain ⟨a, rfl⟩ := Option.isSome_iff_exists.mp h
      exact .cancelTask a rfl
    | have ⟨hmethod, hpath⟩ := Bool.and_eq_true_iff.mp h
      exact .redeemGrant (eq_of_beq hmethod) (eq_of_beq hpath)
    | exact absurd h (by simp)

/-- A caller who is not authenticated reaches no other arm. -/
theorem public_routedArm (method path body : String) (admin : Bool) (actor : Option String) :
    Public method path body (routedArm method path body false admin actor) := by
  unfold routedArm
  refine iteInduction (fun _ => .respond _ rfl rfl) (fun _ => ?_)
  refine iteInduction (fun _ => .respond _ rfl rfl) (fun _ => ?_)
  refine iteInduction (fun h => ?_) (fun _ => ?_)
  · have ⟨hmethod, hpath⟩ := Bool.and_eq_true_iff.mp h
    exact .redeemGrant (eq_of_beq hmethod) (eq_of_beq hpath)
  · exact .respond _ rfl rfl

end NodeWe.ControlPlane
