import NodeWe.ControlPlane.AuditTrail
import NodeWe.ControlPlane.Approvable
import NodeWe.ControlPlane.Grants

/-!
# Failures half way

`heartbeat`, `redeem_grant` and `agent_tasks` change a record of the store before their last check,
and return from that check without `persist_or_rollback`. What a failure leaves behind is then
decided by how far the handler has come.
-/

namespace NodeWe.ControlPlane

open Text InPlace

/-! ## A refused heartbeat -/

section Heartbeat

variable [Serde] {st : State} {env : Env} {store : Store} {body : String} {node : Node}

/-- A heartbeat that is refused for its abilities, after its node is marked. -/
def RefusedMarked (env : Env) (body : String) (store : Store) : Prop :=
  ∃ node, heartbeatTarget body store = .ok node ∧
    (jsonField body "abilities").map normalizeAbilities = some none ∧ markedOnline env node ≠ node

/-- A heartbeat that is refused for its abilities leaves its node marked. -/
theorem heartbeat_abort_unchanged_iff (htarget : heartbeatTarget body store = .ok node)
    (habilities : (jsonField body "abilities").map normalizeAbilities = some none) :
    (heartbeat st env body store).2 = store ↔ markedOnline env node = node := by
  have hfound := (heartbeatTarget_ok htarget).found
  rw [heartbeat_abort htarget habilities]
  constructor
  · intro hsame
    exact setFirst_eq_self hfound (congrArg Store.nodes hsame)
  · intro hsame
    rw [hsame, setFirst_self hfound]

/-- A heartbeat whose abilities are not refused changes nothing unless it is accepted. -/
theorem heartbeat_supported (hsupported : ∀ node, heartbeatTarget body store = .ok node →
      (jsonField body "abilities").map normalizeAbilities ≠ some none)
    (hstatus : (heartbeat st env body store).1.status ≠ .ok) :
    (heartbeat st env body store).2 = store := by
  cases htarget : heartbeatTarget body store with
  | error refusal => rw [heartbeat, htarget]
  | ok node =>
    have hnegotiated : ∃ abilities : Option String,
        (jsonField body "abilities").map normalizeAbilities = abilities.map some := by
      match hread : (jsonField body "abilities").map normalizeAbilities with
      | none => exact ⟨none, rfl⟩
      | some none => exact absurd hread (hsupported node htarget)
      | some (some abilities) => exact ⟨some abilities, rfl⟩
    obtain ⟨abilities, habilities⟩ := hnegotiated
    rw [heartbeat_run abilities htarget habilities, persistOrRollback] at hstatus ⊢
    split_ifs at hstatus ⊢
    · exact absurd rfl hstatus
    · rfl

/-- **A refused heartbeat changes nothing unless it has marked its node.** -/
theorem refused_heartbeat_unchanged_iff (st : State) (env : Env) (body : String) (store : Store) :
    ((heartbeat st env body store).1.status ≠ .ok → (heartbeat st env body store).2 = store) ↔
      ¬RefusedMarked env body store := by
  constructor
  · rintro hunchanged ⟨node, htarget, habilities, hmarked⟩
    have hstatus : (heartbeat st env body store).1.status ≠ .ok := by
      rw [heartbeat_abort htarget habilities]
      show Status.unprocessableEntity ≠ .ok
      decide
    exact hmarked ((heartbeat_abort_unchanged_iff htarget habilities).mp (hunchanged hstatus))
  · intro hnone hstatus
    by_cases hrefused : ∃ node, heartbeatTarget body store = .ok node ∧
        (jsonField body "abilities").map normalizeAbilities = some none
    · obtain ⟨node, htarget, habilities⟩ := hrefused
      refine (heartbeat_abort_unchanged_iff htarget habilities).mpr ?_
      by_contra hmarked
      exact hnone ⟨node, htarget, habilities, hmarked⟩
    · refine heartbeat_supported (fun node htarget habilities => ?_) hstatus
      exact hrefused ⟨node, htarget, habilities⟩

end Heartbeat

section Example

attribute [local instance] compactSerde noKeys

/-- A heartbeat of the node `n1` that reports an ability which is not supported. -/
def unableHeartbeat : String := "\x7b\"node_id\":\"n1\",\"abilities\":\"fly\"\x7d"

/-- The store after the node is enrolled. -/
def pairedStore : Store :=
  ((Arm.createNode exampleBodies.1 none).run exampleState (exampleEnv 0) .empty).2

/-- The heartbeat is refused, and the node, which had not been heard of for long, is fresh. -/
theorem refused_heartbeat_marks :
    Reachable pairedStore ∧
      pairedStore.nodes.map (nodeIsFresh exampleState (exampleEnv 1000000)) = [false] ∧
      (heartbeat exampleState (exampleEnv 1000000) unableHeartbeat pairedStore).2.nodes.map
        (nodeIsFresh exampleState (exampleEnv 1000000)) = [true] ∧
      ¬((heartbeat exampleState (exampleEnv 1000000) unableHeartbeat pairedStore).1.status ≠ .ok →
        (heartbeat exampleState (exampleEnv 1000000) unableHeartbeat pairedStore).2 =
          pairedStore) := by
  have hfresh : pairedStore.nodes.map (nodeIsFresh exampleState (exampleEnv 1000000)) = [false] ∧
      (heartbeat exampleState (exampleEnv 1000000) unableHeartbeat pairedStore).2.nodes.map
        (nodeIsFresh exampleState (exampleEnv 1000000)) = [true] ∧
      (heartbeat exampleState (exampleEnv 1000000) unableHeartbeat pairedStore).1.status ≠ .ok := by
    decide +kernel
  obtain ⟨hbefore, hafter, hstatus⟩ := hfresh
  refine ⟨?_, hbefore, hafter, fun hunchanged => ?_⟩
  · have hempty : Reachable Store.empty := ⟨[], .start⟩
    exact hempty.step (.handled _ _ _ (.handled exampleState (exampleEnv 0)
      (.createNode exampleBodies.1 none) _))
  · rw [hunchanged hstatus, hbefore] at hafter
    cases hafter

end Example

/-! ## A failed redemption -/

/-- A grant that was not used is used. -/
def ConsumesGrant (store new : Store) : Prop :=
  ∃ (i : ℕ) (grant grant' : Grant), store.grants[i]? = some grant ∧ new.grants[i]? = some grant' ∧
    grant.used = false ∧ grant'.used = true

/-- One node is enrolled, with a credential that is drawn for it. -/
def EnrolsOne (env : Env) (store : Store) (response : Response) (new : Store) : Prop :=
  response.status = .created ∧ ∃ node, new.nodes = store.nodes ++ [node] ∧
    randomToken env 0 = some node.credential

section Redemption

variable [Serde] [Ed25519] {st : State} {env : Env} {store : Store} {body : String}

/-- A grant is used when a node is enrolled, and otherwise the store is left as it is. -/
def RedeemsWhole (st : State) (env : Env) (body : String) (store : Store) : Prop :=
  (ConsumesGrant store (redeemGrant st env body store).2 ↔
    EnrolsOne env store (redeemGrant st env body store).1 (redeemGrant st env body store).2) ∧
  (¬EnrolsOne env store (redeemGrant st env body store).1 (redeemGrant st env body store).2 →
    (redeemGrant st env body store).2 = store)

/-- The guards of a redemption up to the draw of the credential. -/
structure ReachesDraw (st : State) (env : Env) (body : String) (store : Store) (grant : Grant) :
    Prop where
  types : jsonTypesValid body ["grant_code", "grant_signature", "node_id", "name", "platform",
    "architecture", "version", "labels", "region", "data_class", "capacity"] [] [] = true
  code : (jsonField body "grant_code").getD "" ≠ ""
  signature : (jsonField body "grant_signature").getD "" ≠ ""
  valid_id : validNodeId ((jsonField body "node_id").getD "") = true
  valid_labels : validLabels (nodeMetadata body).labels = true
  fresh_id : store.nodes.any (fun node => node.id == (jsonField body "node_id").getD "") = false
  found : store.grants.find? (redeemedBy st env body) = some grant

/-- A redemption is refused by a guard, with no change, or comes to the draw. -/
theorem redeemGrant_cases (st : State) (env : Env) (body : String) (store : Store) :
    ((redeemGrant st env body store).2 = store ∧
        (redeemGrant st env body store).1.status ≠ .created ∧
        ∀ grant, ¬ReachesDraw st env body store grant) ∨
      ∃ grant, ReachesDraw st env body store grant := by
  have hstatus : Status.badRequest ≠ .created ∧ Status.conflict ≠ .created ∧
      Status.forbidden ≠ .created := by
    decide
  unfold redeemGrant
  dsimp only
  by_cases htypes : jsonTypesValid body ["grant_code", "grant_signature", "node_id", "name",
      "platform", "architecture", "version", "labels", "region", "data_class", "capacity"] [] [] =
      true
  swap
  · rw [if_pos (by simpa using htypes)]
    exact .inl ⟨rfl, hstatus.1, fun grant h => htypes h.types⟩
  rw [if_neg (by simpa using htypes)]
  split_ifs with hinvalid hlabels hexists
  · refine .inl ⟨rfl, hstatus.1, fun grant h => ?_⟩
    simp [h.code, h.signature, h.valid_id] at hinvalid
  · refine .inl ⟨rfl, hstatus.1, fun grant h => ?_⟩
    simp [h.valid_labels] at hlabels
  · refine .inl ⟨rfl, hstatus.2.1, fun grant h => ?_⟩
    rw [h.fresh_id] at hexists
    cases hexists
  · cases hfound : store.grants.find? (redeemedBy st env body) with
    | none =>
      have hfind := hfound
      unfold redeemedBy at hfind
      rw [hfind]
      exact .inl ⟨rfl, hstatus.2.2, fun grant h => by rw [h.found] at hfound; cases hfound⟩
    | some grant =>
      simp only [Bool.or_eq_true, decide_eq_true_eq, Bool.not_eq_true', not_or,
        Bool.not_eq_false] at hinvalid hlabels
      exact .inr ⟨grant, htypes, hinvalid.1.1, hinvalid.1.2, hinvalid.2, hlabels,
        Bool.eq_false_iff.mpr hexists, hfound⟩

/-- What a redemption does once its guards hold. -/
theorem ReachesDraw.run {grant : Grant} (h : ReachesDraw st env body store grant) :
    redeemGrant st env body store =
      match randomToken env 0 with
      | none => (failure .internalServerError "secure_random_unavailable",
          { store with
            grants := setFirst (redeemedBy st env body) { grant with used := true } store.grants })
      | some credential =>
        persistOrRollback env
          { store with
            grants := setFirst (redeemedBy st env body) { grant with used := true } store.grants
            nodes := store.nodes ++ [enrolledNode env ((jsonField body "node_id").getD "")
              ((jsonField body "name").getD ((jsonField body "node_id").getD "")) credential
              (nodeMetadata body)]
            audit := store.audit ++ [Activity.withActor st env 0 "grant.redeemed"
              (some ((jsonField body "node_id").getD "")) none
              (some ((jsonField body "node_id").getD ""))] }
          store ⟨.created, .nodeWithCredential
            (enrolledNode env ((jsonField body "node_id").getD "")
              ((jsonField body "name").getD ((jsonField body "node_id").getD "")) credential
              (nodeMetadata body))
            (nodeIsFresh st env (enrolledNode env ((jsonField body "node_id").getD "")
              ((jsonField body "name").getD ((jsonField body "node_id").getD "")) credential
              (nodeMetadata body))) credential⟩ := by
  have hfind := h.found
  unfold redeemedBy at hfind ⊢
  unfold redeemGrant
  simp only [h.types, h.code, h.signature, h.valid_id, h.valid_labels, h.fresh_id, hfind]
  cases randomToken env 0 <;> rfl

omit [Serde] [Ed25519] in
/-- A store that is left as it is has used no grant. -/
theorem not_consumesGrant_self (store : Store) : ¬ConsumesGrant store store := by
  rintro ⟨i, grant, grant', hgrant, hgrant', hfresh, hused⟩
  obtain rfl : grant = grant' := Option.some.inj (hgrant.symm.trans hgrant')
  rw [hfresh] at hused
  cases hused

/-- A redemption that comes to the draw finds a grant that is not used. -/
theorem ReachesDraw.consumes {grant : Grant} (h : ReachesDraw st env body store grant) {new : Store}
    (hgrants : new.grants =
      setFirst (redeemedBy st env body) { grant with used := true } store.grants) :
    ConsumesGrant store new := by
  have hfirst := getElem?_findIdx h.found
  have hunused : grant.used = false := by
    have hredeemed := List.find?_some h.found
    simp only [redeemedBy, redeemable, Bool.and_eq_true, Bool.not_eq_true'] at hredeemed
    exact hredeemed.1.1.2
  refine ⟨_, grant, { grant with used := true }, hfirst, ?_, hunused, rfl⟩
  rw [hgrants, setFirst]
  exact List.getElem?_set_self (List.getElem?_eq_some_iff.mp hfirst).1

/-- A redemption that leaves the store as it is, and does not answer that it created a node. -/
theorem RedeemsWhole.of_unchanged (hsame : (redeemGrant st env body store).2 = store)
    (hstatus : (redeemGrant st env body store).1.status ≠ .created) :
    RedeemsWhole st env body store := by
  refine ⟨iff_of_false ?_ fun henrols => hstatus henrols.1, fun _ => hsame⟩
  rw [hsame]
  exact not_consumesGrant_self store

/-- **A grant is used exactly when a node is enrolled, unless the random source fails.** -/
theorem redeems_whole_iff (st : State) (env : Env) (body : String) (store : Store) :
    RedeemsWhole st env body store ↔
      ¬(randomToken env 0 = none ∧ ∃ grant, ReachesDraw st env body store grant) := by
  rcases redeemGrant_cases st env body store with ⟨hsame, hstatus, hnone⟩ | ⟨grant, hredeems⟩
  · refine iff_of_true (.of_unchanged hsame hstatus) ?_
    rintro ⟨-, grant, hredeems⟩
    exact hnone grant hredeems
  · have hrun := hredeems.run
    cases hdrawn : randomToken env 0 with
    | none =>
      -- The grant is used and no node is enrolled.
      rw [hdrawn] at hrun
      refine iff_of_false (fun hwhole => ?_) fun hnot => hnot ⟨rfl, grant, hredeems⟩
      have hconsumes : ConsumesGrant store (redeemGrant st env body store).2 :=
        hredeems.consumes (by rw [hrun])
      have hcreated := (hwhole.1.mp hconsumes).1
      rw [hrun] at hcreated
      exact absurd hcreated (show Status.internalServerError ≠ .created by decide)
    | some credential =>
      rw [hdrawn] at hrun
      refine iff_of_true ?_ fun hfails => absurd hfails.1 (Option.some_ne_none _)
      dsimp only at hrun
      rw [persistOrRollback] at hrun
      split_ifs at hrun
      · have henrols : EnrolsOne env store (redeemGrant st env body store).1
            (redeemGrant st env body store).2 := by
          rw [hrun]
          exact ⟨rfl, _, rfl, hdrawn⟩
        have hconsumes : ConsumesGrant store (redeemGrant st env body store).2 :=
          hredeems.consumes (by rw [hrun])
        exact ⟨iff_of_true hconsumes henrols, fun hnot => absurd henrols hnot⟩
      · refine .of_unchanged (by rw [hrun]) ?_
        rw [hrun]
        show Status.serviceUnavailable ≠ .created
        decide

end Redemption

section Example

attribute [local instance] compactSerde rfc8259_compactSerde noKeys

/-- The store after a grant is created. -/
def grantedStore : Store := ((Arm.createGrant none).run exampleState (exampleEnv 0) .empty).2

/-- Surroundings whose random source fails. -/
def drawlessEnv : Env := { exampleEnv 0 with random := fun _ => none }

/-- The body that presents the only grant of a store for the node `n1`. -/
def presentingBody (store : Store) : String :=
  let grant := store.grants.headD ⟨"", "", 0, false, false⟩
  (Value.object [("grant_code", .string grant.code), ("grant_signature", .string grant.signature),
    ("node_id", .string "n1")]).text

/-- The grant of the store is signed and not used. -/
theorem grantedStore_grants : ∃ grant, grantedStore.grants = [grant] ∧
    grantedStore.nodes = [] ∧ grant.signature = hexEncodeBytes (hmacSha256 (bytes "s")
      (grantPayload grant.code grant.expires_at)) ∧
    grant.code ≠ "" ∧ grant.used = false ∧ grant.revoked = false ∧ grant.expires_at = 300000 := by
  refine ⟨⟨hexEncodeBytes (List.replicate 24 0), hexEncodeBytes (hmacSha256 (bytes "s")
    (grantPayload (hexEncodeBytes (List.replicate 24 0)) 300000)), 300000, false, false⟩,
    rfl, rfl, rfl, ?_, rfl, rfl, rfl⟩
  show hexEncodeBytes (List.replicate 24 0) ≠ ""
  decide

/-- Bytes in hexadecimal are a text. -/
theorem hexEncodeBytes_ne_empty {bs : List UInt8} (h : bs ≠ []) : hexEncodeBytes bs ≠ "" := by
  obtain ⟨b, rest, rfl⟩ := List.exists_cons_of_ne_nil h
  intro hempty
  have hchars := congrArg String.toList hempty
  rw [hexEncodeBytes, String.toList_ofList] at hchars
  simp [hexByte] at hchars

/-- The fields that the body presents. -/
theorem jsonField_presentingBody {store : Store} {grant : Grant}
    (hgrants : store.grants = [grant]) :
    (∀ fields, jsonTypesValid (presentingBody store) fields [] [] = true) ∧
    jsonField (presentingBody store) "grant_code" = some grant.code ∧
    jsonField (presentingBody store) "grant_signature" = some grant.signature ∧
    jsonField (presentingBody store) "node_id" = some "n1" ∧
    jsonField (presentingBody store) "labels" = none := by
  let object : Value := .object [("grant_code", .string grant.code),
    ("grant_signature", .string grant.signature), ("node_id", .string "n1")]
  have hbody : presentingBody store = object.text := by
    simp only [presentingBody, hgrants, List.headD_cons, object]
  obtain ⟨read, hparsed, hget⟩ : ∃ read, parseJsonObject object.text = some (.object read) ∧
      ∀ key, (Value.object read).get key = object.get key := by
    refine parseJsonObject_plain (by simp) ?_
    simp only [List.forall_mem_cons, List.not_mem_nil, false_imp_iff, implies_true, and_true]
    exact ⟨⟨.string _, rfl⟩, ⟨.string _, rfl⟩, ⟨.string _, rfl⟩⟩
  have hfield (key : String) : jsonField (presentingBody store) key =
      (object.get key).bind Value.asStr := by
    rw [hbody, jsonField, hparsed, Option.bind_some, hget]
  have hstring (key : String) : (object.get key).all Value.isString = true := by
    rw [Option.all_eq_true]
    intro value hvalue
    obtain ⟨member, hmember, rfl⟩ := Option.map_eq_some_iff.mp hvalue
    have hmem := List.mem_of_find?_eq_some hmember
    simp only [List.mem_cons, List.not_mem_nil, or_false] at hmem
    obtain rfl | rfl | rfl := hmem <;> rfl
  refine ⟨fun fields => ?_, ?_, ?_, ?_, ?_⟩
  · rw [hbody, jsonTypesValid, hparsed]
    simp only [List.all_nil, Bool.and_true, List.all_eq_true, hget]
    exact fun key _ => hstring key
  all_goals
    rw [hfield]
    simp [object, Value.get, Value.asStr]

/-- The redemption of such a grant comes to the draw. -/
theorem reachesDraw_presented {store : Store} {body : String} {grant : Grant}
    (hgrants : store.grants = [grant]) (hnodes : store.nodes = [])
    (htypes : jsonTypesValid body ["grant_code", "grant_signature", "node_id", "name", "platform",
      "architecture", "version", "labels", "region", "data_class", "capacity"] [] [] = true)
    (hcode_field : jsonField body "grant_code" = some grant.code)
    (hsignature_field : jsonField body "grant_signature" = some grant.signature)
    (hid_field : jsonField body "node_id" = some "n1")
    (hlabels_field : jsonField body "labels" = none)
    (hsigned : grant.signature =
      hexEncodeBytes (hmacSha256 (bytes "s") (grantPayload grant.code grant.expires_at)))
    (hcode : grant.code ≠ "") (hunused : grant.used = false) (hlive : grant.revoked = false)
    (hexpires : grant.expires_at = 300000) :
    ReachesDraw exampleState drawlessEnv body store grant := by
  have hsignature : grant.signature ≠ "" := by
    rw [hsigned]
    refine hexEncodeBytes_ne_empty ?_
    simp [hmacSha256, sha256, bigEndian]
  have hverified : verifyGrant drawlessEnv grant.code grant.expires_at grant.signature
      exampleState.grant_secret = true := constantTimeEq_iff.mpr hsigned
  have hopen : drawlessEnv.now (.grantExpiry grant.code) < grant.expires_at := by
    rw [hexpires]
    show 0 < 300000
    omega
  have hredeemed : redeemedBy exampleState drawlessEnv body grant = true := by
    simp [redeemedBy, redeemable, hcode_field, hsignature_field, constantTimeEq_iff, hverified,
      hunused, hlive, hopen]
  have hlabels : (nodeMetadata body).labels = "" := by
    simp only [nodeMetadata, hlabels_field, Option.getD_none]
  have hvalid : validNodeId "n1" = true ∧ validLabels "" = true := by decide
  constructor
  · exact htypes
  · rwa [hcode_field, Option.getD_some]
  · rwa [hsignature_field, Option.getD_some]
  · rw [hid_field, Option.getD_some]
    exact hvalid.1
  · rw [hlabels]
    exact hvalid.2
  · rw [hnodes, List.any_nil]
  · rw [hgrants, List.find?_cons, hredeemed]

/-- The redemption fails, the grant is used, and no node is enrolled. -/
theorem failed_redemption_consumes : Reachable grantedStore ∧
    ConsumesGrant grantedStore
      (redeemGrant exampleState drawlessEnv (presentingBody grantedStore) grantedStore).2 ∧
    (redeemGrant exampleState drawlessEnv (presentingBody grantedStore) grantedStore).2.nodes =
      grantedStore.nodes ∧
    ¬RedeemsWhole exampleState drawlessEnv (presentingBody grantedStore) grantedStore := by
  obtain ⟨grant, hgrants, hnodes, hsigned, hcode, hunused, hlive, hexpires⟩ := grantedStore_grants
  obtain ⟨htypes, hcode_field, hsignature_field, hid_field, hlabels_field⟩ :=
    jsonField_presentingBody hgrants
  generalize presentingBody grantedStore = body at *
  have hreaches : ReachesDraw exampleState drawlessEnv body grantedStore grant :=
    reachesDraw_presented hgrants hnodes (htypes _) hcode_field hsignature_field
      hid_field hlabels_field hsigned hcode hunused hlive hexpires
  have hrun := hreaches.run
  have hdrawn : randomToken drawlessEnv 0 = none := rfl
  rw [hdrawn] at hrun
  have hconsumes : ConsumesGrant grantedStore
      (redeemGrant exampleState drawlessEnv body grantedStore).2 :=
    hreaches.consumes (by rw [hrun])
  refine ⟨?_, hconsumes, by rw [hrun], fun hwhole => ?_⟩
  · have hempty : Reachable Store.empty := ⟨[], .start⟩
    exact hempty.step (.handled _ _ _ (.handled exampleState (exampleEnv 0) (.createGrant none) _))
  · have hstatus := (hwhole.1.mp hconsumes).1
    rw [hrun] at hstatus
    exact absurd hstatus (show Status.internalServerError ≠ .created by decide)

end Example

/-! ## A partial dispatch -/

/-- The tasks of a list with the claimable ones leased, each with the next of some tokens. -/
def leaseAll (env : Env) (node_id : String) : List String → List Task → List Task
  | _, [] => []
  | tokens, task :: rest =>
    if claimable env node_id task then
      leased env (tokens.headD "") task :: leaseAll env node_id tokens.tail rest
    else task :: leaseAll env node_id tokens rest

/-- A poll dispatches every claimable task of its node: each gets a token that is drawn for it, the
answer has them in the order of the store, and the backend has persisted them. -/
structure DispatchesAll (env : Env) (node_id : String) (store : Store) (response : Response)
    (new : Store) : Prop where
  answers : response.status = .ok
  dispatches : ∃ tokens : List String,
    tokens.length = store.tasks.countP (claimable env node_id) ∧
    (∀ (j : ℕ) (token : String), tokens[j]? = some token → randomToken env j = some token) ∧
    response.reply.shownTasks =
      List.zipWith (leased env) tokens (store.tasks.filter (claimable env node_id)) ∧
    new.tasks = leaseAll env node_id tokens store.tasks
  persists : response.reply.shownTasks ≠ [] → env.persist new = true

/-- A poll answers with all the tasks that it may dispatch, or fails and leaves the tasks and the
audit list as they are. -/
def DispatchesWhole (st : State) (env : Env) (path : String) (store : Store) : Prop :=
  (∃ node_id, queryField path "node_id" = some node_id ∧
    DispatchesAll env node_id store (agentTasks st env path store).1
      (agentTasks st env path store).2) ∨
  (agentTasks st env path store).1.status.isSuccess = false ∧
    (agentTasks st env path store).2.tasks = store.tasks ∧
    (agentTasks st env path store).2.audit = store.audit

section Dispatch

variable {st : State} {env : Env} {path node_id : String} {store : Store} {tasks : List Task}
  {k : ℕ}

/-- The loop fails exactly when the random source fails for a claimable task. -/
theorem dispatchLoop_none_iff : (dispatchLoop env node_id k tasks).2 = none ↔
    ∃ j < tasks.countP (claimable env node_id), randomToken env (k + j) = none := by
  induction tasks generalizing k with
  | nil => simp [dispatchLoop]
  | cons task rest ih =>
    rw [dispatchLoop]
    by_cases hclaim : claimable env node_id task = true
    · rw [if_pos hclaim, List.countP_cons_of_pos hclaim]
      cases htoken : randomToken env k with
      | none => exact iff_of_true rfl ⟨0, by omega, htoken⟩
      | some token =>
        show (dispatchLoop env node_id (k + 1) rest).2.map _ = none ↔ _
        rw [Option.map_eq_none_iff, ih]
        constructor
        · rintro ⟨j, hj, hfails⟩
          refine ⟨j + 1, by omega, ?_⟩
          rwa [show k + (j + 1) = k + 1 + j by omega]
        · rintro ⟨j, hj, hfails⟩
          have hpos : j ≠ 0 := by
            rintro rfl
            rw [Nat.add_zero, htoken] at hfails
            cases hfails
          refine ⟨j - 1, by omega, ?_⟩
          rwa [show k + 1 + (j - 1) = k + j by omega]
    · rw [if_neg hclaim, List.countP_cons_of_neg hclaim]
      exact ih

/-- A loop that does not fail leases every claimable task. -/
theorem dispatchLoop_all {left dispatched : List Task}
    (h : dispatchLoop env node_id k tasks = (left, some dispatched)) :
    ∃ tokens : List String, tokens.length = tasks.countP (claimable env node_id) ∧
      (∀ (j : ℕ) (token : String), tokens[j]? = some token → randomToken env (k + j) = some token) ∧
      dispatched = List.zipWith (leased env) tokens (tasks.filter (claimable env node_id)) ∧
      left = leaseAll env node_id tokens tasks := by
  induction tasks generalizing k left dispatched with
  | nil =>
    rw [dispatchLoop] at h
    cases h
    refine ⟨[], rfl, ?_, rfl, rfl⟩
    intro j token hj
    rw [List.getElem?_nil] at hj
    cases hj
  | cons task rest ih =>
    rw [dispatchLoop] at h
    by_cases hclaim : claimable env node_id task = true
    · rw [if_pos hclaim] at h
      rw [List.countP_cons_of_pos hclaim, List.filter_cons_of_pos hclaim]
      cases htoken : randomToken env k with
      | none =>
        rw [htoken] at h
        cases h
      | some token =>
        rw [htoken] at h
        obtain ⟨hleft, hdispatched⟩ := Prod.mk.inj h
        obtain ⟨ds, hds, rfl⟩ := Option.map_eq_some_iff.mp hdispatched
        obtain ⟨tokens, hlength, hdrawn, rfl, hrest⟩ := ih (Prod.ext rfl hds)
        refine ⟨token :: tokens, by rw [List.length_cons, hlength], ?_, rfl, ?_⟩
        · -- The first token is drawn at `k`, and the others behind it.
          intro j token' hj
          cases j with
          | zero =>
            rw [List.getElem?_cons_zero, Option.some.injEq] at hj
            rw [← hj]
            exact htoken
          | succ j =>
            have hnext := hdrawn j token' (by simpa using hj)
            rwa [show k + 1 + j = k + (j + 1) by omega] at hnext
        · rw [leaseAll, if_pos hclaim, ← hleft]
          exact congrArg (leased env token task :: ·) hrest
    · rw [if_neg hclaim] at h
      rw [List.countP_cons_of_neg hclaim, List.filter_cons_of_neg hclaim]
      obtain ⟨hleft, hdispatched⟩ := Prod.mk.inj h
      obtain ⟨tokens, hlength, hdrawn, hzip, hrest⟩ := ih (Prod.ext rfl hdispatched)
      refine ⟨tokens, hlength, hdrawn, hzip, ?_⟩
      rw [leaseAll, if_neg hclaim, ← hleft]
      exact congrArg (task :: ·) hrest

/-- A poll that has changed a task when the random source fails for a later one. -/
structure HalfDispatched (st : State) (env : Env) (path node_id : String) (store : Store)
    (i : ℕ) (task : Task) (token : String) : Prop where
  polls : Polls st env path store node_id
  fails : ∃ j < store.tasks.countP (claimable env node_id), randomToken env j = none
  found : store.tasks[i]? = some task
  claims : claimable env node_id task = true
  drawn : ∀ j ≤ (store.tasks.take i).countP (claimable env node_id),
    (randomToken env j).isSome = true
  leases : randomToken env ((store.tasks.take i).countP (claimable env node_id)) = some token
  changes : leased env token task ≠ task

/-- A poll that fails in its loop. -/
theorem Polls.run_none (h : Polls st env path store node_id)
    (hloop : (dispatchLoop env node_id 0 store.tasks).2 = none) :
    agentTasks st env path store = (failure .internalServerError "secure_random_unavailable",
      { store with tasks := (dispatchLoop env node_id 0 store.tasks).1 }) := by
  unfold agentTasks
  rw [h.query]
  dsimp only
  rw [h.fresh, show dispatchLoop env node_id 0 store.tasks =
    ((dispatchLoop env node_id 0 store.tasks).1, none) from Prod.ext rfl hloop]
  rfl

/-- A loop that fails leaves the tasks as they are, or has changed one. -/
theorem Polls.half_iff (h : Polls st env path store node_id)
    (hloop : (dispatchLoop env node_id 0 store.tasks).2 = none) :
    (dispatchLoop env node_id 0 store.tasks).1 = store.tasks ↔
      ¬∃ i task token, HalfDispatched st env path node_id store i task token := by
  have hfails := dispatchLoop_none_iff.mp hloop
  simp only [Nat.zero_add] at hfails
  constructor
  · rintro hsame ⟨i, task, token, hhalf⟩
    have hdrawn : ∀ j ≤ (store.tasks.take i).countP (claimable env node_id),
        (randomToken env (0 + j)).isSome = true := by
      intro j hj
      rw [Nat.zero_add]
      exact hhalf.drawn j hj
    obtain ⟨token', htoken, hleased⟩ := dispatchLoop_reaches hhalf.found hhalf.claims hdrawn
    rw [Nat.zero_add, hhalf.leases, Option.some.injEq] at htoken
    rw [hsame, hhalf.found, Option.some.injEq, ← htoken] at hleased
    exact hhalf.changes hleased.symm
  · intro hnone
    refine List.ext_getElem? fun i => ?_
    cases hi : store.tasks[i]? with
    | none =>
      rw [List.getElem?_eq_none_iff] at hi ⊢
      rwa [dispatchLoop_length]
    | some task =>
      rcases dispatchLoop_getElem? env node_id 0 hi with hsame | ⟨hclaim, token, htoken, hleased⟩
      · exact hsame
      · rw [Nat.zero_add] at htoken
        rw [hleased, Option.some.injEq]
        by_contra hchanges
        refine hnone ⟨i, task, token, h, hfails, hi, hclaim, fun j hj => ?_, htoken, hchanges⟩
        -- The source has answered before, as the loop has come to the task.
        by_contra hstops
        have hstops : (randomToken env (0 + j)).isSome = false := by
          rw [Nat.zero_add]
          exact Bool.eq_false_iff.mpr hstops
        have hkept := dispatchLoop_stops hi hj hstops
        rw [hleased, Option.some.injEq] at hkept
        exact hchanges hkept

/-- A poll that finds no task. -/
theorem Polls.run_empty {left : List Task} (h : Polls st env path store node_id)
    (hloop : dispatchLoop env node_id 0 store.tasks = (left, some [])) :
    agentTasks st env path store = (⟨.ok, .tasks []⟩, { store with tasks := left }) := by
  unfold agentTasks
  rw [h.query]
  dsimp only
  rw [h.fresh, hloop]
  rfl

/-- A poll that does not fail in its loop dispatches everything, or changes nothing. -/
theorem Polls.whole {left dispatched : List Task} (h : Polls st env path store node_id)
    (hloop : dispatchLoop env node_id 0 store.tasks = (left, some dispatched)) :
    DispatchesWhole st env path store := by
  obtain ⟨tokens, hlength, hdrawn, hzip, hleft⟩ := dispatchLoop_all hloop
  simp only [Nat.zero_add] at hdrawn
  by_cases hsome : dispatched = []
  · have hrun := h.run_empty (hsome ▸ hloop)
    refine .inl ⟨node_id, h.query, ?_⟩
    rw [hrun]
    refine ⟨rfl, ⟨tokens, hlength, hdrawn, ?_, hleft⟩, fun hne => absurd rfl hne⟩
    rw [← hzip, hsome]
    rfl
  · have hrun := h.run hloop hsome
    rw [persistOrRollback] at hrun
    split_ifs at hrun with hpersist
    · refine .inl ⟨node_id, h.query, ?_⟩
      rw [hrun]
      exact ⟨rfl, ⟨tokens, hlength, hdrawn, hzip, hleft⟩, fun _ => hpersist⟩
    · have hstatus : Status.serviceUnavailable.isSuccess = false := by decide
      refine .inr ?_
      rw [hrun]
      exact ⟨hstatus, rfl, rfl⟩

/-- **A dispatch is all or nothing unless the random source fails behind a task that it has
changed.** -/
theorem dispatch_whole_iff (st : State) (env : Env) (path : String) (store : Store) :
    DispatchesWhole st env path store ↔
      ¬∃ node_id i task token, HalfDispatched st env path node_id store i task token := by
  by_cases hpolls : ∃ node_id, Polls st env path store node_id
  · obtain ⟨node_id, hpolls⟩ := hpolls
    have hnamed {node_id' : String} (h : Polls st env path store node_id') : node_id' = node_id :=
      Option.some.inj (h.query.symm.trans hpolls.query)
    cases hloop : (dispatchLoop env node_id 0 store.tasks).2 with
    | some dispatched =>
      refine iff_of_true (hpolls.whole (Prod.ext rfl hloop)) ?_
      rintro ⟨node_id', i, task, token, hhalf⟩
      obtain rfl := hnamed hhalf.polls
      have hfails : (dispatchLoop env node_id' 0 store.tasks).2 = none := by
        refine dispatchLoop_none_iff.mpr ?_
        simpa only [Nat.zero_add] using hhalf.fails
      rw [hloop] at hfails
      cases hfails
    | none =>
      -- The poll fails, and has changed the tasks before the one that gets no token.
      have hrun := hpolls.run_none hloop
      have hfailed : (agentTasks st env path store).1.status = .internalServerError := by
        rw [hrun]
        rfl
      have hhalf := hpolls.half_iff hloop
      constructor
      · rintro (⟨node_id', -, hall⟩ | ⟨-, htasks, -⟩)
        · have hanswers := hall.answers
          rw [hfailed] at hanswers
          cases hanswers
        · rw [hrun] at htasks
          rintro ⟨node_id', i, task, token, h⟩
          obtain rfl := hnamed h.polls
          exact hhalf.mp htasks ⟨i, task, token, h⟩
      · intro hnone
        refine .inr ⟨by rw [hfailed]; decide, ?_, by rw [hrun]⟩
        rw [hrun]
        refine hhalf.mpr fun hexists => hnone ?_
        obtain ⟨i, task, token, h⟩ := hexists
        exact ⟨node_id, i, task, token, h⟩
  · -- What is no poll of a fresh node is refused before the loop.
    have hstatus : Status.badRequest.isSuccess = false ∧ Status.forbidden.isSuccess = false := by
      decide
    refine iff_of_true (.inr ?_) ?_
    · unfold agentTasks
      cases hquery : queryField path "node_id" with
      | none => exact ⟨hstatus.1, rfl, rfl⟩
      | some node_id =>
        dsimp only
        rw [if_pos]
        · exact ⟨hstatus.2, rfl, rfl⟩
        · rw [Bool.not_eq_true']
          exact Bool.eq_false_iff.mpr fun hfresh => hpolls ⟨node_id, hquery, hfresh⟩
    · rintro ⟨node_id, i, task, token, h⟩
      exact hpolls ⟨node_id, h.polls⟩

end Dispatch

section Example

attribute [local instance] noKeys

/-- The source answers once, and the poll fails with the first of two tasks dispatched. -/
theorem failed_dispatch_changes :
    twiceQueuedStore.tasks.map Task.state = ["queued", "queued"] ∧
      (agentTasks exampleState (drawingEnv 7) "/v1/agent/tasks?node_id=n1"
        twiceQueuedStore).2.tasks.map Task.state = ["dispatched", "queued"] ∧
      ¬DispatchesWhole exampleState (drawingEnv 7) "/v1/agent/tasks?node_id=n1"
        twiceQueuedStore := by
  have hfacts : twiceQueuedStore.tasks.map Task.state = ["queued", "queued"] ∧
      (agentTasks exampleState (drawingEnv 7) "/v1/agent/tasks?node_id=n1"
        twiceQueuedStore).2.tasks.map Task.state = ["dispatched", "queued"] ∧
      (agentTasks exampleState (drawingEnv 7) "/v1/agent/tasks?node_id=n1"
        twiceQueuedStore).1.status ≠ .ok := by
    decide +kernel
  obtain ⟨hbefore, hafter, hstatus⟩ := hfacts
  refine ⟨hbefore, hafter, ?_⟩
  rintro (⟨node_id, -, hall⟩ | ⟨-, htasks, -⟩)
  · exact hstatus hall.answers
  · rw [htasks, hbefore] at hafter
    exact absurd hafter (by decide)

end Example

end NodeWe.ControlPlane
