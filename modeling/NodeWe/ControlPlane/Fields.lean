import NodeWe.ControlPlane.AuditChain

/-!
# What the fields of a record hold

The handlers check some fields and make up the others, so over every run each field stays within
what the snapshot can carry: identifiers without tabs, numbers within their types and limits, no
revoked node online. The readings of the clock are `u64` in the source, and `ClockFits` keeps them
far enough from its end that no deadline overflows.
-/

namespace NodeWe.ControlPlane

open Text InPlace Transition

/-! ## Identifiers -/

/-- A digit of a number is one of its base. -/
theorem mem_toDigits {b n : ℕ} (hb : 1 < b) {c : Char} (h : c ∈ Nat.toDigits b n) :
    ∃ d < b, c = d.digitChar := by
  induction n using Nat.strong_induction_on with
  | _ n ih =>
    rw [Nat.toDigits_eq_if hb] at h
    split_ifs at h with hn
    · exact ⟨n, hn, List.mem_singleton.mp h⟩
    · rcases List.mem_append.mp h with h | h
      · exact ih (n / b) (Nat.div_lt_self (by omega) hb) h
      · exact ⟨n % b, Nat.mod_lt _ (by omega), List.mem_singleton.mp h⟩

/-- The characters of an identifier are those of its prefix, separators, and digits. -/
theorem mem_newId {st : State} {env : Env} {pre : String} {site : Site} {c : Char}
    (h : c ∈ (newId st env pre site).toList) :
    c ∈ pre.toList ∨ c = '_' ∨ ∃ d < 16, c = d.digitChar := by
  have hhex {n : ℕ} (h : c ∈ (hex n).toList) : ∃ d < 16, c = d.digitChar := by
    rw [hex, String.toList_ofList] at h
    exact mem_toDigits (by norm_num) h
  simp only [newId, String.toList_append, List.mem_append] at h
  rcases h with (((((h | h) | h) | h) | h) | h) | h
  · exact .inl h
  · exact .inr (.inl (List.mem_singleton.mp h))
  · exact .inr (.inr (hhex h))
  · exact .inr (.inl (List.mem_singleton.mp h))
  · exact .inr (.inr (hhex h))
  · exact .inr (.inl (List.mem_singleton.mp h))
  · exact .inr (.inr (hhex h))

/-- An identifier that the process makes up is plain. -/
theorem plain_newId (st : State) (env : Env) {pre : String} (site : Site) (hpre : Plain pre) :
    Plain (newId st env pre site) := by
  intro c hc
  rcases mem_newId hc with hc | rfl | ⟨d, hd, rfl⟩
  · exact hpre c hc
  · decide
  · interval_cases d <;> decide

/-- A valid identifier is plain. -/
theorem plain_of_valid {id : String} (h : validNodeId id = true) : Plain id := by
  have hclean := clean_of_valid h
  rw [← hclean]
  exact plain_clean id

/-- An actor of an approval is plain. -/
theorem plain_of_validActor {actor : String} (h : validActorId actor = true) : Plain actor := by
  intro c hc
  simp only [validActorId, Bool.and_eq_true, List.all_eq_true] at h
  have hchar := h.2 c hc
  refine ⟨?_, ?_, ?_⟩ <;> rintro rfl <;> exact absurd hchar (by decide)

/-! ## Audit records, grants, and approvals -/

section Records

variable [Serde] [Ed25519] {st : State} {env : Env} {store new : Store} {arm : Arm}
  {response : Response}

omit [Serde] [Ed25519] in
/-- The approval gate appends records that the request makes up. -/
theorem approvalGate_mem_audit {req : TaskRequest} {approved : Store} {k : ℕ}
    (h : approvalGate st env store req = .ok (approved, k)) {item : Activity}
    (hitem : item ∈ approved.audit) :
    item ∈ store.audit ∨ ∃ k event node_id task_id actor,
      item = Activity.withActor st env k event node_id task_id actor := by
  unfold approvalGate at h
  repeat' split at h
  all_goals cases h
  · rcases List.mem_append.mp hitem with hitem | hitem
    · exact .inl hitem
    · exact .inr ⟨_, _, _, _, _, List.mem_singleton.mp hitem⟩
  · exact .inl hitem
  · exact .inl hitem

/-- An audit record was there before, or the request made it up. -/
theorem Effect.mem_audit (h : Effect st env store arm response new) {item : Activity}
    (hitem : item ∈ new.audit) :
    item ∈ store.audit ∨ ∃ k event node_id task_id actor,
      item = Activity.withActor st env k event node_id task_id actor := by
  have hsingle {audit : List Activity} {record : Activity} (h : item ∈ audit ++ [record]) :
      item ∈ audit ∨ item = record :=
    (List.mem_append.mp h).imp_right List.mem_singleton.mp
  cases h with
  | unchanged => exact .inl hitem
  | heartbeatAborted => exact .inl hitem
  | redemptionAborted => exact .inl hitem
  | dispatchAborted => exact .inl hitem
  | nodeRevoked id actor node hfound =>
    rcases List.mem_append.mp hitem with hitem | hitem
    · exact .inl hitem
    · rcases List.mem_cons.mp hitem with hitem | hitem
      · exact .inr ⟨_, _, _, _, _, hitem⟩
      · obtain ⟨k, hk, hitem⟩ := List.mem_mapIdx.mp hitem
        exact .inr ⟨_, _, _, _, _, hitem.symm⟩
  | taskCreated body actor req approved k h happroved =>
    rcases List.mem_append.mp hitem with hitem | hitem
    · exact approvalGate_mem_audit happroved hitem
    · rcases List.mem_pair.mp hitem with hitem | hitem
      · exact .inr ⟨_, _, _, _, _, hitem⟩
      · exact .inr ⟨_, _, _, _, _, hitem⟩
  | _ => exact (hsingle hitem).imp_right fun h => ⟨_, _, _, _, _, h⟩

/-- What stays of a grant. -/
structure SameGrant (grant grant' : Grant) : Prop where
  code : grant'.code = grant.code
  signature : grant'.signature = grant.signature
  expires_at : grant'.expires_at = grant.expires_at

/-- A grant that is issued. -/
structure IssuesGrant (st : State) (env : Env) (grant : Grant) : Prop where
  drawn : randomToken env 0 = some grant.code
  signed : signGrant env grant.code grant.expires_at st.grant_secret = some grant.signature
  expires_at : grant.expires_at = env.now .expiresAt + 300000
  unused : grant.used = false
  unrevoked : grant.revoked = false

/-- A grant was there before, up to its marks, or the request issued it. -/
theorem Effect.mem_grants (h : Effect st env store arm response new) {grant : Grant}
    (hgrant : grant ∈ new.grants) :
    (∃ old ∈ store.grants, SameGrant old grant) ∨ IssuesGrant st env grant := by
  have hold (h : grant ∈ store.grants) : ∃ old ∈ store.grants, SameGrant old grant :=
    ⟨grant, h, rfl, rfl, rfl⟩
  have hmarked {p : Grant → Bool} {old marked : Grant} (h : grant ∈ setFirst p marked store.grants)
      (hfound : store.grants.find? p = some old) (hsame : SameGrant old marked) :
      ∃ old ∈ store.grants, SameGrant old grant := by
    rcases mem_setFirst h with rfl | h
    · exact ⟨old, List.mem_of_find?_eq_some hfound, hsame⟩
    · exact hold h
  cases h with
  | grantCreated actor code signature hdrawn hsigned =>
    rcases List.mem_append.mp hgrant with hgrant | hgrant
    · exact .inl (hold hgrant)
    · rw [List.mem_singleton.mp hgrant]
      exact .inr ⟨hdrawn, hsigned, rfl, rfl, rfl⟩
  | grantRevoked path actor old hfound => exact .inl (hmarked hgrant hfound ⟨rfl, rfl, rfl⟩)
  | grantRedeemed body old node h hfound => exact .inl (hmarked hgrant hfound ⟨rfl, rfl, rfl⟩)
  | redemptionAborted body old hid hnew hfound => exact .inl (hmarked hgrant hfound ⟨rfl, rfl, rfl⟩)
  | taskCreated body actor req approved k h happroved =>
    have hframe := (approvalGate_frame happroved).grants
    exact .inl (hold (hframe ▸ hgrant))
  | _ => exact .inl (hold hgrant)

/-- What stays of an approval. -/
structure SameApproval (approval approval' : Approval) : Prop where
  id : approval'.id = approval.id
  node_id : approval'.node_id = approval.node_id
  ability : approval'.ability = approval.ability
  program : approval'.program = approval.program
  argument : approval'.argument = approval.argument
  actor : approval'.actor = approval.actor
  expires_at : approval'.expires_at = approval.expires_at

omit [Serde] [Ed25519] in
/-- The approval gate marks approvals and makes none. -/
theorem approvalGate_mem_approvals {req : TaskRequest} {approved : Store} {k : ℕ}
    (h : approvalGate st env store req = .ok (approved, k)) {approval : Approval}
    (happroval : approval ∈ approved.approvals) :
    ∃ old ∈ store.approvals, SameApproval old approval := by
  have hold (h : approval ∈ store.approvals) : ∃ old ∈ store.approvals, SameApproval old approval :=
    ⟨approval, h, rfl, rfl, rfl, rfl, rfl, rfl, rfl⟩
  unfold approvalGate at h
  repeat' split at h
  all_goals cases h
  · next old hfound =>
    rcases mem_setFirst happroval with rfl | happroval
    · exact ⟨old, List.mem_of_find?_eq_some hfound, rfl, rfl, rfl, rfl, rfl, rfl, rfl⟩
    · exact hold happroval
  · exact hold happroval
  · exact hold happroval

/-- An approval was there before, up to its mark, or the request recorded it. -/
theorem Effect.mem_approvals (h : Effect st env store arm response new) {approval : Approval}
    (happroval : approval ∈ new.approvals) :
    (∃ old ∈ store.approvals, SameApproval old approval) ∨
      ∃ body actor, arm = .createApproval body actor ∧ Approves st env body actor approval := by
  have hold (h : approval ∈ store.approvals) : ∃ old ∈ store.approvals, SameApproval old approval :=
    ⟨approval, h, rfl, rfl, rfl, rfl, rfl, rfl, rfl⟩
  cases h with
  | approvalCreated body actor new h =>
    rcases List.mem_append.mp happroval with happroval | happroval
    · exact .inl (hold happroval)
    · rw [List.mem_singleton.mp happroval]
      exact .inr ⟨body, actor, rfl, h⟩
  | taskCreated body actor req approved k h happroved =>
    exact .inl (approvalGate_mem_approvals happroved happroval)
  | _ => exact .inl (hold happroval)

end Records

/-! ## The fields -/

/-- The clock is far from the end of its type. -/
def Env.ClockFits (env : Env) : Prop := ∀ site, env.now site + 305000 ≤ u64Max

/-- The fields of a node. -/
structure NodeFits (node : Node) : Prop where
  credential : Plain node.credential
  abilities : Plain node.abilities
  offline : node.revoked = true → node.online = false
  last_seen : node.last_seen ≤ u64Max

/-- The fields of a task. -/
structure TaskFits (task : Task) : Prop where
  id : Plain task.id
  ability : Plain task.ability
  output_sha256 : Plain task.output_sha256
  request_id : validNodeId task.request_id = true
  timeout_ms : 0 < task.timeout_ms ∧ task.timeout_ms ≤ maxTaskTimeoutMs
  output_limit : 0 < task.output_limit ∧ task.output_limit ≤ maxTaskOutputLimit
  lease_until : task.lease_until ≤ u64Max
  exit_code : ∀ code ∈ task.exit_code, -2^31 ≤ code ∧ code < 2^31

/-- The fields of a grant. -/
structure GrantFits (grant : Grant) : Prop where
  code : Plain grant.code
  signature : Plain grant.signature
  expires_at : grant.expires_at ≤ u64Max

/-- The fields of an approval. -/
structure ApprovalFits (approval : Approval) : Prop where
  id : Plain approval.id
  node_id : Plain approval.node_id
  ability : Plain approval.ability
  actor : Plain approval.actor
  expires_at : approval.expires_at ≤ u64Max

/-- The fields of every record of a store. -/
structure StoreFits (store : Store) : Prop where
  nodes : ∀ node ∈ store.nodes, NodeFits node
  tasks : ∀ task ∈ store.tasks, TaskFits task
  audit : TimesFit store.audit
  grants : ∀ grant ∈ store.grants, GrantFits grant
  approvals : ∀ approval ∈ store.approvals, ApprovalFits approval

/-- The empty store fits. -/
theorem storeFits_empty : StoreFits Store.empty :=
  ⟨List.forall_mem_nil _, List.forall_mem_nil _, List.forall_mem_nil _, List.forall_mem_nil _,
    List.forall_mem_nil _⟩

/-- A token is plain. -/
theorem plain_randomToken {env : Env} {k : ℕ} {token : String} (h : randomToken env k = some token) :
    Plain token := by
  obtain ⟨v, -, rfl⟩ := Option.map_eq_some_iff.mp h
  exact plain_hexEncodeBytes _

/-- A signature is in hexadecimal. -/
theorem signGrant_hex [Ed25519] {env : Env} {code secret signature : String} {expires_at : ℕ}
    (h : signGrant env code expires_at secret = some signature) :
    ∃ bs, signature = hexEncodeBytes bs := by
  unfold signGrant at h
  split at h
  · cases h
  · obtain ⟨signed, -, rfl⟩ := Option.map_eq_some_iff.mp h
    exact ⟨_, rfl⟩
  · split at h
    · exact ⟨_, (Option.some.inj h).symm⟩
    · cases h

/-- So it is plain. -/
theorem plain_signGrant [Ed25519] {env : Env} {code secret signature : String} {expires_at : ℕ}
    (h : signGrant env code expires_at secret = some signature) : Plain signature := by
  obtain ⟨bs, rfl⟩ := signGrant_hex h
  exact plain_hexEncodeBytes bs

/-! ## Every handler -/

section Handlers

variable [Serde] {st : State} {env : Env} {arm : Arm}

omit [Serde] in
/-- Plain texts joined by commas are plain. -/
theorem plain_intercalate {items : List String} (h : ∀ item ∈ items, Plain item) :
    Plain (",".intercalate items) := by
  induction items with
  | nil => exact plain_of_decide (by decide)
  | cons item rest ih =>
    rw [List.forall_mem_cons] at h
    by_cases hne : rest = []
    · rw [hne, String.intercalate_singleton]
      exact h.1
    · have hrest := ih h.2
      rw [String.intercalate_cons_of_ne_nil hne]
      intro c hc
      simp only [String.toList_append, List.mem_append] at hc
      rcases hc with (hc | hc) | hc
      · exact h.1 c hc
      · rw [List.mem_singleton.mp hc]
        decide
      · exact hrest c hc

/-- A comma list of distinct supported abilities. -/
def AbilityList (abilities : String) : Prop :=
  ∃ items : List String, items ≠ [] ∧ items.Nodup ∧ (∀ item ∈ items, item ∈ supportedAbilities) ∧
    abilities = ",".intercalate items

omit [Serde] in
/-- A comma list of supported abilities is plain. -/
theorem AbilityList.plain {abilities : String} (h : AbilityList abilities) : Plain abilities := by
  obtain ⟨items, -, -, hitems, rfl⟩ := h
  have hsupported : ∀ ability ∈ supportedAbilities, Plain ability := by
    simp only [supportedAbilities, List.forall_mem_cons]
    refine ⟨plain_of_decide ?_, plain_of_decide ?_, plain_of_decide ?_, plain_of_decide ?_, by simp⟩
    all_goals decide
  exact plain_intercalate fun item hitem => hsupported item (hitems item hitem)

omit [Serde] in
/-- A fold that drops what it has already keeps a list without duplicates, of the items. -/
theorem nodup_foldl_distinct (items acc : List String) (hacc : acc.Nodup) :
    (items.foldl (fun acc a => if acc.contains a then acc else acc ++ [a]) acc).Nodup ∧
      ∀ a ∈ items.foldl (fun acc a => if acc.contains a then acc else acc ++ [a]) acc,
        a ∈ acc ∨ a ∈ items := by
  induction items generalizing acc with
  | nil => exact ⟨hacc, fun a ha => .inl ha⟩
  | cons item items ih =>
    rw [List.foldl_cons]
    split_ifs with hseen
    · obtain ⟨hnodup, hmem⟩ := ih acc hacc
      exact ⟨hnodup, fun a ha => (hmem a ha).imp_right (List.mem_cons_of_mem _)⟩
    · rw [List.contains_iff_mem] at hseen
      have hmore : (acc ++ [item]).Nodup :=
        hacc.append (List.nodup_singleton _) (List.disjoint_singleton.mpr hseen)
      obtain ⟨hnodup, hmem⟩ := ih _ hmore
      refine ⟨hnodup, fun a ha => ?_⟩
      rcases hmem a ha with hin | hin
      · rcases List.mem_append.mp hin with hin | hin
        · exact .inl hin
        · exact .inr (List.mem_singleton.mp hin ▸ List.mem_cons_self)
      · exact .inr (List.mem_cons_of_mem _ hin)

omit [Serde] in
/-- The abilities that a heartbeat negotiates are distinct and supported. -/
theorem abilityList_of_normalizeAbilities {abilities normalized : String}
    (h : normalizeAbilities abilities = some normalized) : AbilityList normalized := by
  unfold normalizeAbilities at h
  dsimp only at h
  split_ifs at h with hall hempty
  rw [← Option.some.inj h]
  obtain ⟨hnodup, hmem⟩ := nodup_foldl_distinct _ _ List.nodup_nil
  refine ⟨_, hempty, hnodup, fun a ha => ?_, rfl⟩
  rcases hmem a ha with hnil | hitem
  · exact absurd hnil List.not_mem_nil
  · simpa using List.all_eq_true.mp hall a hitem

omit [Serde] in
/-- A node starts with all abilities. -/
theorem abilityList_default : AbilityList defaultAbilities :=
  ⟨supportedAbilities, by decide, by decide, fun _ => id, by decide⟩

/-- A step keeps the fields of a node. -/
theorem NodeStep.fits {node node' : Node} (h : NodeStep env arm node node')
    (hclock : env.ClockFits) (hnode : NodeFits node) : NodeFits node' := by
  have hseen : env.now .lastSeen ≤ u64Max := by
    have := hclock .lastSeen
    omega
  cases h with
  | same => exact hnode
  | revoked => exact ⟨hnode.credential, hnode.abilities, fun _ => rfl, hnode.last_seen⟩
  | rotated id actor node credential hid hlive hdrawn =>
    exact ⟨plain_randomToken hdrawn, hnode.abilities, hnode.offline, hnode.last_seen⟩
  | beaten body abilities node hid hlive habilities =>
    refine ⟨hnode.credential, ?_, fun hrevoked => ?_, hseen⟩
    · cases abilities with
      | none => exact hnode.abilities
      | some negotiated =>
        obtain ⟨raw, -, hnormalized⟩ := Option.map_eq_some_iff.mp habilities
        exact (abilityList_of_normalizeAbilities hnormalized).plain
    · exact absurd (hlive.symm.trans hrevoked) Bool.false_ne_true
  | marked body node hid hlive =>
    exact ⟨hnode.credential, hnode.abilities,
      fun hrevoked => absurd (hlive.symm.trans hrevoked) Bool.false_ne_true, hseen⟩

/-- A node that is enrolled fits. -/
theorem Enrols.fits {body : String} {store : Store} {node : Node} (h : Enrols env body store node)
    (hclock : env.ClockFits) : NodeFits node := by
  have hseen : env.now .lastSeen ≤ u64Max := by
    have := hclock .lastSeen
    omega
  have hcredential := plain_randomToken h.drawn
  have habilities : Plain defaultAbilities := abilityList_default.plain
  rw [h.made] at hcredential ⊢
  exact ⟨hcredential, habilities, fun hrevoked => absurd hrevoked Bool.false_ne_true, hseen⟩

omit [Serde] in
/-- A signed number that parses fits. -/
theorem parseI32_range {s : List Char} {code : ℤ} (h : parseI32 s = some code) :
    -2^31 ≤ code ∧ code < 2^31 := by
  unfold parseI32 at h
  split at h
  · obtain ⟨n, hn, rfl⟩ := Option.map_eq_some_iff.mp h
    obtain ⟨m, hm, hmn⟩ := Option.bind_eq_some_iff.mp hn
    have hle := (Option.filter_eq_some_iff.mp hm).2
    rw [decide_eq_true_eq] at hle
    rw [← Option.some.inj hmn]
    omega
  · obtain ⟨n, hn, rfl⟩ := Option.map_eq_some_iff.mp h
    obtain ⟨m, hm, hmn⟩ := Option.bind_eq_some_iff.mp hn
    have hle := (Option.filter_eq_some_iff.mp hm).2
    rw [decide_eq_true_eq] at hle
    rw [← Option.some.inj hmn]
    omega

/-- What an upload leaves in a task is plain and in range. -/
theorem parseResultUpload_fits {path body : String} {upload : ResultUpload}
    (h : parseResultUpload path body = .ok upload) :
    Plain upload.output_sha256 ∧ ∀ code ∈ upload.exit_code, -2^31 ≤ code ∧ code < 2^31 := by
  unfold parseResultUpload at h
  dsimp only at h
  split_ifs at h
  rw [← Except.ok.inj h]
  refine ⟨plain_hexEncodeBytes _, fun code hcode => ?_⟩
  obtain ⟨value, -, hvalue⟩ := Option.bind_eq_some_iff.mp hcode
  exact parseI32_range hvalue

/-- A step keeps the fields of a task. -/
theorem TaskStep.fits {task task' : Task} (h : TaskStep env arm task task')
    (hclock : env.ClockFits) (htask : TaskFits task) : TaskFits task' := by
  cases h with
  | same => exact htask
  | cancelled | revoked => exact { htask with lease_until := Nat.zero_le _ }
  | leased path node_id k token task hquery hclaim htoken =>
    have hnow := hclock (.lease task.id)
    have htimeout := htask.timeout_ms.2
    refine { htask with lease_until := ?_ }
    show env.now (.lease task.id) + max task.timeout_ms defaultTaskTimeoutMs + 5000 ≤ u64Max
    unfold maxTaskTimeoutMs at htimeout
    unfold defaultTaskTimeoutMs
    omega
  | completed path body upload task hparsed htarget haccepted =>
    have hupload := parseResultUpload_fits hparsed
    exact { htask with output_sha256 := hupload.1, exit_code := hupload.2 }

/-- What a task request has passed. -/
structure RequestFits (req : TaskRequest) : Prop where
  request_id : validNodeId req.request_id = true
  timeout_ms : 0 < req.timeout_ms ∧ req.timeout_ms ≤ maxTaskTimeoutMs
  output_limit : 0 < req.output_limit ∧ req.output_limit ≤ maxTaskOutputLimit

/-- A request that is read has passed its checks. -/
theorem parseTaskRequest_fits {body : String} {actor : Option String} {req : TaskRequest}
    (h : parseTaskRequest st env body actor = .ok req) : RequestFits req := by
  unfold parseTaskRequest at h
  dsimp only at h
  repeat' split at h
  all_goals try cases h
  next output_limit hlimit hrequest hactor htimeout =>
    have hrange := (Option.filter_eq_some_iff.mp hlimit).2
    simp only [Bool.or_eq_true, decide_eq_true_eq, not_or] at htimeout
    simp only [Bool.not_eq_true', Bool.not_eq_false] at hrequest
    exact ⟨hrequest, ⟨Nat.pos_of_ne_zero htimeout.1, not_lt.mp htimeout.2⟩,
      of_decide_eq_true hrange⟩

omit [Serde] in
/-- A request that the policy lets through asks for a known ability. -/
theorem plain_of_allowed {store : Store} {req : TaskRequest}
    (h : refusedByPolicy st env store req = none) : Plain req.ability := by
  unfold refusedByPolicy at h
  split_ifs at h with hfresh hknown
  simp only [Bool.not_eq_true', Bool.not_eq_false, List.contains_iff_mem, List.mem_cons,
    List.not_mem_nil, or_false] at hknown
  rcases hknown with h | h | h | h <;> rw [h] <;> exact plain_of_decide (by decide)

/-- A task that is created fits. -/
theorem Accepts.fits {body : String} {actor : Option String} {store : Store} {req : TaskRequest}
    (h : Accepts st env body actor store req) : TaskFits (queuedTask st env req) := by
  have hreq := parseTaskRequest_fits h.parsed
  have hid : Plain (newId st env "task" .taskId) :=
    plain_newId st env .taskId (plain_of_decide (by decide))
  have hempty : Plain "" := plain_of_decide (by decide)
  exact ⟨hid, plain_of_allowed h.allowed, hempty, hreq.request_id, hreq.timeout_ms,
    hreq.output_limit, Nat.zero_le _, fun _ hcode => nomatch hcode⟩

variable [Ed25519] {store new : Store} {response : Response}

/-- An effect keeps the fields within their bounds. -/
theorem Effect.storeFits (h : Effect st env store arm response new) (hclock : env.ClockFits)
    (hstore : StoreFits store) : StoreFits new where
  nodes := by
    intro node' hnode'
    rcases h.mem_nodes hnode' with ⟨node, hnode, hstep⟩ | ⟨body, -, henrols⟩
    · exact hstep.fits hclock (hstore.nodes node hnode)
    · exact henrols.fits hclock
  tasks := by
    intro task' htask'
    rcases h.mem_tasks htask' with ⟨task, htask, hstep⟩ | ⟨body, actor, req, -, haccepts, rfl⟩
    · exact hstep.fits hclock (hstore.tasks task htask)
    · exact haccepts.fits
  audit := by
    intro item hitem
    rcases h.mem_audit hitem with hold | ⟨k, event, node_id, task_id, actor, rfl⟩
    · exact hstore.audit item hold
    · have hnow := hclock (.timestamp k)
      show env.now (.timestamp k) ≤ u64Max
      omega
  grants := by
    intro grant hgrant
    rcases h.mem_grants hgrant with ⟨old, hold, hsame⟩ | hissued
    · have hfits := hstore.grants old hold
      exact ⟨hsame.code ▸ hfits.code, hsame.signature ▸ hfits.signature,
        hsame.expires_at ▸ hfits.expires_at⟩
    · have hnow := hclock .expiresAt
      exact ⟨plain_randomToken hissued.drawn, plain_signGrant hissued.signed, by
        rw [hissued.expires_at]
        omega⟩
  approvals := by
    intro approval happroval
    rcases h.mem_approvals happroval with ⟨old, hold, hsame⟩ | ⟨body, actor, -, happroves⟩
    · have hfits := hstore.approvals old hold
      exact ⟨hsame.id ▸ hfits.id, hsame.node_id ▸ hfits.node_id, hsame.ability ▸ hfits.ability,
        hsame.actor ▸ hfits.actor, hsame.expires_at ▸ hfits.expires_at⟩
    · have hnow := hclock .expiresAt
      refine ⟨?_, plain_of_valid happroves.valid_node, ?_, plain_of_validActor happroves.valid_actor,
        ?_⟩
      · rw [happroves.id]
        exact plain_newId st env _ (plain_of_decide (by decide))
      · rw [happroves.ability.2]
        exact plain_of_decide (by decide)
      · rw [happroves.expires_at]
        omega

end Handlers

/-! ## Every run -/

/-- The surroundings of an event. -/
def Event.env : Event → Env
  | handled _ env _ _ => env
  | reloaded env => env

/-- The clock fits throughout a run. -/
def InTime (events : List Event) : Prop := ∀ event ∈ events, event.env.ClockFits

section Runs

variable [Serde] [Rfc8259] {store store' : Store}

/-- A store that is read back fits. -/
theorem StoreFits.reloaded (h : StoreFits store) (env : Env) :
    StoreFits (reloadedStore env store) where
  nodes := by
    intro node' hnode'
    obtain ⟨node, hnode, rfl⟩ := List.mem_map.mp hnode'
    have hfits := h.nodes node hnode
    refine ⟨plain_clean _, plain_clean _, fun hrevoked => ?_, ?_⟩
    · have hrevoked : node.revoked = true := hrevoked
      simp [reloadedNode, hrevoked]
    · simp only [reloadedNode, if_pos hfits.last_seen]
      exact hfits.last_seen
  tasks := by
    intro task' htask'
    obtain ⟨task, htask, rfl⟩ := List.mem_map.mp htask'
    have hfits := h.tasks task htask
    refine ⟨plain_clean _, plain_clean _, plain_clean _, hfits.request_id, ?_, ?_, ?_, ?_⟩
    · simp only [reloadedTask, reloadedLimit, if_pos hfits.timeout_ms]
      exact hfits.timeout_ms
    · simp only [reloadedTask, reloadedLimit, if_pos hfits.output_limit]
      exact hfits.output_limit
    · simp only [reloadedTask, if_pos hfits.lease_until]
      exact hfits.lease_until
    · intro code hcode
      exact hfits.exit_code code (Option.filter_eq_some_iff.mp hcode).1
  audit := by
    rw [reloadedStore_audit env h.audit]
    exact h.audit.sealed "GENESIS"
  grants := by
    intro grant' hgrant'
    obtain ⟨grant, hgrant, hread⟩ := List.mem_filterMap.mp hgrant'
    unfold reloadedGrant at hread
    split_ifs at hread with htime
    rw [← Option.some.inj hread]
    exact ⟨plain_clean _, plain_clean _, htime⟩
  approvals := by
    intro approval' happroval'
    obtain ⟨approval, happroval, hread⟩ := List.mem_filterMap.mp happroval'
    unfold reloadedApproval at hread
    split_ifs at hread with htime
    rw [← Option.some.inj hread]
    exact ⟨plain_clean _, plain_clean _, plain_clean _, plain_clean _, htime⟩

/-- A step of a run keeps the fields within their bounds. -/
theorem Happens.storeFits [Ed25519] {event : Event} (h : Happens store event store')
    (hclock : event.env.ClockFits) (hstore : StoreFits store) : StoreFits store' := by
  cases h with
  | handled _ _ _ h =>
    cases h with
    | handled st env arm => exact (arm.run_effect st env store).storeFits hclock hstore
  | reloaded env _ _ h =>
    rw [eq_reloadedStore h]
    exact hstore.reloaded env

/-- Every run keeps the fields within their bounds. -/
theorem StoreFits.of_run [Ed25519] {events : List Event}
    (hrun : Run Happens Store.empty events store) (htime : InTime events) : StoreFits store :=
  hrun.invariant_where storeFits_empty (fun _ _ _ hclock hs hstep => hstep.storeFits hclock hs)
    htime

/-! ## Requests one after the other -/

/-- The events of requests that a process handles one after the other, and the store after them. -/
def handleAll [Ed25519] (st : State) : List (Env × Arm) → Store → List Event × Store
  | [], store => ([], store)
  | (env, arm) :: rest, store =>
    let later := handleAll st rest (arm.run st env store).2
    (.handled st env arm (arm.run st env store).1 :: later.1, later.2)

omit [Rfc8259] in
/-- They are a run. -/
theorem run_handleAll [Ed25519] (st : State) (calls : List (Env × Arm)) (store : Store) :
    Run Happens store (handleAll st calls store).1 (handleAll st calls store).2 := by
  induction calls generalizing store with
  | nil => exact .start
  | cons call rest ih =>
    exact (Run.single (.handled _ _ _ (.handled st call.1 call.2 store))).trans (ih _)

omit [Rfc8259] in
/-- Their clocks are those of the run. -/
theorem inTime_handleAll [Ed25519] {st : State} {calls : List (Env × Arm)} {store : Store}
    (h : ∀ call ∈ calls, call.1.ClockFits) : InTime (handleAll st calls store).1 := by
  induction calls generalizing store with
  | nil => exact List.forall_mem_nil _
  | cons call rest ih =>
    obtain ⟨hcall, hrest⟩ := List.forall_mem_cons.mp h
    exact List.forall_mem_cons.mpr ⟨hcall, ih hrest⟩

end Runs

end NodeWe.ControlPlane
