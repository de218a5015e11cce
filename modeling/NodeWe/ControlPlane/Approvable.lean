import NodeWe.ControlPlane.Approvals
import NodeWe.ControlPlane.Outcome

/-!
# Which tasks can be approved

`create_task` asks for an approval of every ability that the policy lists, and of any actor that is a
valid identifier. `create_approval` records approvals of `task.exec` only, and of an actor of another
alphabet. A task whose ability or actor is not among these is answered that it needs an approval,
which nobody can give.
-/

namespace NodeWe.ControlPlane

open Text InPlace Transition

/-- The answer to a task that needs an approval and names none. -/
def approvalRequired : Response := failure .preconditionRequired "approval_required"

/-- Surroundings in which the random source and the backend work and every reading of the clock is
the same. -/
def Env.instant (env : Env) (t : ℕ) : Env := { env.working with now := fun _ => t }

/-! ## Bodies -/

/-- The body that asks for an approval of what a request asks for. -/
def approvalValue (req : TaskRequest) : Value := .object
  [("node_id", .string req.node_id), ("ability", .string req.ability),
    ("program", .string req.program), ("argument", .string req.argument),
    ("actor", .string req.actor)]

/-- The body that makes a request again with an approval. -/
def taskRequestValue (req : TaskRequest) (approval_id : String) : Value := .object
  [("node_id", .string req.node_id), ("request_id", .string req.request_id),
    ("actor", .string req.actor), ("ability", .string req.ability),
    ("idempotency_key", .string req.idempotency_key), ("program", .string req.program),
    ("argument", .string req.argument), ("approval_id", .string approval_id),
    ("timeout_ms", .number (.posInt req.timeout_ms)),
    ("output_limit", .number (.posInt req.output_limit)), ("approved", .bool req.approved)]

/-- The first body is within the limits of the parser. -/
theorem bounded_approvalValue (req : TaskRequest) : (approvalValue req).Bounded := by
  refine Value.bounded_object (by simp) ?_
  simp only [List.forall_mem_cons, List.not_mem_nil, false_imp_iff, implies_true, and_true]
  exact ⟨⟨.string _, rfl⟩, ⟨.string _, rfl⟩, ⟨.string _, rfl⟩, ⟨.string _, rfl⟩, ⟨.string _, rfl⟩⟩

/-- The second body is, where the request fits. -/
theorem bounded_taskRequestValue {req : TaskRequest} (h : RequestFits req) (approval_id : String) :
    (taskRequestValue req approval_id).Bounded := by
  have hnumber {n : ℕ} (hn : n ≤ u64Max) : (Value.number (.posInt n)).Whole := by
    have hwhole := Value.whole_ofNat hn
    rwa [Number.ofNat, if_pos hn] at hwhole
  have htimeout := hnumber (h.timeout_ms.2.trans (by decide))
  have hlimit := hnumber (h.output_limit.2.trans (by decide))
  refine Value.bounded_object (by simp) ?_
  simp only [List.forall_mem_cons, List.not_mem_nil, false_imp_iff, implies_true, and_true]
  exact ⟨⟨.string _, rfl⟩, ⟨.string _, rfl⟩, ⟨.string _, rfl⟩, ⟨.string _, rfl⟩, ⟨.string _, rfl⟩,
    ⟨.string _, rfl⟩, ⟨.string _, rfl⟩, ⟨.string _, rfl⟩, ⟨htimeout, rfl⟩, ⟨hlimit, rfl⟩,
    ⟨.bool _, rfl⟩⟩

section Reading

variable [Serde] [Rfc8259]

/-- The text of an object is read as an object that has the same keys. -/
theorem parseJsonObject_text {members : List (String × Value)}
    (h : (Value.object members).Bounded) :
    ∃ read, parseJsonObject (Value.object members).text = some (.object read) ∧
      ∀ key, (Value.object read).get key =
        ((Value.object members).get key).map (Value.arrange Rfc8259.order) :=
  parseJsonObject_denotes h.whole.fits.denotes_text h

omit [Rfc8259] in
/-- An actor that a request names and that may act is who acts. -/
theorem resolveActor_again {body actor : String} (body' : String) {authenticated : Option String}
    (h : resolveActor body authenticated = some actor)
    (hfield : jsonField body' "actor" = some actor) :
    resolveActor body' authenticated = some actor := by
  unfold resolveActor
  cases authenticated with
  | none => rw [hfield]
  | some a =>
    obtain rfl : actor = a := resolveActor_some h
    rw [hfield]
    exact if_neg (fun hne => hne rfl)

variable {st : State} {env : Env} {body : String} {authenticated : Option String}
  {store : Store} {req : TaskRequest}

omit [Rfc8259] in
/-- Who a request that was read acts for, and the checks of the actor. -/
theorem parseTaskRequest_resolved (h : parseTaskRequest st env body authenticated = .ok req) :
    resolveActor body authenticated = some req.actor ∧ validNodeId req.actor = true := by
  unfold parseTaskRequest at h
  dsimp only at h
  split at h
  · cases h
  · split at h
    · cases h
    · next actor hresolved =>
      repeat' split at h
      all_goals try cases h
      next hactor hrange =>
        simp only [Bool.not_eq_true', Bool.not_eq_false] at hactor
        exact ⟨hresolved, hactor⟩

/-- A request that was read is read again with an approval. -/
theorem parseTaskRequest_value (env' : Env) (approval_id : String)
    (h : parseTaskRequest st env body authenticated = .ok req) :
    parseTaskRequest st env' (taskRequestValue req approval_id).text authenticated =
      .ok { req with approval_id := some approval_id } := by
  obtain ⟨hresolved, hactor⟩ := parseTaskRequest_resolved h
  have hfits := parseTaskRequest_fits h
  obtain ⟨read, hobject, hget⟩ := parseJsonObject_text (bounded_taskRequestValue hfits approval_id)
  have hread : parseJsonObject (taskRequestValue req approval_id).text = some (.object read) :=
    hobject
  have hresolved' := resolveActor_again (taskRequestValue req approval_id).text hresolved
    (by rw [jsonField, hread, Option.bind_some, hget]; rfl)
  unfold parseTaskRequest jsonNumberOr
  simp only [jsonTypesValid, jsonField, jsonNumber, jsonKeyPresent, jsonTrue, hread, hresolved']
  simp only [Option.bind_some, Option.map_some, hget]
  simp [Value.get, Value.arrange, Value.asStr, Value.asU64, Value.asBool, Value.isString,
    Value.isU64, Value.isBoolean, hactor, hfits.request_id]
  have hlimit : (some req.output_limit).filter (fun value =>
      decide (0 < value) && decide (value ≤ maxTaskOutputLimit)) = some req.output_limit :=
    Option.filter_some_pos (by simp [hfits.output_limit])
  have htimeout : ¬(req.timeout_ms = 0 ∨ maxTaskTimeoutMs < req.timeout_ms) := by
    have hrange := hfits.timeout_ms
    omega
  rw [hlimit]
  exact if_neg htimeout

/-! ## Giving the approval -/

/-- The approval that such a request records. -/
def givenApproval (st : State) (env : Env) (req : TaskRequest) : Approval :=
  ⟨newId st env "approval" .approvalId, req.node_id, req.ability, req.program, req.argument,
    req.actor, env.now .expiresAt + 300000, false⟩

/-- An approval of a command is given, for an actor that approvals know. -/
theorem createApprovalAs_value (store : Store) (t : ℕ)
    (h : parseTaskRequest st env body authenticated = .ok req)
    (hability : req.ability = "task.exec") (hnode : validNodeId req.node_id = true)
    (hactor : validActorId req.actor = true) :
    createApprovalAs st (env.instant t) (approvalValue req).text authenticated store =
      (⟨.created, .approval (givenApproval st (env.instant t) req)⟩,
        { store with
          audit := store.audit ++ [Activity.withActor st (env.instant t) 0 "approval.created"
            (some req.node_id) (some (givenApproval st (env.instant t) req).id)
            (some (auditActor authenticated))]
          approvals := store.approvals ++ [givenApproval st (env.instant t) req] }) := by
  obtain ⟨read, hobject, hget⟩ := parseJsonObject_text (bounded_approvalValue req)
  have hread : parseJsonObject (approvalValue req).text = some (.object read) := hobject
  have hresolved := resolveActor_again (approvalValue req).text (parseTaskRequest_resolved h).1
    (by rw [jsonField, hread, Option.bind_some, hget]; rfl)
  have hnonempty : req.node_id ≠ "" := by
    rintro hempty
    rw [hempty] at hnode
    exact absurd hnode (by decide)
  unfold createApprovalAs
  simp only [jsonTypesValid, jsonField, hread, hresolved]
  simp only [Option.bind_some, hget]
  simp [Value.get, Value.arrange, Value.asStr, Value.isString, hability, hnode, hactor, hnonempty,
    persistOrRollback, givenApproval, Env.instant, Env.working]

/-! ## Making the request again -/

omit [Serde] [Rfc8259] in
/-- The policy refuses for another reason. -/
theorem refusedByPolicy_ne_required {response : Response}
    (h : refusedByPolicy st env store req = some response) : response ≠ approvalRequired := by
  unfold refusedByPolicy at h
  repeat' split at h
  all_goals cases h
  all_goals simp [failure, approvalRequired]

omit [Rfc8259] in
/-- A request that needs an approval has passed everything before: its key is not in use, and the
policy allows it. -/
theorem allowed_of_required (hparsed : parseTaskRequest st env body authenticated = .ok req)
    (h : (createTaskAs st env body authenticated store).1 = approvalRequired) :
    (req.idempotency_key ≠ "" →
      store.tasks.find? (fun task => task.idempotency_key == req.idempotency_key) = none) ∧
    refusedByPolicy st env store req = none := by
  have haccept (h : (acceptTask st env store req).1 = approvalRequired) :
      refusedByPolicy st env store req = none := by
    unfold acceptTask at h
    split at h
    · next response hrefused => exact absurd h (refusedByPolicy_ne_required hrefused)
    · assumption
  unfold createTaskAs at h
  rw [hparsed] at h
  dsimp only at h
  split_ifs at h with hkey
  · split at h
    · split_ifs at h
      · cases h
      · simp [failure, approvalRequired] at h
    · next hnone => exact ⟨fun _ => hnone, haccept h⟩
  · exact ⟨fun hne => absurd hne hkey, haccept h⟩

omit [Serde] [Rfc8259] in
/-- What the policy allowed it allows again, at the instant at which it found the node fresh. -/
theorem refusedByPolicy_again {store' : Store} (h : refusedByPolicy st env store req = none)
    (hnodes : store'.nodes = store.nodes) (approval_id : String) :
    refusedByPolicy st (env.instant (env.now (.fresh req.node_id))) store'
      { req with approval_id := some approval_id } = none := by
  have hfresh : (fun node : Node => node.id == req.node_id &&
        nodeIsFresh st (env.instant (env.now (.fresh req.node_id))) node) =
      fun node => node.id == req.node_id && nodeIsFresh st env node := by
    funext node
    by_cases hid : node.id = req.node_id
    · simp [nodeIsFresh, Env.instant, hid]
    · have hother : (node.id == req.node_id) = false := beq_eq_false_iff_ne.mpr hid
      simp only [hother, Bool.false_and]
  unfold refusedByPolicy at h ⊢
  rw [hnodes]
  dsimp only
  rw [hfresh]
  exact h

omit [Serde] [Rfc8259] in
/-- An approval that was just given passes the gate. -/
theorem approvalGate_given (t : ℕ) {store' : Store} (hrecords : st.require_approval_records = true)
    (hgiven : givenApproval st (env.instant t) req ∈ store'.approvals) :
    ∃ approved k, approvalGate st (env.instant t) store'
      { req with approval_id := some (givenApproval st (env.instant t) req).id } =
        .ok (approved, k) := by
  have hconsumable : consumable (env.instant t)
      { req with approval_id := some (givenApproval st (env.instant t) req).id }
      (givenApproval st (env.instant t) req).id (givenApproval st (env.instant t) req) = true := by
    simp [consumable, givenApproval, Env.instant]
  obtain ⟨approval, hfound⟩ := Option.isSome_iff_exists.mp
    (List.find?_isSome.mpr ⟨_, hgiven, hconsumable⟩)
  unfold approvalGate
  split
  · dsimp only
    rw [hfound]
    exact ⟨_, _, rfl⟩
  · exact ⟨_, _, rfl⟩

/-- A request that needed an approval is accepted with one that was just given. -/
theorem createTaskAs_given {store' : Store}
    (hparsed : parseTaskRequest st env body authenticated = .ok req)
    (hrecords : st.require_approval_records = true)
    (hrequired : (createTaskAs st env body authenticated store).1 = approvalRequired)
    (hnodes : store'.nodes = store.nodes) (htasks : store'.tasks = store.tasks)
    (hgiven : givenApproval st (env.instant (env.now (.fresh req.node_id))) req ∈
      store'.approvals) :
    (createTaskAs st (env.instant (env.now (.fresh req.node_id)))
      (taskRequestValue req (givenApproval st (env.instant (env.now (.fresh req.node_id))) req).id).text
      authenticated store').1.status = .accepted := by
  obtain ⟨hkey, hallowed⟩ := allowed_of_required hparsed hrequired
  obtain ⟨approved, k, hgate⟩ := approvalGate_given _ hrecords hgiven
  generalize (givenApproval st (env.instant (env.now (.fresh req.node_id))) req).id = approval_id
    at hgate ⊢
  have hread := parseTaskRequest_value (env.instant (env.now (.fresh req.node_id))) approval_id
    hparsed
  have haccept : (acceptTask st (env.instant (env.now (.fresh req.node_id))) store'
      { req with approval_id := some approval_id }).1.status = .accepted := by
    unfold acceptTask
    rw [refusedByPolicy_again hallowed hnodes approval_id]
    dsimp only
    rw [hgate]
    rfl
  unfold createTaskAs
  rw [hread]
  dsimp only
  split_ifs with hne
  · rw [htasks, hkey hne]
    exact haccept
  · exact haccept

/-! ## What can be approved -/

/-- A request for a task can be approved: at some instant somebody asks for an approval of exactly
what the task asks for and is given one, and the request is accepted when it is made again with it. -/
def Approvable (st : State) (env : Env) (authenticated : Option String) (store : Store)
    (req : TaskRequest) : Prop :=
  ∃ (t : ℕ) (body : String) (approver : Option String) (approval : Approval) (new : Store)
      (body' : String),
    createApprovalAs st (env.instant t) body approver store =
      (⟨.created, .approval approval⟩, new) ∧
    (approval.node_id = req.node_id ∧ approval.ability = req.ability ∧
      approval.program = req.program ∧ approval.argument = req.argument ∧
      approval.actor = req.actor) ∧
    parseTaskRequest st (env.instant t) body' authenticated =
      .ok { req with approval_id := some approval.id } ∧
    (createTaskAs st (env.instant t) body' authenticated new).1.status = .accepted

variable [Ed25519]

omit [Rfc8259] in
/-- An approval that is given is of a command, for an actor that approvals know. -/
theorem approves_of_created {approval : Approval} {new : Store}
    (h : createApprovalAs st env body authenticated store = (⟨.created, .approval approval⟩, new)) :
    Approves st env body authenticated approval := by
  have hcreated : Status.isSuccess .created = true := by decide
  have heffect := createApprovalAs_effect st env body authenticated store
  rw [h] at heffect
  cases heffect with
  | unchanged _ _ hread _ => exact absurd (hread hcreated) Bool.false_ne_true
  | approvalCreated _ _ _ happroves => exact happroves

omit [Rfc8259] in
/-- Only a command can be approved, and only for an actor that approvals know. -/
theorem Approvable.command (h : Approvable st env authenticated store req) :
    req.ability = "task.exec" ∧ validActorId req.actor = true := by
  obtain ⟨t, body, approver, approval, new, body', hcreated, ⟨-, hability, -, -, hactor⟩, -, -⟩ := h
  have happroves := approves_of_created hcreated
  rw [← hability, ← hactor]
  exact ⟨happroves.ability.2, happroves.valid_actor⟩

/-- **A task that needs an approval can be approved exactly when** it is a command and its actor is
one that approvals know. -/
theorem approvable_iff (hreachable : Reachable store)
    (hrecords : st.require_approval_records = true)
    (hparsed : parseTaskRequest st env body authenticated = .ok req)
    (hrequired : (createTaskAs st env body authenticated store).1 = approvalRequired) :
    Approvable st env authenticated store req ↔
      req.ability = "task.exec" ∧ validActorId req.actor = true := by
  constructor
  · exact fun h => h.command
  · rintro ⟨hability, hactor⟩
    obtain ⟨-, hallowed⟩ := allowed_of_required hparsed hrequired
    -- The node of the request is registered, so its identifier is valid.
    have hnode : validNodeId req.node_id = true := by
      unfold refusedByPolicy at hallowed
      split_ifs at hallowed with hfresh
      simp only [Bool.not_eq_true', Bool.not_eq_false, List.any_eq_true, Bool.and_eq_true,
        beq_iff_eq] at hfresh
      obtain ⟨node, hnode, hid, -⟩ := hfresh
      rw [← hid]
      exact hreachable.wellFormed.nodes node hnode
    have hgiven := createApprovalAs_value store (env.now (.fresh req.node_id)) hparsed
      hability hnode hactor
    refine ⟨env.now (.fresh req.node_id), _, authenticated, _, _, _, hgiven, ⟨rfl, rfl, rfl, rfl, rfl⟩,
      parseTaskRequest_value _ _ hparsed, ?_⟩
    exact createTaskAs_given hparsed hrecords hrequired rfl rfl
      (List.mem_append_right _ (List.mem_singleton_self _))

end Reading

/-! ## A command and a file -/

/-- A response is an error code. -/
def Response.isCode (status : Status) (code : String) (response : Response) : Bool :=
  match response.reply with
  | .code c => response.status == status && c == code
  | _ => false

/-- Such a response is that error code. -/
theorem eq_failure_of_isCode {status : Status} {code : String} {response : Response}
    (h : response.isCode status code = true) : response = failure status code := by
  obtain ⟨status', reply⟩ := response
  unfold Response.isCode at h
  cases reply with
  | code c =>
    simp only [Bool.and_eq_true, beq_iff_eq] at h
    rw [h.1, h.2]
    rfl
  | _ => cases h

section Example

attribute [local instance] compactSerde rfc8259_compactSerde noKeys

/-- A store with the node `n1`. -/
def recordStore : Store :=
  ((Arm.createNode exampleBodies.1 none).run recordState (exampleEnv 0) .empty).2

/-- The body that asks for a task of the node `n1`. -/
def abilityBody (ability : String) : String :=
  "\x7b\"node_id\":\"n1\",\"ability\":\"" ++ ability ++ "\",\"program\":\"notes\"\x7d"

/-- Such a task is read, and needs an approval. -/
theorem required_abilityBody (ability : String)
    (h : ((parseTaskRequest recordState (exampleEnv 0) (abilityBody ability) none).toOption.map
        fun req => (req.ability, req.actor)) = some (ability, "admin") ∧
      (createTaskAs recordState (exampleEnv 0) (abilityBody ability) none recordStore).1.isCode
        .preconditionRequired "approval_required" = true) :
    Reachable recordStore ∧ ∃ req,
      parseTaskRequest recordState (exampleEnv 0) (abilityBody ability) none = .ok req ∧
      (req.ability = ability ∧ req.actor = "admin") ∧
      (createTaskAs recordState (exampleEnv 0) (abilityBody ability) none recordStore).1 =
        approvalRequired := by
  have hempty : Reachable Store.empty := ⟨[], .start⟩
  obtain ⟨req, hparsed, hread⟩ := ok_of_toOption h.1
  refine ⟨hempty.step (.handled _ _ _ (.handled _ _ _ _)), req, hparsed, ?_,
    eq_failure_of_isCode h.2⟩
  exact Prod.mk.inj hread

/-- The command can be approved. -/
theorem approvable_command : ∃ req,
    parseTaskRequest recordState (exampleEnv 0) (abilityBody "task.exec") none = .ok req ∧
      Approvable recordState (exampleEnv 0) none recordStore req := by
  obtain ⟨hreachable, req, hparsed, ⟨hability, hactor⟩, hrequired⟩ :=
    required_abilityBody "task.exec" ⟨by decide +kernel, by decide +kernel⟩
  refine ⟨req, hparsed, (approvable_iff hreachable rfl hparsed hrequired).mpr ⟨hability, ?_⟩⟩
  rw [hactor]
  decide

/-- The default policy asks for an approval of writing a file, and nobody can give it. -/
theorem file_write_not_approvable : recordState.policy = .default ∧ ∃ req,
    parseTaskRequest recordState (exampleEnv 0) (abilityBody "file.write") none = .ok req ∧
      Reachable recordStore ∧
      (createTaskAs recordState (exampleEnv 0) (abilityBody "file.write") none recordStore).1 =
        approvalRequired ∧
      ¬Approvable recordState (exampleEnv 0) none recordStore req := by
  obtain ⟨hreachable, req, hparsed, ⟨hability, -⟩, hrequired⟩ :=
    required_abilityBody "file.write" ⟨by decide +kernel, by decide +kernel⟩
  refine ⟨rfl, req, hparsed, hreachable, hrequired, fun happrovable => ?_⟩
  rw [happrovable.command.1] at hability
  exact absurd hability (by decide)

end Example

end NodeWe.ControlPlane
