import NodeWe.ControlPlane.RoundTrip

/-!
# Idempotency keys

A task keeps the parameters that it was created with, and the store keeps every task, so that the
lookup of `create_task_as` finds the task that was created under a key. A restart rewrites the keys
that have tabs or line ends, as a row of the snapshot cannot carry these, and a task whose key was
rewritten is not found any more.
-/

namespace NodeWe.ControlPlane

open Text InPlace Transition

/-! ## Tasks as they were created -/

/-- A task as it was when it was queued. -/
def Task.asQueued (task : Task) : Task :=
  { task with
    state := "queued"
    output := ""
    output_sha256 := ""
    output_truncated := false
    exit_code := none
    lease_until := 0
    lease_token := "" }

/-- A step of a task leaves it as it was created. -/
theorem TaskStep.asQueued [Serde] {env : Env} {arm : Arm} {task task' : Task}
    (h : TaskStep env arm task task') : task'.asQueued = task.asQueued := by
  cases h <;> rfl

/-- The task that a response of `create_task_as` says it created. -/
def Event.created : Event → Option Task
  | handled _ _ (.createTask _ _) ⟨.accepted, .task task⟩ => some task
  | _ => none

/-- The tasks that were created, in order. -/
def created (events : List Event) : List Task := events.filterMap Event.created

/-- One more event creates its task last. -/
theorem created_snoc (events : List Event) (event : Event) :
    created (events ++ [event]) = created events ++ event.created.toList := by
  rw [created, List.filterMap_append]
  cases h : event.created with
  | none => rw [List.filterMap_cons_none h]; rfl
  | some task => rw [List.filterMap_cons_some h]; rfl

/-! ## Requests for tasks -/

section Requests

variable [Serde] {st : State} {env : Env} {body : String} {actor : Option String} {store : Store}
  {req : TaskRequest}

/-- What a request for a task that was read gets. -/
inductive Asks : Event → TaskRequest → Response → Prop
  | read (st : State) (env : Env) (body : String) (actor : Option String) (req : TaskRequest)
      (response : Response) (hparsed : parseTaskRequest st env body actor = .ok req) :
      Asks (.handled st env (.createTask body actor) response) req response

/-- The response to a key that is in use with other parameters. -/
def keyConflict : Response := failure .conflict "idempotency_conflict"

/-- Two events are the same request of the same actor, at two times. -/
def Event.Repeats : Event → Event → Prop
  | handled _ _ (.createTask body actor) _, handled _ _ (.createTask body' actor') _ =>
    body' = body ∧ actor' = actor
  | _, _ => False

/-- A request that is not read is refused for another reason. -/
theorem parseTaskRequest_ne_conflict {response : Response}
    (h : parseTaskRequest st env body actor = .error response) : response ≠ keyConflict := by
  unfold parseTaskRequest at h
  dsimp only at h
  repeat' split at h
  all_goals cases h
  all_goals simp [failure, keyConflict]

omit [Serde] in
/-- The policy refuses for another reason. -/
theorem refusedByPolicy_ne_conflict {response : Response}
    (h : refusedByPolicy st env store req = some response) : response ≠ keyConflict := by
  unfold refusedByPolicy at h
  repeat' split at h
  all_goals cases h
  all_goals simp [failure, keyConflict]

omit [Serde] in
/-- The approval gate refuses for another reason. -/
theorem approvalGate_ne_conflict {response : Response}
    (h : approvalGate st env store req = .error response) : response ≠ keyConflict := by
  unfold approvalGate at h
  repeat' split at h
  all_goals cases h
  all_goals simp [failure, keyConflict]

/-- What a request for a task does: it is refused for a reason that is not its key, it finds the
task of its key, which is its own or another's, or it creates a task under a key that is not in
use. -/
inductive TaskCreation (st : State) (env : Env) (body : String) (actor : Option String)
    (store : Store) : Response → Store → Prop
  | refused (response : Response) (hrefused : response.status.isSuccess = false)
      (hreason : response ≠ keyConflict) : TaskCreation st env body actor store response store
  | replayed (req : TaskRequest) (existing : Task)
      (hparsed : parseTaskRequest st env body actor = .ok req) (hkey : req.idempotency_key ≠ "")
      (hfound : store.tasks.find? (fun task => task.idempotency_key == req.idempotency_key) =
        some existing) (hsame : sameRequest existing req = true) :
      TaskCreation st env body actor store ⟨.ok, .task existing⟩ store
  | conflict (req : TaskRequest) (existing : Task)
      (hparsed : parseTaskRequest st env body actor = .ok req) (hkey : req.idempotency_key ≠ "")
      (hfound : store.tasks.find? (fun task => task.idempotency_key == req.idempotency_key) =
        some existing) (hdiffers : sameRequest existing req = false) :
      TaskCreation st env body actor store keyConflict store
  | created (req : TaskRequest) (new : Store) (h : Accepts st env body actor store req)
      (htasks : new.tasks = store.tasks ++ [queuedTask st env req]) :
      TaskCreation st env body actor store ⟨.accepted, .task (queuedTask st env req)⟩ new

/-- `create_task_as` from the lock on, under a key that is not in use. -/
theorem acceptTask_creation (hparsed : parseTaskRequest st env body actor = .ok req)
    (hkey : req.idempotency_key ≠ "" →
      ∀ task ∈ store.tasks, task.idempotency_key ≠ req.idempotency_key) :
    TaskCreation st env body actor store (acceptTask st env store req).1
      (acceptTask st env store req).2 := by
  unfold acceptTask
  split
  · next h =>
    have hreason := refusedByPolicy_ne_conflict h
    obtain ⟨status, code, rfl, hstatus⟩ := refusedByPolicy_some h
    exact .refused _ hstatus hreason
  · next hallowed =>
    split
    · next h =>
      have hreason := approvalGate_ne_conflict h
      obtain ⟨status, code, rfl, hstatus⟩ := approvalGate_error h
      exact .refused _ hstatus hreason
    · next approved k happroved =>
      dsimp only
      unfold persistOrRollback
      split_ifs with hpersist
      · refine .created req _ ⟨hparsed, hkey, hallowed⟩ ?_
        have htasks := (approvalGate_frame happroved).tasks
        exact congrArg (· ++ [queuedTask st env req]) htasks
      · have hstatus : storageUnavailable.status.isSuccess = false := by decide
        exact .refused _ hstatus (by simp [storageUnavailable, failure, keyConflict])

/-- `create_task_as`. -/
theorem createTaskAs_creation (st : State) (env : Env) (body : String) (actor : Option String)
    (store : Store) :
    TaskCreation st env body actor store (createTaskAs st env body actor store).1
      (createTaskAs st env body actor store).2 := by
  unfold createTaskAs
  split
  · next h =>
    have hreason := parseTaskRequest_ne_conflict h
    obtain ⟨status, code, rfl, hstatus⟩ := parseTaskRequest_error h
    exact .refused _ hstatus hreason
  · next req hparsed =>
    split_ifs with hkey
    · split
      · next existing hfound =>
        split_ifs with hsame
        · exact .replayed req existing hparsed hkey hfound hsame
        · exact .conflict req existing hparsed hkey hfound (Bool.eq_false_iff.mpr hsame)
      · next hnew =>
        refine acceptTask_creation hparsed fun _ task htask => ?_
        simpa using List.find?_eq_none.mp hnew task htask
    · exact acceptTask_creation hparsed fun h => absurd h hkey

/-- A request that is accepted has passed the guards of a creation. -/
theorem TaskCreation.accepted {response : Response} {store' : Store}
    (h : TaskCreation st env body actor store response store')
    (hstatus : response.status = .accepted) :
    ∃ req, Accepts st env body actor store req ∧
      response = ⟨.accepted, .task (queuedTask st env req)⟩ := by
  have haccepted : Status.isSuccess .accepted = true := by decide
  cases h with
  | refused _ hrefused _ =>
    rw [hstatus] at hrefused
    exact absurd (haccepted.symm.trans hrefused) (by decide)
  | replayed => cases hstatus
  | conflict => cases hstatus
  | created req _ haccepts _ => exact ⟨req, haccepts, rfl⟩

end Requests

/-! ## Requests made again -/

/-- The hexadecimal digits of a number of a fixed width take no more bytes than its digits. -/
theorem len_hex {n k : ℕ} (hk : 0 < k) (hn : n < 16^k) : len (hex n) ≤ k := by
  have hascii : ∀ c ∈ Nat.toDigits 16 n, (String.utf8EncodeChar c).length = 1 := by
    intro c hc
    obtain ⟨d, hd, rfl⟩ := mem_toDigits (by norm_num) hc
    interval_cases d <;> decide +kernel
  have hlength : len (hex n) = (Nat.toDigits 16 n).length := by
    rw [len_eq_length, bytes_eq_flatMap, hex, String.toList_ofList, List.length_flatMap,
      List.map_congr_left hascii, List.map_const', List.sum_replicate, smul_eq_mul, mul_one]
  have hdigits := Nat.toDigits_length 16 n k hk hn
  omega

/-- An identifier that the process makes up from numbers of the types of the source is valid. -/
theorem validNodeId_newId {st : State} {env : Env} {site : Site} (hnow : env.now site ≤ u64Max)
    (hprocess : st.process_id < 2^32) (hsequence : env.sequence site ≤ u64Max) :
    validNodeId (newId st env "request" site) = true := by
  have hnow := len_hex (n := env.now site) (k := 16) (by omega) (by unfold u64Max at hnow; omega)
  have hprocess := len_hex (k := 8) (by omega) (by omega : st.process_id < 16^8)
  have hsequence := len_hex (n := env.sequence site) (k := 16) (by omega)
    (by unfold u64Max at hsequence; omega)
  have hne : newId st env "request" site ≠ "" := by
    intro h
    have hlist := congrArg String.toList h
    simp [newId] at hlist
  have hlen : len (newId st env "request" site) ≤ 128 := by
    have hrequest : len "request" = 7 := by decide +kernel
    have hseparator : len "_" = 1 := by decide +kernel
    have happend (s t : String) : len (s ++ t) = len s + len t := String.utf8ByteSize_append
    simp only [newId, happend, hrequest, hseparator]
    omega
  simp only [validNodeId, Bool.and_eq_true, decide_eq_true_eq, List.all_eq_true]
  refine ⟨⟨hne, hlen⟩, fun c hc => ?_⟩
  rcases mem_newId hc with hc | rfl | ⟨d, hd, rfl⟩
  · have hrequest : ("request".toList.all fun c => isAsciiGraphic c &&
        !(['/', '\\', '?', '&', '=', '#', '%'].contains c)) = true := by decide +kernel
    simpa using List.all_eq_true.mp hrequest c hc
  · decide
  · interval_cases d <;> decide

section Again

variable [Serde] {st : State} {env : Env} {body : String} {actor : Option String} {req : TaskRequest}

/-- A body that was read is read again in the same way, under a valid name of its own. -/
theorem parseTaskRequest_again {st' : State} {env' : Env}
    (h : parseTaskRequest st env body actor = .ok req)
    (hid : validNodeId (newId st' env' "request" .requestId) = true) :
    ∃ request_id, parseTaskRequest st' env' body actor =
      .ok { req with request_id := request_id } := by
  cases hname : jsonField body "request_id" with
  | some name =>
    have hsame : parseTaskRequest st' env' body actor = parseTaskRequest st env body actor := by
      unfold parseTaskRequest
      rw [hname]
      rfl
    exact ⟨req.request_id, hsame.trans h⟩
  | none =>
    refine ⟨newId st' env' "request" .requestId, ?_⟩
    unfold parseTaskRequest at h ⊢
    dsimp only at h ⊢
    rw [hname, Option.getD_none] at h ⊢
    repeat' split at h
    all_goals try cases h
    next htypes _ _ _ _ _ _ _ _ _ _ hactor hrange =>
      simp only [if_neg htypes, hid, if_neg hactor, if_neg hrange]
      rfl

end Again

/-! ## Runs -/

/-- The numbers of an event that identifiers are made of are within the types of the source. -/
def Event.IdsFit : Event → Prop
  | handled st env _ _ => st.process_id < 2^32 ∧
      ∀ site, env.now site ≤ u64Max ∧ env.sequence site ≤ u64Max
  | reloaded _ => True

section Runs

variable [Serde]

/-- What idempotency keys promise of an event after some others: it creates no second task under a
key; it gets the task that it created, if it is one of them made again; and its key is in conflict
only with a task that was created under that key. -/
structure KeyHolds (past : List Event) (event : Event) : Prop where
  created_once : ∀ earlier ∈ past, ∀ req task req' task', Asks earlier req ⟨.accepted, .task task⟩ →
    Asks event req' ⟨.accepted, .task task'⟩ → req.idempotency_key ≠ "" →
      req'.idempotency_key ≠ req.idempotency_key
  replayed : ∀ earlier ∈ past, ∀ req task, Asks earlier req ⟨.accepted, .task task⟩ →
    req.idempotency_key ≠ "" → earlier.Repeats event →
      ∃ req' existing, Asks event req' ⟨.ok, .task existing⟩ ∧ existing.asQueued = task
  own_key : ∀ req, Asks event req keyConflict → ∃ earlier ∈ past, ∃ req' task,
    Asks earlier req' ⟨.accepted, .task task⟩ ∧ req'.idempotency_key = req.idempotency_key

variable [Ed25519]

/-- A step that is no restart, or a restart whose store has no key with a tab or a line end. -/
def HappensPlain (store : Store) (event : Event) (store' : Store) : Prop :=
  Happens store event store' ∧
    ((∃ env, event = .reloaded env) → ∀ task ∈ store.tasks, Plain task.idempotency_key)

/-- A request is such a step. -/
theorem HappensPlain.handled {store store' : Store} {event : Event}
    (h : Handles store event store') : HappensPlain store event store' := by
  refine ⟨.handled _ _ _ h, ?_⟩
  rintro ⟨env, rfl⟩
  cases h

/-- What a store has of the requests so far: the tasks that were created, under different keys, each
by a request that was read. -/
structure Tracked (events : List Event) (store : Store) : Prop where
  tasks : store.tasks.map Task.asQueued = created events
  keys : (created events).Pairwise fun task task' =>
    task.idempotency_key ≠ "" → task'.idempotency_key ≠ task.idempotency_key
  asked : ∀ event ∈ events, ∀ task ∈ event.created, ∃ st env req,
    Asks event req ⟨.accepted, .task task⟩ ∧ task = queuedTask st env req

omit [Serde] [Ed25519] in
/-- A response that is not 202 creates no task. -/
theorem created_of_status {st : State} {env : Env} {arm : Arm} {response : Response}
    (h : response.status ≠ .accepted) :
    (Event.handled st env arm response).created = none := by
  unfold Event.created
  split
  · next heq =>
    cases heq
    exact absurd rfl h
  · rfl

omit [Ed25519] in
/-- An event that creates a task answers that it did. -/
theorem Asks.created {event : Event} {req : TaskRequest} {task : Task}
    (h : Asks event req ⟨.accepted, .task task⟩) : event.created = some task := by
  cases h
  rfl

omit [Ed25519] in
/-- A request is read in one way. -/
theorem Asks.unique {event : Event} {req req' : TaskRequest} {response response' : Response}
    (h : Asks event req response) (h' : Asks event req' response') : req' = req := by
  cases h with
  | read st env body actor _ _ hparsed =>
    cases h' with
    | read _ _ _ _ _ _ hparsed' => exact Except.ok.inj (hparsed'.symm.trans hparsed)

variable {events : List Event} {store store' : Store} {st : State} {env : Env} {arm : Arm}
  {response : Response}

omit [Ed25519] in
/-- A task that was created is still there. -/
theorem Tracked.mem_tasks (h : Tracked events store) {task : Task} (htask : task ∈ created events) :
    ∃ kept ∈ store.tasks, kept.asQueued = task := by
  rw [← h.tasks] at htask
  exact List.mem_map.mp htask

omit [Ed25519] in
/-- A task of the store was created. -/
theorem Tracked.mem_created (h : Tracked events store) {task : Task} (htask : task ∈ store.tasks) :
    task.asQueued ∈ created events := by
  rw [← h.tasks]
  exact List.mem_map_of_mem htask

omit [Ed25519] in
/-- An event without a task leaves the records as they are. -/
theorem Tracked.skip (h : Tracked events store) {event : Event} (hnone : event.created = none)
    (htasks : store'.tasks.map Task.asQueued = store.tasks.map Task.asQueued) :
    Tracked (events ++ [event]) store' := by
  have hcreated : created (events ++ [event]) = created events := by
    rw [created_snoc, hnone, Option.toList_none, List.append_nil]
  refine ⟨?_, ?_, ?_⟩
  · rw [htasks, hcreated]
    exact h.tasks
  · rw [hcreated]
    exact h.keys
  · refine List.forall_mem_append.mpr ⟨h.asked, List.forall_mem_singleton.mpr fun task htask => ?_⟩
    rw [hnone] at htask
    cases htask

omit [Ed25519] in
/-- A creation adds its task to the records. -/
theorem Tracked.creation {body : String} {actor : Option String} (h : Tracked events store)
    (hstep : TaskCreation st env body actor store response store') :
    Tracked (events ++ [.handled st env (.createTask body actor) response]) store' := by
  have hok : Status.ok ≠ .accepted := by decide
  have hconflict : Status.conflict ≠ .accepted := by decide
  have hsuccess : Status.isSuccess .accepted = true := by decide
  cases hstep with
  | refused response hrefused hreason =>
    refine h.skip (created_of_status fun haccepted => ?_) rfl
    rw [haccepted] at hrefused
    exact absurd (hsuccess.symm.trans hrefused) (by decide)
  | replayed req existing hparsed hkey hfound hsame => exact h.skip (created_of_status hok) rfl
  | conflict req existing hparsed hkey hfound hdiffers =>
    exact h.skip (created_of_status hconflict) rfl
  | created req new haccepts htasks =>
    have hasks : Asks (.handled st env (.createTask body actor)
        ⟨.accepted, .task (queuedTask st env req)⟩) req _ := .read _ _ _ _ _ _ haccepts.parsed
    have hcreated := created_snoc events (.handled st env (.createTask body actor)
      ⟨.accepted, .task (queuedTask st env req)⟩)
    rw [hasks.created, Option.toList_some] at hcreated
    refine ⟨?_, ?_, ?_⟩
    · rw [hcreated, htasks, List.map_append, h.tasks]
      rfl
    · rw [hcreated, List.pairwise_append]
      refine ⟨h.keys, List.pairwise_singleton _ _, fun task htask new hnew hkey heq => ?_⟩
      obtain ⟨kept, hkept, rfl⟩ := h.mem_tasks htask
      obtain rfl := List.mem_singleton.mp hnew
      -- The lookup would have found the task under that key.
      have hnonempty : req.idempotency_key ≠ "" := fun hempty => hkey (heq.symm.trans hempty)
      exact haccepts.new_key hnonempty kept hkept heq.symm
    · refine List.forall_mem_append.mpr ⟨h.asked, List.forall_mem_singleton.mpr ?_⟩
      intro task htask
      obtain rfl := Option.some.inj (hasks.created.symm.trans htask)
      exact ⟨st, env, req, hasks, rfl⟩

/-- A request keeps the records. -/
theorem Tracked.handled {event : Event} (h : Tracked events store)
    (hstep : Handles store event store') : Tracked (events ++ [event]) store' := by
  cases hstep with
  | handled st env arm =>
    by_cases harm : ∃ body actor, arm = .createTask body actor
    · obtain ⟨body, actor, rfl⟩ := harm
      exact h.creation (createTaskAs_creation st env body actor store)
    · have heffect := arm.run_effect st env store
      have hnone : (Event.handled st env arm (arm.run st env store).1).created = none := by
        unfold Event.created
        split
        · next heq =>
          injection heq with _ _ hcreate
          exact absurd ⟨_, _, hcreate⟩ harm
        · rfl
      refine h.skip hnone ?_
      rcases heffect.tasks_length with hlength | ⟨body, actor, req, hcreate, -, -⟩
      · exact heffect.tasks_evolve.map_eq (fun _ _ hstep => hstep.asQueued) hlength
      · exact absurd ⟨body, actor, hcreate⟩ harm

variable [Rfc8259]

omit [Ed25519] in
/-- A restart keeps the records, where it keeps the keys. -/
theorem Tracked.reloaded (h : Tracked events store) (hwell : WellFormed store)
    (hfits : StoreFits store) (hplain : ∀ task ∈ store.tasks, Plain task.idempotency_key)
    (env : Env) : Tracked (events ++ [.reloaded env]) (reloadedStore env store) := by
  rw [reloadedStore_fits env hwell hfits]
  refine h.skip rfl ?_
  have htasks : (normalized store).tasks = store.tasks := by
    have hkeys : ∀ task ∈ store.tasks,
        { task with idempotency_key := clean task.idempotency_key } = id task := by
      intro task htask
      rw [clean_of_plain (hplain task htask)]
      rfl
    exact (List.map_congr_left hkeys).trans (List.map_id _)
  rw [htasks]

/-- Every run keeps the records, and with them the fields of the store. -/
theorem Tracked.of_run (hrun : Run HappensPlain Store.empty events store) (htime : InTime events) :
    Tracked events store ∧ WellFormed store ∧ StoreFits store := by
  refine hrun.history (P := fun events store => InTime events →
    Tracked events store ∧ WellFormed store ∧ StoreFits store) ?_ ?_ htime
  · exact fun _ => ⟨⟨rfl, .nil, List.forall_mem_nil _⟩, wellFormed_empty, storeFits_empty⟩
  · rintro events s event t ih ⟨hstep, hplain⟩ htime
    unfold InTime at htime
    rw [List.forall_mem_append, List.forall_mem_singleton] at htime
    obtain ⟨hrecords, hwell, hfits⟩ := ih htime.1
    refine ⟨?_, hstep.wellFormed hwell, hstep.storeFits htime.2 hfits⟩
    cases hstep with
    | handled _ _ _ h => exact hrecords.handled h
    | reloaded env _ _ h =>
      rw [eq_reloadedStore h]
      exact hrecords.reloaded hwell hfits (hplain ⟨env, rfl⟩) env

/-! ## Keys -/

omit [Rfc8259] in
/-- A step that answers a request for a task does what `create_task_as` does. -/
theorem Happens.creation {body : String} {actor : Option String}
    (h : Happens store (.handled st env (.createTask body actor) response) store') :
    TaskCreation st env body actor store response store' := by
  cases h with
  | handled _ _ _ h =>
    cases h
    exact createTaskAs_creation st env body actor store

omit [Rfc8259] [Ed25519] in
/-- A request whose key is in use by the same request finds its task. -/
theorem createTaskAs_replays {body : String} {actor : Option String} {req : TaskRequest}
    {existing : Task} (hparsed : parseTaskRequest st env body actor = .ok req)
    (hkey : req.idempotency_key ≠ "")
    (hfound : store.tasks.find? (fun task => task.idempotency_key == req.idempotency_key) =
      some existing) (hsame : sameRequest existing req = true) :
    createTaskAs st env body actor store = (⟨.ok, .task existing⟩, store) := by
  unfold createTaskAs
  rw [hparsed]
  dsimp only
  rw [if_pos hkey, hfound]
  dsimp only
  rw [if_pos hsame]

omit [Rfc8259] [Serde] [Ed25519] in
/-- A task that a request created is one of the same request, under whatever name. -/
theorem sameRequest_of_queued {req : TaskRequest} {existing : Task} {request_id : String}
    (h : existing.asQueued = queuedTask st env req) :
    sameRequest existing { req with request_id := request_id } = true := by
  have hnode : existing.node_id = req.node_id := congrArg Task.node_id h
  have hactor : existing.actor = req.actor := congrArg Task.actor h
  have hability : existing.ability = req.ability := congrArg Task.ability h
  have hprogram : existing.program = req.program := congrArg Task.program h
  have hargument : existing.argument = req.argument := congrArg Task.argument h
  have htimeout : existing.timeout_ms = req.timeout_ms := congrArg Task.timeout_ms h
  simp [sameRequest, hnode, hactor, hability, hprogram, hargument, htimeout]

omit [Rfc8259] [Ed25519] in
/-- Two tasks that were created under the same key are one. -/
theorem Tracked.eq_of_key (h : Tracked events store) {task task' : Task}
    (htask : task ∈ created events) (htask' : task' ∈ created events)
    (hkey : task.idempotency_key ≠ "") (heq : task'.idempotency_key = task.idempotency_key) :
    task' = task := by
  by_contra hne
  have hsymm : Std.Symm fun task task' : Task =>
      task.idempotency_key ≠ "" → task'.idempotency_key ≠ task.idempotency_key := by
    refine ⟨fun task task' h hkey' heq => ?_⟩
    exact h (fun hempty => hkey' (heq.symm.trans hempty)) heq.symm
  exact h.keys.forall htask htask' (Ne.symm hne) hkey heq

omit [Rfc8259] [Ed25519] in
/-- What a request has created. -/
theorem Tracked.of_asks (h : Tracked events store) {earlier : Event} (hearlier : earlier ∈ events)
    {req : TaskRequest} {task : Task} (hasks : Asks earlier req ⟨.accepted, .task task⟩) :
    task ∈ created events ∧ ∃ st env, task = queuedTask st env req := by
  have hcreated := hasks.created
  refine ⟨List.mem_filterMap.mpr ⟨earlier, hearlier, hcreated⟩, ?_⟩
  obtain ⟨st, env, req', hasks', htask⟩ := h.asked earlier hearlier task hcreated
  obtain rfl := hasks.unique hasks'
  exact ⟨st, env, htask⟩

omit [Rfc8259] in
/-- A request creates no second task under a key. -/
theorem Tracked.created_once (h : Tracked events store) {event : Event}
    (hstep : Happens store event store') {earlier : Event} (hearlier : earlier ∈ events)
    {req req' : TaskRequest} {task task' : Task} (hasks : Asks earlier req ⟨.accepted, .task task⟩)
    (hasks' : Asks event req' ⟨.accepted, .task task'⟩) (hkey : req.idempotency_key ≠ "") :
    req'.idempotency_key ≠ req.idempotency_key := by
  obtain ⟨hcreated, _, _, rfl⟩ := h.of_asks hearlier hasks
  obtain ⟨kept, hkept, hqueued⟩ := h.mem_tasks hcreated
  have hkeyed : kept.idempotency_key = req.idempotency_key := congrArg Task.idempotency_key hqueued
  cases hasks' with
  | read st env body actor _ _ hparsed =>
    obtain ⟨req'', haccepts, -⟩ := hstep.creation.accepted rfl
    obtain rfl : req'' = req' := Except.ok.inj (haccepts.parsed.symm.trans hparsed)
    intro heq
    exact haccepts.new_key (heq ▸ hkey) kept hkept (hkeyed.trans heq.symm)

omit [Rfc8259] [Serde] [Ed25519] in
/-- The same request again has the same body and the same actor. -/
theorem Event.Repeats.handled {body : String} {actor : Option String} {event : Event}
    (h : (Event.handled st env (.createTask body actor) response).Repeats event) :
    ∃ st' env' response', event = .handled st' env' (.createTask body actor) response' := by
  unfold Event.Repeats at h
  split at h
  · next heq =>
    injection heq with _ _ harm _
    injection harm with hbody hactor
    obtain ⟨rfl, rfl⟩ := h
    exact ⟨_, _, _, by rw [hbody, hactor]⟩
  · exact h.elim

omit [Rfc8259] in
/-- A request that is made again gets its task. -/
theorem Tracked.replayed (h : Tracked events store) {event : Event}
    (hstep : Happens store event store') (hids : event.IdsFit) {earlier : Event}
    (hearlier : earlier ∈ events) {req : TaskRequest} {task : Task}
    (hasks : Asks earlier req ⟨.accepted, .task task⟩) (hkey : req.idempotency_key ≠ "")
    (hrepeats : earlier.Repeats event) :
    ∃ req' existing, Asks event req' ⟨.ok, .task existing⟩ ∧ existing.asQueued = task := by
  obtain ⟨hcreated, st₀, env₀, rfl⟩ := h.of_asks hearlier hasks
  obtain ⟨kept, hkept, hqueued⟩ := h.mem_tasks hcreated
  cases hasks with
  | read _ _ body actor _ _ hparsed =>
    obtain ⟨st, env, response, rfl⟩ := hrepeats.handled
    have hnow := hids.2 .requestId
    obtain ⟨request_id, hagain⟩ :=
      parseTaskRequest_again hparsed (validNodeId_newId hnow.1 hids.1 hnow.2)
    have hkeyed : kept.idempotency_key = req.idempotency_key :=
      congrArg Task.idempotency_key hqueued
    -- The lookup finds some task under the key, and there is only one.
    have hsome : (store.tasks.find? fun task =>
        task.idempotency_key == req.idempotency_key).isSome = true :=
      List.find?_isSome.mpr ⟨kept, hkept, beq_iff_eq.mpr hkeyed⟩
    obtain ⟨existing, hfound⟩ := Option.isSome_iff_exists.mp hsome
    have hexisting : existing.idempotency_key = req.idempotency_key := by
      simpa using List.find?_some hfound
    have horiginal : existing.asQueued = queuedTask st₀ env₀ req :=
      h.eq_of_key hcreated (h.mem_created (List.mem_of_find?_eq_some hfound)) hkey hexisting
    have hrun := createTaskAs_replays hagain hkey hfound (sameRequest_of_queued horiginal)
    refine ⟨{ req with request_id := request_id }, existing, ?_, horiginal⟩
    have hresponse : response = ⟨.ok, .task existing⟩ := by
      cases hstep with
      | handled _ _ _ hhandles =>
        cases hhandles
        exact congrArg Prod.fst hrun
    rw [hresponse]
    exact .read st env body actor _ _ hagain

omit [Rfc8259] in
/-- A key is in conflict with its own task only. -/
theorem Tracked.own_key (h : Tracked events store) {event : Event}
    (hstep : Happens store event store') {req : TaskRequest} (hasks : Asks event req keyConflict) :
    ∃ earlier ∈ events, ∃ req' task,
      Asks earlier req' ⟨.accepted, .task task⟩ ∧ req'.idempotency_key = req.idempotency_key := by
  cases hasks with
  | read st env body actor _ _ hparsed =>
    have hcreation := hstep.creation
    generalize hresponse : keyConflict = response at hcreation
    cases hcreation with
    | refused _ _ hreason => exact absurd hresponse.symm hreason
    | replayed => cases hresponse
    | created => cases hresponse
    | conflict req' existing hparsed' hkey hfound hdiffers =>
      obtain rfl : req' = req := Except.ok.inj (hparsed'.symm.trans hparsed)
      have hkeyed : existing.idempotency_key = req'.idempotency_key := by
        simpa using List.find?_some hfound
      obtain ⟨earlier, hearlier, hcreated⟩ :=
        List.mem_filterMap.mp (h.mem_created (List.mem_of_find?_eq_some hfound))
      obtain ⟨_, _, req₀, hasks, hqueued⟩ := h.asked earlier hearlier _ hcreated
      have hrequested : existing.idempotency_key = req₀.idempotency_key :=
        congrArg Task.idempotency_key hqueued
      exact ⟨earlier, hearlier, req₀, _, hasks, hrequested.symm.trans hkeyed⟩

/-- **Idempotency keys hold over restarts** that find no key with a tab or a line end. -/
theorem keys_survive_restarts {event : Event}
    (hrun : Run HappensPlain Store.empty (events ++ [event]) store)
    (htime : InTime (events ++ [event])) (hids : event.IdsFit) : KeyHolds events event := by
  obtain ⟨before, hpast, hlast⟩ := hrun.last
  have hrecords := (Tracked.of_run hpast fun e he => htime e (List.mem_append_left _ he)).1
  refine ⟨?_, ?_, ?_⟩
  · intro earlier hearlier req task req' task' hasks hasks' hkey
    exact hrecords.created_once hlast.1 hearlier hasks hasks' hkey
  · intro earlier hearlier req task hasks hkey hrepeats
    exact hrecords.replayed hlast.1 hids hearlier hasks hkey hrepeats
  · exact fun req hasks => hrecords.own_key hlast.1 hasks

end Runs

/-! ## Replays -/

section Replays

variable [Serde] {st : State} {env : Env} {body : String} {actor : Option String} {store : Store}

/-- What the execution of a task depends on. -/
structure Parameters where
  node_id : String
  actor : String
  ability : String
  program : String
  argument : String
  timeout_ms : ℕ
  output_limit : ℕ
deriving DecidableEq

/-- The parameters of a task. -/
def Task.parameters (task : Task) : Parameters :=
  ⟨task.node_id, task.actor, task.ability, task.program, task.argument, task.timeout_ms,
    task.output_limit⟩

/-- The parameters that a request asks for, defaults included. -/
def TaskRequest.parameters (req : TaskRequest) : Parameters :=
  ⟨req.node_id, req.actor, req.ability, req.program, req.argument, req.timeout_ms,
    req.output_limit⟩

/-- A request under a key in use gets the task of the key if it asks for the parameters of that
task, and a conflict if not. The store stays as it is. -/
structure Replays (store : Store) (existing : Task) (req : TaskRequest)
    (result : Response × Store) : Prop where
  unchanged : result.2 = store
  answer : result.1 =
    if req.parameters = existing.parameters then ⟨.ok, .task existing⟩ else keyConflict

omit [Serde] in
/-- The lookup compares all the parameters but one. -/
theorem parameters_eq_iff {existing : Task} {req : TaskRequest} :
    req.parameters = existing.parameters ↔
      sameRequest existing req = true ∧ req.output_limit = existing.output_limit := by
  simp only [TaskRequest.parameters, Task.parameters, Parameters.mk.injEq, sameRequest,
    Bool.and_eq_true, beq_iff_eq]
  constructor
  · rintro ⟨hnode, hactor, hability, hprogram, hargument, htimeout, hlimit⟩
    exact ⟨⟨⟨⟨⟨⟨hnode.symm, hactor.symm⟩, hability.symm⟩, hprogram.symm⟩, hargument.symm⟩,
      htimeout.symm⟩, hlimit⟩
  · rintro ⟨⟨⟨⟨⟨⟨hnode, hactor⟩, hability⟩, hprogram⟩, hargument⟩, htimeout⟩, hlimit⟩
    exact ⟨hnode.symm, hactor.symm, hability.symm, hprogram.symm, hargument.symm, htimeout.symm,
      hlimit⟩

/-- A request whose key is in use by another request is refused. -/
theorem createTaskAs_conflicts {req : TaskRequest} {existing : Task}
    (hparsed : parseTaskRequest st env body actor = .ok req) (hkey : req.idempotency_key ≠ "")
    (hfound : store.tasks.find? (fun task => task.idempotency_key == req.idempotency_key) =
      some existing) (hdiffers : sameRequest existing req = false) :
    createTaskAs st env body actor store = (keyConflict, store) := by
  unfold createTaskAs
  rw [hparsed]
  dsimp only
  rw [if_pos hkey, hfound]
  dsimp only
  rw [hdiffers]
  rfl

/-- A request under a key in use is answered by its parameters exactly where its output limit is
that of the task, or it differs in a parameter that the lookup compares. -/
theorem replays_iff {req : TaskRequest} {existing : Task}
    (hparsed : parseTaskRequest st env body actor = .ok req) (hkey : req.idempotency_key ≠ "")
    (hfound : store.tasks.find? (fun task => task.idempotency_key == req.idempotency_key) =
      some existing) :
    Replays store existing req (createTaskAs st env body actor store) ↔
      req.output_limit = existing.output_limit ∨ sameRequest existing req = false := by
  cases hsame : sameRequest existing req with
  | false =>
    have hdiffers : req.parameters ≠ existing.parameters := by
      rw [Ne, parameters_eq_iff, hsame]
      simp
    rw [createTaskAs_conflicts hparsed hkey hfound hsame]
    refine iff_of_true ⟨rfl, ?_⟩ (.inr rfl)
    rw [if_neg hdiffers]
  | true =>
    rw [createTaskAs_replays hparsed hkey hfound hsame]
    constructor
    · intro hreplays
      by_contra hlimit
      have hanswer := hreplays.answer
      rw [if_neg fun heq => hlimit (.inl (parameters_eq_iff.mp heq).2)] at hanswer
      cases hanswer
    · intro hlimit
      have hlimit := hlimit.resolve_right (by decide)
      refine ⟨rfl, ?_⟩
      rw [if_pos (parameters_eq_iff.mpr ⟨hsame, hlimit⟩)]

end Replays

/-- A result that some test passes on is there. -/
theorem ok_of_toOption {ε α β : Type} {x : Except ε α} {f : α → β} {b : β}
    (h : x.toOption.map f = some b) : ∃ a, x = .ok a ∧ f a = b := by
  cases x with
  | error e => cases h
  | ok a => exact ⟨a, rfl, Option.some.inj h⟩

section Example

attribute [local instance] compactSerde rfc8259_compactSerde noKeys

/-- A body that asks for a task of the node `n1` under a key. -/
def keyedBody (key : String) : String :=
  "\x7b\"node_id\":\"n1\",\"ability\":\"system.inspect\",\"idempotency_key\":\"" ++ key ++ "\"\x7d"

/-- The request for that task. -/
def asked (key : String) (store : Store) : Response × Store :=
  (Arm.createTask (keyedBody key) none).run exampleState (exampleEnv 0) store

/-- The event of the request. -/
def askedEvent (key : String) (store : Store) : Event :=
  .handled exampleState (exampleEnv 0) (.createTask (keyedBody key) none) (asked key store).1

/-- The store after the request and a restart. -/
def restartedStore (key : String) : Store := reloadedStore (exampleEnv 0) (asked key namedStore).2

/-- The event that enrols the node. -/
def enrolledEvent : Event :=
  .handled exampleState (exampleEnv 0) (.createNode exampleBodies.1 none)
    ((Arm.createNode exampleBodies.1 none).run exampleState (exampleEnv 0) .empty).1

/-- The node is enrolled, the task is asked for, and the process restarts. -/
def restartedEvents (key : String) : List Event :=
  [enrolledEvent] ++ [askedEvent key namedStore] ++ [.reloaded (exampleEnv 0)]

/-- The two requests are handled. -/
theorem handles_asked (key : String) (store : Store) :
    Handles Store.empty enrolledEvent namedStore ∧
      Handles store (askedEvent key store) (asked key store).2 :=
  ⟨.handled _ _ _ _, .handled _ _ _ _⟩

/-- The store is written and read back. -/
theorem happens_restarted (key : String) :
    Happens (asked key namedStore).2 (.reloaded (exampleEnv 0)) (restartedStore key) := by
  have hhandles := handles_asked key namedStore
  have hclock (site : Site) : (exampleEnv 0).now site ≤ u64Max := Nat.zero_le _
  have htimes : TimesFit (asked key namedStore).2.audit :=
    hhandles.2.effect.timesFit hclock (hhandles.1.effect.timesFit hclock (List.forall_mem_nil _))
  exact .reloaded _ _ _ (parseSnapshot_fits (exampleEnv 0) htimes)

/-- The numbers of the run are small. -/
theorem inTime_restarted (key : String) (store : Store) :
    InTime (restartedEvents key ++ [askedEvent key store]) ∧ (askedEvent key store).IdsFit := by
  have hclock : (exampleEnv 0).ClockFits := by
    intro site
    show 0 + 305000 ≤ u64Max
    decide
  refine ⟨?_, ?_⟩
  · intro event hevent
    simp only [restartedEvents, List.mem_append, List.mem_singleton] at hevent
    obtain ((rfl | rfl) | rfl) | rfl := hevent
    all_goals exact hclock
  · refine ⟨by decide, fun site => ⟨Nat.zero_le _, ?_⟩⟩
    show 1 ≤ u64Max
    decide

/-- A key without tabs and line ends holds over the restart. -/
theorem keys_survive_plain :
    KeyHolds (restartedEvents "k") (askedEvent "k" (restartedStore "k")) := by
  have hplain : ∀ task ∈ (asked "k" namedStore).2.tasks, Plain task.idempotency_key := by
    have hkeys : (asked "k" namedStore).2.tasks.map Task.idempotency_key = ["k"] := by
      decide +kernel
    intro task htask
    have hkey := List.mem_map_of_mem (f := Task.idempotency_key) htask
    rw [hkeys, List.mem_singleton] at hkey
    rw [hkey]
    exact plain_of_decide (by decide)
  have hhandles := handles_asked "k" namedStore
  have hrun : Run HappensPlain Store.empty (restartedEvents "k") (restartedStore "k") :=
    .snoc _ _ _ _ (.snoc _ _ _ _ (.single (.handled hhandles.1)) (.handled hhandles.2))
      ⟨happens_restarted "k", fun _ => hplain⟩
  have hnumbers := inTime_restarted "k" (restartedStore "k")
  exact keys_survive_restarts (.snoc _ _ _ _ hrun (.handled (handles_asked "k" _).2))
    hnumbers.1 hnumbers.2

/-- A request that is accepted says which request it was. -/
theorem asks_of_accepted {key : String} {store : Store} {req : TaskRequest}
    (hparsed : parseTaskRequest exampleState (exampleEnv 0) (keyedBody key) none = .ok req)
    (hstatus : (asked key store).1.status = .accepted) :
    ∃ task, Asks (askedEvent key store) req ⟨.accepted, .task task⟩ := by
  have hcreation := createTaskAs_creation exampleState (exampleEnv 0) (keyedBody key) none store
  obtain ⟨req', -, hresponse⟩ := hcreation.accepted hstatus
  have hresponse : (asked key store).1 = ⟨.accepted, _⟩ := hresponse
  refine ⟨queuedTask exampleState (exampleEnv 0) req', ?_⟩
  rw [← hresponse]
  exact .read _ _ _ _ _ _ hparsed

/-- With a tab in its key the request creates a second task after the restart. -/
theorem key_lost_by_restart :
    Run Happens Store.empty
        (restartedEvents "a\\tb" ++ [askedEvent "a\\tb" (restartedStore "a\\tb")])
        (asked "a\\tb" (restartedStore "a\\tb")).2 ∧
      ¬KeyHolds (restartedEvents "a\\tb") (askedEvent "a\\tb" (restartedStore "a\\tb")) := by
  have hhandles := handles_asked "a\\tb" namedStore
  have hrun : Run Happens Store.empty (restartedEvents "a\\tb") (restartedStore "a\\tb") :=
    .snoc _ _ _ _ (.snoc _ _ _ _ (.single (.handled _ _ _ hhandles.1)) (.handled _ _ _ hhandles.2))
      (happens_restarted "a\\tb")
  refine ⟨.snoc _ _ _ _ hrun (.handled _ _ _ (handles_asked "a\\tb" _).2), fun hholds => ?_⟩
  have hstatus : (asked "a\\tb" namedStore).1.status = .accepted ∧
      (asked "a\\tb" (restartedStore "a\\tb")).1.status = .accepted := by decide +kernel
  have hkey : (parseTaskRequest exampleState (exampleEnv 0) (keyedBody "a\\tb") none).toOption.map
      TaskRequest.idempotency_key = some "a\tb" := by decide +kernel
  obtain ⟨req, hparsed, hkey⟩ := ok_of_toOption hkey
  obtain ⟨task, hfirst⟩ := asks_of_accepted hparsed hstatus.1
  obtain ⟨task', hsecond⟩ := asks_of_accepted hparsed hstatus.2
  have hearlier : askedEvent "a\\tb" namedStore ∈ restartedEvents "a\\tb" := by
    simp [restartedEvents]
  refine hholds.created_once _ hearlier req task req task' hfirst hsecond ?_ rfl
  rw [hkey]
  decide

example : (asked "k" (restartedStore "k")).1.status = .ok ∧
    (asked "a b" (restartedStore "a\\tb")).1.status = .ok ∧
    (asked "a\\tb" (restartedStore "a\\tb")).1.status = .accepted := by decide +kernel

/-- A body that asks for the task of the key `k` with an output limit. -/
def limitedBody (limit : String) : String :=
  "\x7b\"node_id\":\"n1\",\"ability\":\"system.inspect\",\"idempotency_key\":\"k\"," ++
    "\"output_limit\":" ++ limit ++ "\x7d"

/-- A store with that task, limited to two bytes. -/
def limitedStore : Store :=
  (createTaskAs exampleState (exampleEnv 0) (limitedBody "2") none namedStore).2

/-- The key and the limit of a request, and what its lookup finds there. -/
def limitedLookup (limit : String) : Option (String × ℕ × Option (ℕ × Bool)) :=
  (parseTaskRequest exampleState (exampleEnv 0) (limitedBody limit) none).toOption.map fun req =>
    (req.idempotency_key, req.output_limit,
      (limitedStore.tasks.find? fun task => task.idempotency_key == req.idempotency_key).map
        fun existing => (existing.output_limit, sameRequest existing req))

/-- Requests find the task with the same limit and with another one. -/
theorem limitedLookup_found : limitedLookup "2" = some ("k", 2, some (2, true)) ∧
    limitedLookup "1" = some ("k", 1, some (2, true)) := by decide +kernel

/-- The request and the task that it finds. -/
theorem limitedBody_found {limit : String} {n : ℕ}
    (h : limitedLookup limit = some ("k", n, some (2, true))) :
    ∃ req existing, parseTaskRequest exampleState (exampleEnv 0) (limitedBody limit) none =
        .ok req ∧ req.idempotency_key ≠ "" ∧
      limitedStore.tasks.find? (fun task => task.idempotency_key == req.idempotency_key) =
        some existing ∧
      req.output_limit = n ∧ existing.output_limit = 2 ∧ sameRequest existing req = true := by
  obtain ⟨req, hparsed, hread⟩ := ok_of_toOption h
  obtain ⟨hkey, hread⟩ := Prod.mk.inj hread
  obtain ⟨hlimit, hread⟩ := Prod.mk.inj hread
  obtain ⟨existing, hfound, hread⟩ := Option.map_eq_some_iff.mp hread
  obtain ⟨htask, hsame⟩ := Prod.mk.inj hread
  refine ⟨req, existing, hparsed, ?_, hfound, hlimit, htask, hsame⟩
  rw [hkey]
  decide

/-- A request with the task's limit finds it. -/
theorem replays_limited : ∃ req existing,
    Replays limitedStore existing req
      (createTaskAs exampleState (exampleEnv 0) (limitedBody "2") none limitedStore) := by
  obtain ⟨req, existing, hparsed, hkey, hfound, hlimit, htask, -⟩ :=
    limitedBody_found limitedLookup_found.1
  exact ⟨req, existing, (replays_iff hparsed hkey hfound).mpr (.inl (hlimit.trans htask.symm))⟩

/-- So does a request with another limit. -/
theorem output_limit_not_compared : ∃ req existing,
    parseTaskRequest exampleState (exampleEnv 0) (limitedBody "1") none = .ok req ∧
      req.idempotency_key ≠ "" ∧
      limitedStore.tasks.find? (fun task => task.idempotency_key == req.idempotency_key) =
        some existing ∧
      req.output_limit ≠ existing.output_limit ∧
      createTaskAs exampleState (exampleEnv 0) (limitedBody "1") none limitedStore =
        (⟨.ok, .task existing⟩, limitedStore) ∧
      ¬Replays limitedStore existing req
        (createTaskAs exampleState (exampleEnv 0) (limitedBody "1") none limitedStore) := by
  obtain ⟨req, existing, hparsed, hkey, hfound, hlimit, htask, hsame⟩ :=
    limitedBody_found limitedLookup_found.2
  have hne : req.output_limit ≠ existing.output_limit := by
    rw [hlimit, htask]
    decide
  have hreplay := createTaskAs_replays hparsed hkey hfound hsame
  refine ⟨req, existing, hparsed, hkey, hfound, hne, hreplay, fun hreplays => ?_⟩
  have hanswer := hreplays.answer
  rw [hreplay, if_neg fun heq => hne (parameters_eq_iff.mp heq).2] at hanswer
  cases hanswer

end Example

end NodeWe.ControlPlane
