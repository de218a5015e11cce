import NodeWe.NodeRuntime.Execute
import NodeWe.Utf8
import NodeWe.ControlPlane.Render

/-!
# Tasks of the command line

`nodewe task run` runs a command on this machine in the name of a paired node: `run_task` checks the
registry of nodes and the Scope, resolves the command, starts it, waits for it up to a deadline,
and keeps its record and its output in the state directory. `runTaskStart` is the part up to the
child and `finishTask` the part behind it; everything outside the process is a `Host`.
-/

namespace NodeWe.Cli

open Text UnixPath Utf8 NodeRuntime
open ControlPlane (escChar)

/-! ## The host -/

/-- What comes of a child process and of the readers of its pipes. -/
inductive Child
  /-- `try_wait` or `wait` fails. -/
  | lost (error : String)
  /-- The deadline passes before the child ends. -/
  | overran
  /-- The child ends, with an exit code unless a signal ended it, and with what its readers have
  read and whether they have left out some. -/
  | exited (code : Option ℤ) (stdout stderr : Except String (List UInt8 × Bool))

/-- What the operating system answers while a task runs. -/
structure Host where
  fs : FileSystem
  /-- `env::var_os`. -/
  env : String → Option String
  /-- `fs::create_dir_all`. -/
  create_dir_all : String → Except String Unit
  /-- `fs::read_to_string`. -/
  read_to_string : String → Except String String
  /-- `fs::write`. -/
  write : String → String → Except String Unit
  /-- A file opened to append to, and written to. -/
  append : String → String → Except String Unit
  /-- The clock of `now_id`. -/
  nanos : ℕ
  /-- `spawn` and the wait for the child, for at most so many milliseconds. -/
  spawn : Spawn → ℕ → Except String Child

/-- `state_dir`. -/
def stateDir (host : Host) : Except String String := do
  let home := (host.env "NODEWE_HOME").getD
    (((host.env "HOME").map fun home => join home ".nodewe").getD ".nodewe")
  let root := match host.env "NODEWE_PROFILE" with
    | none => home
    | some profile => join (join home "profiles") profile
  match host.create_dir_all (join root "tasks") with
  | .error e => .error ("cannot initialize NodeWe state: " ++ e)
  | .ok _ => .ok root

/-- `now_id`. -/
def nowId (host : Host) (kind : String) : String := kind ++ "_" ++ hex host.nanos

/-- `option`. -/
def option (args : List String) (name : String) : Option String := valueBehind args name

/-- `json_escape`. -/
def jsonEscape (value : String) : String := String.ofList (value.toList.flatMap escChar)

/-! ## The registry of nodes -/

/-- `NodeEntry`. -/
structure NodeEntry where
  id : String
  name : String
  online : Bool
  labels : List String
  deriving DecidableEq

/-- What `parse_labels` makes of its labels one by one. -/
def collectLabels : List String → List (List Char) → Option (List String)
  | labels, [] => some labels
  | labels, raw :: rest =>
    let label := String.ofList (trimChars raw)
    if label = "" then collectLabels labels rest
    else if 64 < len label || !label.toList.all fun c =>
        c.isAlphanum || ['_', '-', '.', ':'].contains c then none
    else collectLabels (if labels.contains label then labels else labels ++ [label]) rest

/-- `parse_labels`. -/
def parseLabels (value : String) : Except String (List String) :=
  okOr (collectLabels [] (value.toList.splitOn ','))
    "labels must be comma-separated safe identifiers"

/-- The entry of a line of the registry, if it is one. -/
def nodeEntryOf (line : List Char) : Option NodeEntry :=
  match (splitN '\t' 4 line).map String.ofList with
  | id :: name :: online :: rest =>
    match parseLabels (rest.headD "") with
    | .ok labels => some ⟨id, name, online = "online", labels⟩
    | .error _ => none
  | _ => none

/-- `read_nodes`. -/
def readNodes (host : Host) (path : String) : Except String (List NodeEntry) := do
  if host.fs.pathExists path then
    let contents ← host.read_to_string path
    .ok ((lines contents.toList).filterMap nodeEntryOf)
  else .ok []

/-! ## Records -/

/-- `state_name`. -/
def stateName : TaskState → String
  | .pending => "Pending"
  | .approved => "Approved"
  | .running => "Running"
  | .succeeded => "Succeeded"
  | .failed => "Failed"
  | .cancelRequested => "CancelRequested"
  | .cancelled => "Cancelled"
  | .timedOut => "TimedOut"

/-- A part of a command, as `persist_task` writes it. -/
def commandPart (part : String) : String :=
  String.ofList (part.toList.flatMap fun c =>
    if c = '\\' then ['\\', '\\'] else if c = '\n' then ['\\', 'n'] else [c])

/-- `persist_task`. -/
def persistTask (host : Host) (dir : String) (record : TaskRecord) (stdout stderr : String) :
    Except String Unit := do
  let task_dir := join dir "tasks"
  host.write (join task_dir (record.id ++ ".stdout")) stdout
  host.write (join task_dir (record.id ++ ".stderr")) stderr
  host.write (join task_dir (record.id ++ ".meta"))
    ("id=" ++ record.id ++ "\nnode_id=" ++ record.node_id.value ++ "\nstate=" ++
      stateName record.state ++ "\ncommand=" ++ " ".intercalate (record.command.map commandPart) ++
      "\n")

/-- `append_audit`. -/
def appendAudit (host : Host) (dir event : String) : Except String Unit :=
  host.append (join dir "audit.jsonl") (event ++ "\n")

/-- `MAX_OUTPUT` of the command line. -/
def maxOutput : ℕ := 1024 * 1024

/-- `truncate`. -/
def truncate (bs : List UInt8) : String := fromUtf8Lossy (bs.take maxOutput)

/-! ## Running -/

/-- A task whose child is about to be started. -/
structure Prepared where
  dir : String
  node_id : String
  timeout_ms : ℕ
  spawn : Spawn
  record : TaskRecord

/-- The deadline of a task, in milliseconds. -/
def timeoutOf (args : List String) : ℕ :=
  ((option args "--timeout-ms").bind fun value => parseUnsigned u64Max value.toList).getD 30000

/-- `run_task`, up to its child. -/
def runTaskStart (host : Host) (args : List String) : Except String Prepared := do
  let dir ← stateDir host
  let node_id ← okOr (option args "--node") "--node is required"
  let scope_path ← okOr (option args "--scope") "--scope is required"
  let timeout_ms := timeoutOf args
  let command ← okOr (behindSeparator args) "use `--` before the command"
  ensure (command ≠ []) "command is required after `--`"
  let nodes ← readNodes host (join dir "nodes.tsv")
  ensure (nodes.any fun entry => entry.id = node_id ∧ entry.online)
    "node is not paired or has been revoked"
  let scope ← Scope.new host.fs scope_path
  let _ ← scope.authorize host.fs "." .execute
  let command ← resolveCommand host.fs command approvedPrograms
  let node ← NodeId.new node_id
  let record ← TaskRecord.new (nowId host "task") node command
  let record ← record.transition .approved
  let record ← record.transition .running
  .ok ⟨dir, node_id, timeout_ms, ⟨command.headD "", command.tail, scope.root⟩, record⟩

/-- What `run_task` leaves: what it has started, the record of the task, and its result with what
it prints. -/
structure TaskRun where
  started : Option Spawn
  record : Option TaskRecord
  result : Except String String

/-- The state of a task whose child has ended. -/
def stateAfter (code : Option ℤ) : TaskState := if code = some 0 then .succeeded else .failed

/-- The event of a task that is stopped at its deadline. -/
def timeoutEvent (task : Prepared) : String :=
  "\x7b\"event\":\"task.timeout\",\"task_id\":\"" ++ task.record.id ++ "\",\"node_id\":\"" ++
    jsonEscape task.node_id ++ "\"\x7d"

/-- The event of a task whose child has ended. -/
def completedEvent (task : Prepared) (code : Option ℤ) : String :=
  "\x7b\"event\":\"task.completed\",\"task_id\":\"" ++ task.record.id ++ "\",\"node_id\":\"" ++
    jsonEscape task.node_id ++ "\",\"result\":\"" ++
    (if code = some 0 then "succeeded" else "failed") ++ "\"\x7d"

/-- What `run_task` prints of a task whose child has ended. -/
def completedLine (task : Prepared) (code : Option ℤ) : String :=
  "\x7b\"task_id\":\"" ++ task.record.id ++ "\",\"node_id\":\"" ++ jsonEscape task.node_id ++
    "\",\"state\":\"" ++ stateName (stateAfter code) ++ "\",\"exit_code\":" ++
    ((code.map fun code => toString code).getD "null") ++ "\x7d\n"

/-- `run_task`, behind its child: the record at the end, and the result. -/
def finishTask (host : Host) (task : Prepared) (child : Child) :
    TaskRecord × Except String String :=
  match child with
  | .lost error => (task.record, .error error)
  | .overran =>
    match task.record.transition .timedOut with
    | .error e => (task.record, .error e)
    | .ok record => (record, do
      persistTask host task.dir record "" "timed out"
      appendAudit host task.dir (timeoutEvent task)
      .error ("task " ++ task.record.id ++ " timed out"))
  | .exited _ (.error e) _ => (task.record, .error e)
  | .exited _ (.ok _) (.error e) => (task.record, .error e)
  | .exited code (.ok stdout) (.ok stderr) =>
    match task.record.transition (stateAfter code) with
    | .error e => (task.record, .error e)
    | .ok record => (record, do
      persistTask host task.dir record (truncate stdout.1) (truncate stderr.1)
      appendAudit host task.dir (completedEvent task code)
      .ok (completedLine task code))

/-- `run_task`. -/
def runTask (host : Host) (args : List String) : TaskRun :=
  match runTaskStart host args with
  | .error e => ⟨none, none, .error e⟩
  | .ok task =>
    match host.spawn task.spawn task.timeout_ms with
    | .error e => ⟨none, some task.record, .error ("cannot start task: " ++ e)⟩
    | .ok child =>
      let (record, result) := finishTask host task child
      ⟨some task.spawn, some record, result⟩

/-! ## What a task reports -/

section Reporting

variable {host : Host} {args : List String} {task : Prepared} {output : String}

/-- A task whose child exits with a failure, and whose record and event are written. -/
structure QuietlyFails (host : Host) (args : List String) (task : Prepared) (code : Option ℤ)
    (stdout stderr : List UInt8 × Bool) : Prop where
  starts : runTaskStart host args = .ok task
  exits : host.spawn task.spawn task.timeout_ms = .ok (.exited code (.ok stdout) (.ok stderr))
  fails : code ≠ some 0
  persists : persistTask host task.dir { task.record with state := .failed } (truncate stdout.1)
    (truncate stderr.1) = .ok ()
  audits : appendAudit host task.dir (completedEvent task code) = .ok ()

/-- A task is running when its child is started. -/
theorem runTaskStart_running (h : runTaskStart host args = .ok task) :
    task.record.state = .running := by
  unfold runTaskStart at h
  simp only [bind_eq_ok_iff] at h
  obtain ⟨dir, -, node_id, -, scope_path, -, command, -, -, -, nodes, -, -, -, scope, -, path, -,
    resolved, -, node, -, record, -, approved, -, running, hrunning, h⟩ := h
  obtain rfl := Except.ok.inj h
  rw [(TaskRecord.transition_eq_ok.mp hrunning).2]

/-- A running task ends as its child does. -/
theorem transition_stateAfter (h : task.record.state = .running) (code : Option ℤ) :
    task.record.transition (stateAfter code) =
      .ok { task.record with state := stateAfter code } := by
  rw [TaskRecord.transition_eq_ok, h]
  refine ⟨?_, rfl⟩
  unfold stateAfter
  split_ifs <;> rfl

/-- `run_task` behind a start. -/
theorem runTask_of_start {child : Child} (h : runTaskStart host args = .ok task)
    (hspawn : host.spawn task.spawn task.timeout_ms = .ok child) :
    runTask host args =
      ⟨some task.spawn, some (finishTask host task child).1, (finishTask host task child).2⟩ := by
  rw [runTask, h]
  dsimp only
  rw [hspawn]

/-- `run_task` succeeds when the child has ended, whatever its exit code is, and its record and
event are written. -/
theorem runTask_ok (h : (runTask host args).result = .ok output) :
    ∃ task code stdout stderr, runTaskStart host args = .ok task ∧
      host.spawn task.spawn task.timeout_ms = .ok (.exited code (.ok stdout) (.ok stderr)) ∧
      (runTask host args).record = some { task.record with state := stateAfter code } ∧
      persistTask host task.dir { task.record with state := stateAfter code } (truncate stdout.1)
        (truncate stderr.1) = .ok () ∧
      appendAudit host task.dir (completedEvent task code) = .ok () := by
  cases htask : runTaskStart host args with
  | error e =>
    rw [runTask, htask] at h
    cases h
  | ok task =>
    cases hspawn : host.spawn task.spawn task.timeout_ms with
    | error e =>
      rw [runTask, htask] at h
      dsimp only at h
      rw [hspawn] at h
      cases h
    | ok child =>
      rw [runTask_of_start htask hspawn] at h ⊢
      dsimp only at h ⊢
      unfold finishTask at h ⊢
      split at h
      · cases h
      · split at h
        · cases h
        · simp only [bind_eq_ok_iff] at h
          obtain ⟨-, -, -, -, h⟩ := h
          cases h
      · cases h
      · cases h
      · next code stdout stderr =>
        rw [transition_stateAfter (runTaskStart_running htask)] at h ⊢
        simp only [bind_eq_ok_iff] at h
        obtain ⟨⟨⟩, hpersist, ⟨⟩, haudit, -⟩ := h
        exact ⟨task, code, stdout, stderr, rfl, hspawn, rfl, hpersist, haudit⟩

/-- A task that fails quietly is recorded as failed and reported as a success. -/
theorem QuietlyFails.run {code : Option ℤ} {stdout stderr : List UInt8 × Bool}
    (h : QuietlyFails host args task code stdout stderr) :
    (runTask host args).record = some { task.record with state := .failed } ∧
      (runTask host args).result = .ok (completedLine task code) := by
  have hstate : stateAfter code = .failed := if_neg h.fails
  have htransition := transition_stateAfter (runTaskStart_running h.starts) code
  rw [runTask_of_start h.starts h.exits, finishTask, htransition, hstate]
  refine ⟨rfl, ?_⟩
  dsimp only
  simp only [bind_eq_ok_iff]
  exact ⟨(), h.persists, (), h.audits, trivial⟩

/-- A task that is recorded as failed and reported as a success has failed quietly. -/
theorem exists_quietlyFails (h : (runTask host args).result = .ok output)
    (hfailed : (runTask host args).record.map TaskRecord.state ≠ some .succeeded) :
    ∃ task code stdout stderr, QuietlyFails host args task code stdout stderr := by
  obtain ⟨task, code, stdout, stderr, htask, hspawn, hrecord, hpersist, haudit⟩ := runTask_ok h
  have hcode : code ≠ some 0 := by
    rintro rfl
    rw [hrecord] at hfailed
    exact hfailed rfl
  have hstate : stateAfter code = .failed := if_neg hcode
  rw [hstate] at hpersist
  exact ⟨task, code, stdout, stderr, htask, hspawn, hcode, hpersist, haudit⟩

end Reporting

/-! ## What is checked before a start -/

section Starting

variable {host : Host} {args command resolved : List String} {node_id scope_path : String}
  {scope : Scope}

/-- A task that passes the checks of `run_task`: its command, with the Scope and the resolved
command that it starts with. -/
structure Admitted (host : Host) (args : List String) (node_id scope_path : String)
    (command resolved : List String) (scope : Scope) : Prop where
  names : option args "--node" = some node_id
  paired : ∃ dir nodes, stateDir host = .ok dir ∧
    readNodes host (join dir "nodes.tsv") = .ok nodes ∧
    nodes.any (fun entry => entry.id = node_id ∧ entry.online) = true
  accepted : nodeIdAccepts node_id = true
  confines : option args "--scope" = some scope_path
  commands : behindSeparator args = some command
  opens : Scope.new host.fs scope_path = .ok scope
  executes : ∃ path, scope.authorize host.fs "." .execute = .ok path
  resolves : resolveCommand host.fs command approvedPrograms = .ok resolved

variable (host) in
/-- A record is made and runs, since the task has an identifier and its program a path. -/
theorem record_running (node : NodeId) {path : String} (arguments : List String)
    (hpath : path ≠ "") :
    TaskRecord.new (nowId host "task") node (path :: arguments) =
        .ok ⟨nowId host "task", node, .pending, path :: arguments⟩ ∧
      nowId host "task" ≠ "" := by
  have hid : nowId host "task" ≠ "" := by
    intro hempty
    have hchars := congrArg String.toList hempty
    simp [nowId] at hchars
  refine ⟨?_, hid⟩
  rw [TaskRecord.new, if_neg]
  simp [hid, hpath]

/-- `run_task` starts the tasks that pass its checks. -/
theorem runTaskStart_ok_iff {spawn : Spawn} :
    (∃ task, runTaskStart host args = .ok task ∧ task.spawn = spawn) ↔
      ∃ node_id scope_path command resolved scope,
        Admitted host args node_id scope_path command resolved scope ∧
          spawn = ⟨resolved.headD "", resolved.tail, scope.root⟩ := by
  constructor
  · rintro ⟨task, htask, rfl⟩
    unfold runTaskStart at htask
    simp only [bind_eq_ok_iff, okOr_eq_ok, ensure_eq_ok] at htask
    obtain ⟨dir, hdir, node_id, hnode, scope_path, hscope_path, command, hcommand, -, -, nodes,
      hnodes, -, hpaired, scope, hscope, path, hpath, resolved, hresolved, node, hid, record, -,
      record', -, record'', -, htask⟩ := htask
    obtain rfl := Except.ok.inj htask
    have haccepted : nodeIdAccepts node_id = true := by
      unfold NodeId.new at hid
      split_ifs at hid with h
      exact h
    exact ⟨node_id, scope_path, command, resolved, scope,
      ⟨hnode, ⟨dir, nodes, hdir, hnodes, hpaired⟩, haccepted, hscope_path, hcommand, hscope,
        ⟨path, hpath⟩, hresolved⟩, rfl⟩
  · rintro ⟨node_id, scope_path, command, resolved, scope, h, rfl⟩
    obtain ⟨dir, nodes, hdir, hnodes, hpaired⟩ := h.paired
    obtain ⟨path, hpath⟩ := h.executes
    obtain ⟨program, arguments, hcommand, -, file, hfile, hname⟩ := resolveCommand_ok h.resolves
    have hne : file ≠ "" := by
      rintro rfl
      cases hname
    obtain ⟨hrecord, -⟩ := record_running host ⟨node_id, h.accepted⟩ arguments hne
    have hnonempty : command ≠ [] := by rw [hcommand]; exact List.cons_ne_nil _ _
    rw [← hfile] at hrecord
    refine ⟨⟨dir, node_id, timeoutOf args, ⟨resolved.headD "", resolved.tail, scope.root⟩,
      ⟨nowId host "task", ⟨node_id, h.accepted⟩, .running, resolved⟩⟩, ?_, rfl⟩
    simp only [runTaskStart, bind_eq_ok_iff, okOr_eq_ok, ensure_eq_ok]
    exact ⟨dir, hdir, node_id, h.names, scope_path, h.confines, command, h.commands, (),
      hnonempty, nodes, hnodes, (), hpaired, scope, h.opens, path, hpath, resolved, h.resolves,
      ⟨node_id, h.accepted⟩, dif_pos h.accepted, _, hrecord, _, rfl, _, rfl, rfl⟩

/-- `execute` and `run` start what `run_task` starts when its arguments are within the Scope. -/
theorem agent_starts_iff (h : Admitted host ("run" :: args) node_id scope_path command resolved
    scope) :
    executeStart host.fs command scope_path =
          .ok ⟨resolved.headD "", resolved.tail, scope.root⟩ ∧
        runStart host.fs ("run" :: args) = .ok ⟨resolved.headD "", resolved.tail, scope.root⟩ ↔
      ArgumentsWithin host.fs scope command := by
  obtain ⟨path, hpath⟩ := h.executes
  have hexecute : executeStart host.fs command scope_path =
      .ok ⟨resolved.headD "", resolved.tail, scope.root⟩ ↔
        ArgumentsWithin host.fs scope command := by
    rw [← validateCommandArguments_ok_iff h.resolves]
    simp only [executeStart, bind_eq_ok_iff]
    constructor
    · rintro ⟨scope', hopens, path', -, resolved', hresolves, ⟨⟩, hvalid, -⟩
      obtain rfl := Except.ok.inj (h.opens.symm.trans hopens)
      obtain rfl := Except.ok.inj (h.resolves.symm.trans hresolves)
      exact hvalid
    · intro hvalid
      exact ⟨scope, h.opens, path, hpath, resolved, h.resolves, (), hvalid, rfl⟩
  have hrun : runStart host.fs ("run" :: args) = executeStart host.fs command scope_path := by
    obtain ⟨program, arguments, hcommand, -⟩ := resolveCommand_ok h.resolves
    have hgiven := h.commands
    have hscoped : valueBehind ("run" :: args) "--scope" = some scope_path := h.confines
    unfold runStart executeStart
    rw [if_pos List.head?_cons, hscoped, hgiven, hcommand]
  rw [hrun, and_self, hexecute]

/-- What `run_task` starts, `execute` and `run` would start in the same directory. -/
def StartsAsAgent (host : Host) (args : List String) : Prop :=
  ∀ task, runTaskStart host args = .ok task →
    ∃ command scope_path, behindSeparator args = some command ∧
      option args "--scope" = some scope_path ∧
      executeStart host.fs command scope_path = .ok task.spawn ∧
      runStart host.fs args = .ok task.spawn

/-- **The command line starts what the agent would start exactly when the arguments of `cat` and
`ls` are within the Scope.** -/
theorem starts_as_agent_iff (host : Host) (args : List String) :
    StartsAsAgent host ("run" :: args) ↔
      ∀ node_id scope_path command resolved scope,
        Admitted host ("run" :: args) node_id scope_path command resolved scope →
          ArgumentsWithin host.fs scope command := by
  constructor
  · intro hstarts node_id scope_path command resolved scope h
    obtain ⟨task, htask, hspawn⟩ :=
      runTaskStart_ok_iff.mpr ⟨node_id, scope_path, command, resolved, scope, h, rfl⟩
    obtain ⟨command', scope_path', hcommand, hscope_path, hagent⟩ := hstarts task htask
    obtain rfl := Option.some.inj (h.commands.symm.trans hcommand)
    obtain rfl := Option.some.inj (h.confines.symm.trans hscope_path)
    rw [hspawn] at hagent
    exact (agent_starts_iff h).mp hagent
  · intro hwithin task htask
    obtain ⟨node_id, scope_path, command, resolved, scope, h, hspawn⟩ :=
      runTaskStart_ok_iff.mp ⟨task, htask, rfl⟩
    rw [hspawn]
    exact ⟨command, scope_path, h.commands, h.confines,
      (agent_starts_iff h).mpr (hwithin node_id scope_path command resolved scope h)⟩

end Starting

section Example

/-- A host with the paired node `n1` and the directory `/srv/scope`, where no path is a link. -/
def plainHost : Host where
  fs :=
    { isDir := fun path => path = "/srv/scope"
      isFile := fun path => path = "/usr/bin/cat"
      pathExists := fun _ => true
      canonicalize := fun path => some (if path = "/srv/scope/." then "/srv/scope" else path)
      symlinkMetadata := fun _ => some false }
  env := fun _ => none
  create_dir_all := fun _ => .ok ()
  read_to_string := fun _ => .ok "n1\tn1\tonline\t\n"
  write := fun _ _ => .ok ()
  append := fun _ _ => .ok ()
  nanos := 0
  spawn := fun _ _ => .ok (.exited (some 0) (.ok ([], false)) (.ok ([], false)))

/-- A task that reads a file outside its Scope. -/
def straying : List String :=
  ["run", "--node", "n1", "--scope", "/srv/scope", "--", "cat", "/etc/passwd"]

/-- The command line starts the task, and the agent refuses its argument. -/
theorem straying_starts :
    (runTask plainHost straying).started = some ⟨"/usr/bin/cat", ["/etc/passwd"], "/srv/scope"⟩ ∧
      executeStart plainHost.fs ["cat", "/etc/passwd"] "/srv/scope" =
        .error "path is outside the scope" ∧
      ¬StartsAsAgent plainHost straying := by
  have hfacts : (runTask plainHost straying).started =
        some ⟨"/usr/bin/cat", ["/etc/passwd"], "/srv/scope"⟩ ∧
      executeStart plainHost.fs ["cat", "/etc/passwd"] "/srv/scope" =
        .error "path is outside the scope" ∧
      runStart plainHost.fs straying = .error "path is outside the scope" := by
    decide +kernel
  obtain ⟨hstarted, hexecute, hrun⟩ := hfacts
  refine ⟨hstarted, hexecute, fun hstarts => ?_⟩
  cases htask : runTaskStart plainHost straying with
  | error e =>
    rw [runTask, htask] at hstarted
    cases hstarted
  | ok task =>
    obtain ⟨command, scope_path, -, -, -, hagent⟩ := hstarts task htask
    rw [hrun] at hagent
    cases hagent

end Example

end NodeWe.Cli
