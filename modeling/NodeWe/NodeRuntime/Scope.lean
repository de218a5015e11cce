import NodeWe.UnixPath

/-!
# Scopes and approved commands

The library that the agent and the command line share: identifiers of nodes, the directory that a
task is confined to, the states of a task's record, and the list of commands that may be run. The
file system is outside; a `FileSystem` is what its queries answer while a function runs.
-/

namespace NodeWe.NodeRuntime

open Text UnixPath

/-! ## Nodes and their tasks -/

/-- The identifiers that `NodeId::new` accepts. -/
def nodeIdAccepts (value : String) : Bool :=
  value ≠ "" && len value ≤ 128 &&
    value.toList.all fun c =>
      isAsciiGraphic c && !(['/', '\\', '?', '&', '=', '#', '%'].contains c)

/-- `NodeId`. -/
structure NodeId where
  value : String
  accepted : nodeIdAccepts value = true

/-- `NodeId::new`. -/
def NodeId.new (value : String) : Except String NodeId :=
  if h : nodeIdAccepts value = true then .ok ⟨value, h⟩ else .error "invalid node id"

/-- `TaskState`. -/
inductive TaskState
  | pending
  | approved
  | running
  | succeeded
  | failed
  | cancelRequested
  | cancelled
  | timedOut
  deriving DecidableEq

/-- `TaskState::can_transition_to`. -/
def TaskState.canTransitionTo : TaskState → TaskState → Bool
  | .pending, .approved => true
  | .pending, .cancelRequested => true
  | .approved, .running => true
  | .approved, .cancelRequested => true
  | .running, .succeeded => true
  | .running, .failed => true
  | .running, .cancelRequested => true
  | .running, .timedOut => true
  | .cancelRequested, .cancelled => true
  | _, _ => false

/-- `TaskRecord`. -/
structure TaskRecord where
  id : String
  node_id : NodeId
  state : TaskState
  command : List String

/-- `TaskRecord::new`. -/
def TaskRecord.new (id : String) (node_id : NodeId) (command : List String) :
    Except String TaskRecord :=
  if id = "" ∨ command = [] ∨ command.headD "" = "" then .error "task id and command are required"
  else .ok ⟨id, node_id, .pending, command⟩

/-- `TaskRecord::transition`. -/
def TaskRecord.transition (record : TaskRecord) (next : TaskState) : Except String TaskRecord :=
  if record.state.canTransitionTo next then .ok { record with state := next }
  else .error "invalid task state transition"

/-- A transition changes the state, to one that the state allows. -/
theorem TaskRecord.transition_eq_ok {record new : TaskRecord} {next : TaskState} :
    record.transition next = .ok new ↔
      record.state.canTransitionTo next = true ∧ new = { record with state := next } := by
  unfold TaskRecord.transition
  by_cases h : record.state.canTransitionTo next = true
  · rw [if_pos h]
    exact ⟨fun hnew => ⟨h, (Except.ok.inj hnew).symm⟩, fun hnew => by rw [hnew.2]⟩
  · rw [if_neg h]
    exact iff_of_false (fun hnew => by cases hnew) fun hnew => h hnew.1

/-! ## Scopes -/

/-- What the file system answers about a path. -/
structure FileSystem where
  /-- `Path::is_dir`. -/
  isDir : String → Bool
  /-- `Path::is_file`. -/
  isFile : String → Bool
  /-- `Path::exists`. -/
  pathExists : String → Bool
  /-- `Path::canonicalize`, where it does not fail. -/
  canonicalize : String → Option String
  /-- Whether `symlink_metadata` is that of a symbolic link, where it does not fail. -/
  symlinkMetadata : String → Option Bool

/-- `Operation`. -/
inductive Operation
  | read
  | write
  | execute
  | delete
  deriving DecidableEq

/-- `Scope`. -/
structure Scope where
  root : String

/-- `Scope::new`. -/
def Scope.new (fs : FileSystem) (root : String) : Except String Scope :=
  if fs.isDir root then
    match fs.canonicalize root with
    | none => .error "scope root is not accessible"
    | some root => .ok ⟨root⟩
  else .error "scope root must be an existing directory"

/-- The loop of `reject_symlink_components`. Each round takes a component off the path, so the
length of the path bounds the rounds. -/
def Scope.rejectFrom (fs : FileSystem) (scope : Scope) : ℕ → String → Except String Unit
  | 0, _ => .ok ()
  | rounds + 1, current =>
    if fs.symlinkMetadata current = some true then
      .error "symlink paths are not allowed in the scope"
    else if samePath current scope.root then .ok ()
    else
      match parent current with
      | none => .ok ()
      | some above => scope.rejectFrom fs rounds above

/-- The loop does not depend on the rounds when there are enough of them. -/
theorem Scope.rejectFrom_rounds (fs : FileSystem) (scope : Scope) {rounds rounds' : ℕ}
    {current : String} (h : current.length < rounds) (h' : current.length < rounds') :
    scope.rejectFrom fs rounds current = scope.rejectFrom fs rounds' current := by
  induction rounds generalizing rounds' current with
  | zero => omega
  | succ rounds ih =>
    obtain ⟨rounds', rfl⟩ : ∃ r, rounds' = r + 1 := ⟨rounds' - 1, by omega⟩
    rw [rejectFrom, rejectFrom]
    cases hparent : parent current with
    | none => rfl
    | some above =>
      have hlt := parent_length_lt hparent
      have hrest : scope.rejectFrom fs rounds above = scope.rejectFrom fs rounds' above :=
        ih (by omega) (by omega)
      dsimp only
      rw [hrest]

/-- `Scope::reject_symlink_components`. -/
def Scope.rejectSymlinkComponents (fs : FileSystem) (scope : Scope) (candidate : String) :
    Except String Unit :=
  scope.rejectFrom fs (candidate.length + 1) candidate

/-- The check goes up to the parent until it is done, for as many rounds as that takes. -/
theorem Scope.rejectSymlinkComponents_eq (fs : FileSystem) (scope : Scope) (current : String) :
    scope.rejectSymlinkComponents fs current =
      if fs.symlinkMetadata current = some true then
        .error "symlink paths are not allowed in the scope"
      else if samePath current scope.root then .ok ()
      else
        match parent current with
        | none => .ok ()
        | some above => scope.rejectSymlinkComponents fs above := by
  rw [rejectSymlinkComponents, rejectFrom]
  cases hparent : parent current with
  | none => rfl
  | some above =>
    have hlt := parent_length_lt hparent
    have hrest : scope.rejectFrom fs current.length above =
        scope.rejectSymlinkComponents fs above :=
      scope.rejectFrom_rounds fs hlt (Nat.lt_succ_self _)
    dsimp only
    rw [hrest]

/-- The path that a candidate stands for: it exists, or its parent does. -/
def resolveCandidate (fs : FileSystem) (candidate : String) : Except String String :=
  if fs.pathExists candidate then
    match fs.canonicalize candidate with
    | none => .error "path is not accessible"
    | some resolved => .ok resolved
  else
    match parent candidate with
    | none => .error "invalid path"
    | some above =>
      match fs.canonicalize above with
      | none => .error "parent path is not accessible"
      | some directory =>
        match fileName candidate with
        | none => .error "invalid path"
        | some name => .ok (join directory name)

/-- `Scope::resolve`. -/
def Scope.resolve (fs : FileSystem) (scope : Scope) (requested : String) :
    Except String String := do
  let candidate := if isAbsolute requested then requested else join scope.root requested
  scope.rejectSymlinkComponents fs candidate
  let resolved ← resolveCandidate fs candidate
  if samePath resolved scope.root || startsWithPath resolved scope.root then .ok resolved
  else .error "path is outside the scope"

/-- `Scope::authorize`. -/
def Scope.authorize (fs : FileSystem) (scope : Scope) (requested : String)
    (operation : Operation) : Except String String := do
  let path ← scope.resolve fs requested
  if operation = .delete ∧ samePath path scope.root then
    .error "deleting the scope root is not allowed"
  else .ok path

/-! ## Approved commands -/

/-- `validate_command`. -/
def validateCommand (command allowlist : List String) : Except String Unit :=
  match command with
  | [] => .error "command is required"
  | program :: _ =>
    if program.toList.contains '/' || program.toList.contains '\\' then
      .error "command paths are not allowed; use an approved executable name"
    else
      match fileName program with
      | none => .error "invalid command"
      | some basename =>
        if allowlist.contains basename then .ok ()
        else .error "command is not allowed by policy"

/-- The directories that `resolve_command` looks into. -/
def trustedDirectories : List String :=
  ["/usr/bin", "/bin", "/usr/local/bin", "/opt/homebrew/bin"]

/-- `resolve_command`. -/
def resolveCommand (fs : FileSystem) (command allowlist : List String) :
    Except String (List String) := do
  validateCommand command allowlist
  match (trustedDirectories.map fun directory => join directory (command.headD "")).find?
      fs.isFile with
  | some candidate => .ok (candidate :: command.tail)
  | none => .error "approved executable is not installed in a trusted system directory"

end NodeWe.NodeRuntime
