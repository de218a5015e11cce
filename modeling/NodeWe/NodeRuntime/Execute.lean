import NodeWe.NodeRuntime.Scope

/-!
# Starting a task on the agent

The agent has two ways to a child process, `execute` for the tasks of the control plane and `run`
for its own command line. Both check the Scope, resolve the command and check its arguments, in
that order, before anything is started; `executeStart` and `runStart` are these parts, up to the
call of `spawn`.
-/

namespace NodeWe.NodeRuntime

open Text UnixPath

/-! ## Arguments -/

/-- The value behind a name, in the first place where the name is not the last argument:
`args.windows(2)`, searched for the name. -/
def valueBehind (args : List String) (name : String) : Option String :=
  ((args.zip args.tail).find? fun pair => pair.1 = name).map Prod.snd

/-- The arguments behind the first `--`. -/
def behindSeparator (args : List String) : Option (List String) :=
  (args.findIdx? (· = "--")).map fun separator => args.drop (separator + 1)

/-! ## Starting -/

/-- The programs that both ways allow. -/
def approvedPrograms : List String := ["echo", "pwd", "ls", "cat", "printf", "uname"]

/-- What `spawn` is called with. -/
structure Spawn where
  program : String
  arguments : List String
  current_dir : String
  deriving DecidableEq

/-- The body of the loop of `validate_command_arguments`. -/
def validateArgument (fs : FileSystem) (scope : Scope) (argument : String) :
    Except String Unit := do
  if argument = "" ∨ startsWith argument "-" = true then
    .error "command options are not allowed; use a Scope-relative path"
  else
    let _ ← scope.authorize fs argument .read
    .ok ()

/-- The loop of `validate_command_arguments`. -/
def validateArguments (fs : FileSystem) (scope : Scope) : List String → Except String Unit
  | [] => .ok ()
  | argument :: rest => do
    validateArgument fs scope argument
    validateArguments fs scope rest

/-- `validate_command_arguments`. -/
def validateCommandArguments (fs : FileSystem) (command : List String) (scope : Scope) :
    Except String Unit :=
  match command.head?.bind fileName with
  | none => .error "invalid command"
  | some program =>
    if program = "cat" ∧ command.length = 1 then
      .error "cat requires an explicit Scope-relative path"
    else if program = "cat" ∨ program = "ls" then validateArguments fs scope command.tail
    else .ok ()

/-- `execute`, up to its child. -/
def executeStart (fs : FileSystem) (command : List String) (scope_path : String) :
    Except String Spawn := do
  let scope ← Scope.new fs scope_path
  let _ ← scope.authorize fs "." .execute
  let command ← resolveCommand fs command approvedPrograms
  validateCommandArguments fs command scope
  .ok ⟨command.headD "", command.tail, scope.root⟩

/-- `run`, up to its child. -/
def runStart (fs : FileSystem) (args : List String) : Except String Spawn := do
  if args.head? = some "run" then
    match valueBehind args "--scope" with
    | none => .error "--scope is required"
    | some scope_path =>
      match behindSeparator args with
      | none => .error "use `--` before the command"
      | some [] => .error "command is required"
      | some command =>
        let scope ← Scope.new fs scope_path
        let _ ← scope.authorize fs "." .execute
        let command ← resolveCommand fs command approvedPrograms
        validateCommandArguments fs command scope
        .ok ⟨command.headD "", command.tail, scope.root⟩
  else .error "usage: node-runtime run --scope <path> -- <command>"

/-! ## What starts -/

section Starting

variable {fs : FileSystem} {scope : Scope} {command resolved : List String} {scope_path : String}

/-- An argument that names a path which the Scope lets be read. -/
def ReadsWithin (fs : FileSystem) (scope : Scope) (argument : String) : Prop :=
  argument ≠ "" ∧ startsWith argument "-" = false ∧
    ∃ path, scope.authorize fs argument .read = .ok path

/-- The arguments of `cat` and `ls` are paths within the Scope, and `cat` has one. -/
def ArgumentsWithin (fs : FileSystem) (scope : Scope) (command : List String) : Prop :=
  (command.head? = some "cat" → command.tail ≠ []) ∧
    (command.head? = some "cat" ∨ command.head? = some "ls" →
      ∀ argument ∈ command.tail, ReadsWithin fs scope argument)

/-- One argument is accepted when it names a path within the Scope. -/
theorem validateArgument_ok_iff {argument : String} :
    validateArgument fs scope argument = .ok () ↔ ReadsWithin fs scope argument := by
  unfold validateArgument ReadsWithin
  by_cases hoption : argument = "" ∨ startsWith argument "-" = true
  · rw [if_pos hoption]
    refine iff_of_false (fun h => by cases h) ?_
    rintro ⟨hne, hdash, -⟩
    rcases hoption with hempty | hstarts
    · exact hne hempty
    · rw [hdash] at hstarts
      cases hstarts
  · rw [if_neg hoption]
    rw [not_or, Bool.not_eq_true] at hoption
    cases hread : scope.authorize fs argument .read with
    | error e => exact iff_of_false (fun h => by cases h) (by simp)
    | ok path => exact iff_of_true rfl ⟨hoption.1, hoption.2, path, rfl⟩

/-- The loop accepts what it accepts one by one. -/
theorem validateArguments_ok_iff {arguments : List String} :
    validateArguments fs scope arguments = .ok () ↔
      ∀ argument ∈ arguments, ReadsWithin fs scope argument := by
  induction arguments with
  | nil => simp [validateArguments]
  | cons argument rest ih =>
    rw [List.forall_mem_cons, ← ih, ← validateArgument_ok_iff, validateArguments]
    cases validateArgument fs scope argument with
    | error e => exact iff_of_false (fun h => by cases h) (fun h => by cases h.1)
    | ok _ => exact (and_iff_right rfl).symm

/-- An accepted command is the name of an approved program with its arguments. -/
theorem validateCommand_ok {allowlist : List String}
    (h : validateCommand command allowlist = .ok ()) :
    ∃ program arguments, command = program :: arguments ∧ program ∈ allowlist ∧
      '/' ∉ program.toList ∧ program ≠ "" ∧ program ≠ "." ∧ program ≠ ".." := by
  unfold validateCommand at h
  split at h
  · cases h
  · next program arguments =>
    split_ifs at h with hpath
    rw [Bool.or_eq_true, not_or] at hpath
    have hslash : '/' ∉ program.toList := by simpa using hpath.1
    split at h
    · cases h
    · next basename hname =>
      split_ifs at h with hallowed
      obtain ⟨rfl, hne⟩ := fileName_single hslash hname
      exact ⟨_, arguments, rfl, by simpa using hallowed, hslash, hne⟩

/-- A resolved command is the command with the program's path in a trusted directory. -/
theorem resolveCommand_ok {allowlist : List String}
    (h : resolveCommand fs command allowlist = .ok resolved) :
    ∃ program arguments, command = program :: arguments ∧ program ∈ allowlist ∧
      ∃ path, resolved = path :: arguments ∧ fileName path = some program := by
  obtain ⟨⟨⟩, hvalid, h⟩ := bind_eq_ok h
  obtain ⟨program, arguments, rfl, hallowed, hslash, hne⟩ := validateCommand_ok hvalid
  split at h
  · next path hfound =>
    obtain rfl := Except.ok.inj h
    obtain ⟨directory, hdirectory, rfl⟩ := List.mem_map.mp (List.mem_of_find?_eq_some hfound)
    refine ⟨program, arguments, rfl, hallowed, _, rfl, ?_⟩
    have habsolute : ∃ rest, directory = String.ofList ('/' :: rest) := by
      simp only [trustedDirectories, List.mem_cons, List.not_mem_nil, or_false] at hdirectory
      rcases hdirectory with rfl | rfl | rfl | rfl <;> exact ⟨_, rfl⟩
    obtain ⟨rest, rfl⟩ := habsolute
    exact fileName_join rest hslash hne
  · cases h

/-- The program of a resolved command is the one that was asked for. -/
theorem validateCommandArguments_ok_iff {allowlist : List String}
    (h : resolveCommand fs command allowlist = .ok resolved) :
    validateCommandArguments fs resolved scope = .ok () ↔ ArgumentsWithin fs scope command := by
  obtain ⟨program, arguments, rfl, -, path, rfl, hname⟩ := resolveCommand_ok h
  unfold validateCommandArguments ArgumentsWithin
  rw [List.head?_cons, Option.bind_some, hname]
  simp only [List.head?_cons, Option.some.injEq, List.tail_cons, List.length_cons]
  by_cases hcat : program = "cat"
  · by_cases hnone : arguments = []
    · rw [if_pos ⟨hcat, by rw [hnone]; rfl⟩]
      exact iff_of_false (fun h => by cases h) fun h => h.1 hcat hnone
    · have hlength : arguments.length + 1 ≠ 1 := by
        have hpos := List.length_pos_iff.mpr hnone
        omega
      rw [if_neg fun h => hlength h.2, if_pos (.inl hcat), validateArguments_ok_iff]
      exact ⟨fun h => ⟨fun _ => hnone, fun _ => h⟩, fun h => h.2 (.inl hcat)⟩
  · rw [if_neg fun h => hcat h.1]
    by_cases hls : program = "ls"
    · rw [if_pos (.inr hls), validateArguments_ok_iff]
      exact ⟨fun h => ⟨fun hcat' => absurd hcat' hcat, fun _ => h⟩, fun h => h.2 (.inr hls)⟩
    · have hneither : ¬(program = "cat" ∨ program = "ls") := not_or.mpr ⟨hcat, hls⟩
      rw [if_neg hneither]
      exact iff_of_true rfl ⟨fun h => absurd h hcat, fun h => absurd h hneither⟩

end Starting

end NodeWe.NodeRuntime
