import NodeWe.Cli.Group

/-!
# Options and the command behind them

`nodewe task run`, `nodewe group run` and the agent's `run` take options, `--` and a command. The
separator is searched for, and so are the options, each in all of the arguments: an option that is
not given in front of the separator is looked for in the command. `TaskOptions`, `GroupOptions` and
`AgentOptions` are what the three read besides the command.
-/

namespace NodeWe.Cli

open Text UnixPath NodeRuntime

/-! ## What is read of the arguments -/

/-- The options of `run_task`. -/
structure TaskOptions where
  node_id : Option String
  scope_path : Option String
  timeout_ms : ℕ

/-- The options that `run_task` reads. -/
def taskOptions (args : List String) : TaskOptions :=
  ⟨option args "--node", option args "--scope", timeoutOf args⟩

/-- The options of the agent's `run`. -/
structure AgentOptions where
  scope_path : Option String
  timeout_ms : ℕ

/-- The options that the agent's `run` reads. -/
def agentOptions (args : List String) : AgentOptions :=
  ⟨valueBehind args "--scope", timeoutOf args⟩

/-- The options of `run_group`, with those of the task that is run for a node. -/
structure GroupOptions where
  group_id : Option String
  scope_path : Option String
  max_concurrency : ℕ
  failure_policy : String
  task : String → Option TaskOptions

/-- The arguments that `run_group` calls `run_task` with. -/
def taskArgsOf (node scope_path : String) (command : List String) : List String :=
  ["run", "--node", node, "--scope", scope_path] ++ "--" :: command

/-- The options that `run_group` reads. -/
def groupOptions (args : List String) : GroupOptions where
  group_id := (option args "--group").or args[1]?
  scope_path := option args "--scope"
  max_concurrency := maxConcurrency args
  failure_policy := (option args "--failure-policy").getD "stop"
  task := fun node => (option args "--scope").map fun scope_path =>
    taskOptions (taskArgsOf node scope_path ((behindSeparator args).getD []))

variable {host : Host} {args : List String}

/-- A prepared task has the options that are read of its arguments. -/
theorem runTaskStart_options {task : Prepared} (h : runTaskStart host args = .ok task) :
    (taskOptions args).node_id = some task.node_id ∧
      (taskOptions args).timeout_ms = task.timeout_ms ∧
      ∃ scope_path scope, (taskOptions args).scope_path = some scope_path ∧
        Scope.new host.fs scope_path = .ok scope ∧ task.spawn.current_dir = scope.root := by
  unfold runTaskStart at h
  simp only [bind_eq_ok_iff, okOr_eq_ok] at h
  obtain ⟨dir, -, node_id, hnode, scope_path, hpath, command, -, -, -, nodes, -, -, -, scope,
    hscope, path, -, resolved, -, node, -, record, -, approved, -, running, -, h⟩ := h
  obtain rfl := Except.ok.inj h
  exact ⟨hnode, rfl, scope_path, scope, hpath, hscope, rfl⟩

/-- A started child of the agent runs in the Scope that is read of its arguments. -/
theorem runStart_options {fs : FileSystem} {spawn : Spawn} (h : runStart fs args = .ok spawn) :
    ∃ scope_path scope, (agentOptions args).scope_path = some scope_path ∧
      Scope.new fs scope_path = .ok scope ∧ spawn.current_dir = scope.root := by
  unfold runStart at h
  split_ifs at h with hrun
  split at h
  · cases h
  · next scope_path hpath =>
    split at h
    · cases h
    · cases h
    · simp only [bind_eq_ok_iff] at h
      obtain ⟨scope, hscope, path, -, resolved, -, -, -, h⟩ := h
      obtain rfl := Except.ok.inj h
      exact ⟨scope_path, scope, hpath, hscope, rfl⟩

/-- A plan has the options that are read of the arguments, and so have its tasks. -/
theorem planGroupRun_options {plan : GroupRun} (h : planGroupRun host args = .ok plan) :
    (groupOptions args).group_id = some plan.group_id ∧
      (groupOptions args).scope_path = some plan.scope_path ∧
      (groupOptions args).max_concurrency = plan.max_concurrency ∧
      (groupOptions args).failure_policy = plan.failure_policy ∧
      ∀ node, (groupOptions args).task node = some (taskOptions (plan.taskArgs node)) := by
  simp only [planGroupRun, bind_eq_ok_iff, okOr_eq_ok] at h
  obtain ⟨group_id, hgroup, scope_path, hscope, -, -, command, hcommand, -, -, dir, -, groups, -,
    group, -, -, -, h⟩ := h
  obtain rfl := Except.ok.inj h
  refine ⟨hgroup, hscope, rfl, rfl, fun node => ?_⟩
  rw [groupOptions]
  dsimp only
  rw [hscope, hcommand]
  rfl

/-! ## Where an option is found -/

/-- The value behind the first argument, or behind a later one. -/
theorem valueBehind_cons (first second : String) (rest : List String) (name : String) :
    valueBehind (first :: second :: rest) name =
      if first = name then some second else valueBehind (second :: rest) name := by
  unfold valueBehind
  rw [List.tail_cons, List.zip_cons_cons, List.find?_cons]
  by_cases h : first = name
  · simp [h]
  · simp [h]

/-- A name in front of the separator has one value, whatever the command is. -/
theorem valueBehind_of_mem {pre : List String} {name : String} (h : name ∈ pre) :
    ∃ value, ∀ command, valueBehind (pre ++ "--" :: command) name = some value := by
  induction pre with
  | nil => exact absurd h List.not_mem_nil
  | cons first rest ih =>
    have hnext : ∃ second others, ∀ command,
        rest ++ "--" :: command = second :: (others ++ command) := by
      cases rest with
      | nil => exact ⟨"--", [], fun _ => rfl⟩
      | cons second others => exact ⟨second, others ++ ["--"], fun command => by simp⟩
    obtain ⟨second, others, hcons⟩ := hnext
    by_cases hfirst : first = name
    · refine ⟨second, fun command => ?_⟩
      rw [List.cons_append, hcons, valueBehind_cons, if_pos hfirst]
    · obtain ⟨value, hvalue⟩ := ih ((List.mem_cons.mp h).resolve_left (Ne.symm hfirst))
      refine ⟨value, fun command => ?_⟩
      rw [List.cons_append, hcons, valueBehind_cons, if_neg hfirst, ← hcons, hvalue]

/-- A name that is not in front of the separator is looked for in the command. -/
theorem valueBehind_of_not_mem {pre : List String} {name : String} (h : name ∉ pre)
    (hname : name ≠ "--") (first : String) (command : List String) :
    valueBehind (pre ++ "--" :: first :: command) name = valueBehind (first :: command) name := by
  induction pre with
  | nil => rw [List.nil_append, valueBehind_cons, if_neg hname.symm]
  | cons arg rest ih =>
    rw [List.mem_cons, not_or] at h
    cases rest with
    | nil =>
      rw [List.cons_append, List.nil_append, valueBehind_cons, if_neg (Ne.symm h.1)]
      exact ih h.2
    | cons second others =>
      rw [List.cons_append, List.cons_append, valueBehind_cons, if_neg (Ne.symm h.1)]
      exact ih h.2

/-- The command is what stands behind the first separator. -/
theorem behindSeparator_append {pre : List String} (h : "--" ∉ pre) (command : List String) :
    behindSeparator (pre ++ "--" :: command) = some command := by
  have hindex : (pre ++ "--" :: command).findIdx? (· = "--") = some pre.length := by
    rw [List.findIdx?_append, List.findIdx?_eq_none_iff.mpr]
    · simp [List.findIdx?_cons]
    · intro arg harg
      exact decide_eq_false fun heq => h (heq ▸ harg)
  rw [behindSeparator, hindex, Option.map_some]
  simp

/-! ## Options that the command does not change -/

/-- What is read of some arguments in front of the separator and of a command behind it is the same
for every command. -/
def Apart {α : Type} (used : List String → α) (pre : List String) : Prop :=
  ∀ command other, command ≠ [] → other ≠ [] →
    used (pre ++ "--" :: command) = used (pre ++ "--" :: other)

variable {α : Type} {pre : List String}

/-- One option is read apart from the command exactly when it is given in front of the separator,
where two of its values are read differently. -/
theorem apart_option_iff {name : String} (hname : name ≠ "--")
    (read : Option String → List String → α) (v w : String)
    (hread : ∀ args others, read (some v) args ≠ read (some w) others)
    (hsome : ∀ value args others, read (some value) args = read (some value) others) :
    Apart (fun args => read (option args name) args) pre ↔ name ∈ pre := by
  constructor
  · intro hapart
    by_contra hpre
    have hvalue (value : String) : option (pre ++ "--" :: [name, value]) name = some value := by
      rw [option, valueBehind_of_not_mem hpre hname, valueBehind_cons, if_pos rfl]
    have heq := hapart [name, v] [name, w] (List.cons_ne_nil _ _) (List.cons_ne_nil _ _)
    dsimp only at heq
    rw [hvalue, hvalue] at heq
    exact hread _ _ heq
  · intro hpre command other _ _
    obtain ⟨value, hvalue⟩ := valueBehind_of_mem hpre
    show read (valueBehind _ _) _ = read (valueBehind _ _) _
    rw [hvalue, hvalue]
    exact hsome value _ _

/-- The deadline is read apart from the command when it is given in front of the separator. -/
theorem apart_timeoutOf_iff : Apart timeoutOf pre ↔ "--timeout-ms" ∈ pre := by
  refine apart_option_iff (by decide) (fun value _ => (value.bind fun value =>
    parseUnsigned u64Max value.toList).getD 30000) "1" "2" ?_ ?_
  · intro _ _
    decide
  · intro _ _ _
    rfl

/-- A plain option is read apart from the command when it is given in front of the separator. -/
theorem apart_plain_iff {name : String} (hname : name ≠ "--") :
    Apart (fun args => option args name) pre ↔ name ∈ pre := by
  refine apart_option_iff hname (fun value _ => value) "1" "2" ?_ ?_
  · intro _ _
    decide
  · intro _ _ _
    rfl

/-- `run_task` reads its options apart from the command when all three are given. -/
theorem apart_taskOptions_iff :
    Apart taskOptions pre ↔ "--node" ∈ pre ∧ "--scope" ∈ pre ∧ "--timeout-ms" ∈ pre := by
  have hnode : Apart (fun args => option args "--node") pre ↔ "--node" ∈ pre :=
    apart_plain_iff (by decide)
  have hscope : Apart (fun args => option args "--scope") pre ↔ "--scope" ∈ pre :=
    apart_plain_iff (by decide)
  rw [← hnode, ← hscope, ← apart_timeoutOf_iff]
  constructor
  · intro hapart
    refine ⟨?_, ?_, ?_⟩
    · exact fun command other hne hne' => congrArg TaskOptions.node_id (hapart _ _ hne hne')
    · exact fun command other hne hne' => congrArg TaskOptions.scope_path (hapart _ _ hne hne')
    · exact fun command other hne hne' => congrArg TaskOptions.timeout_ms (hapart _ _ hne hne')
  · intro ⟨hnode, hscope, htimeout⟩ command other hne hne'
    rw [taskOptions, taskOptions, TaskOptions.mk.injEq]
    exact ⟨hnode _ _ hne hne', hscope _ _ hne hne', htimeout _ _ hne hne'⟩

/-- The agent's `run` reads its options apart from the command when both are given. -/
theorem apart_agentOptions_iff :
    Apart agentOptions pre ↔ "--scope" ∈ pre ∧ "--timeout-ms" ∈ pre := by
  have hscope : Apart (fun args => option args "--scope") pre ↔ "--scope" ∈ pre :=
    apart_plain_iff (by decide)
  rw [← hscope, ← apart_timeoutOf_iff]
  constructor
  · intro hapart
    refine ⟨?_, ?_⟩
    · exact fun command other hne hne' => congrArg AgentOptions.scope_path (hapart _ _ hne hne')
    · exact fun command other hne hne' => congrArg AgentOptions.timeout_ms (hapart _ _ hne hne')
  · intro ⟨hscope, htimeout⟩ command other hne hne'
    rw [agentOptions, agentOptions, AgentOptions.mk.injEq]
    exact ⟨hscope _ _ hne hne', htimeout _ _ hne hne'⟩

/-- The tasks of a group read their options apart from the command for every node when the Scope
has the name of the option that `run_group` does not pass on. -/
theorem apart_taskArgsOf_iff {scope_path : String} :
    (∀ node, Apart taskOptions ["run", "--node", node, "--scope", scope_path]) ↔
      scope_path = "--timeout-ms" := by
  simp only [apart_taskOptions_iff]
  constructor
  · intro h
    have htimeout := (h "n1").2.2
    simp only [List.mem_cons, List.not_mem_nil, or_false] at htimeout
    rcases htimeout with h | h | h | h | h
    · exact absurd h (by decide)
    · exact absurd h (by decide)
    · exact absurd h (by decide)
    · exact absurd h (by decide)
    · exact h.symm
  · rintro rfl node
    simp

/-- `run_group` reads its options apart from the command when all of them are given and no task
looks for its deadline in the command. -/
theorem apart_groupOptions_iff (hpre : "--" ∉ pre) :
    Apart groupOptions pre ↔
      ("--group" ∈ pre ∧ "--scope" ∈ pre ∧ "--max-concurrency" ∈ pre ∧
        "--failure-policy" ∈ pre) ∧
      option (pre ++ ["--"]) "--scope" = some "--timeout-ms" := by
  have hgroup : Apart (fun args => (option args "--group").or args[1]?) pre ↔ "--group" ∈ pre := by
    refine apart_option_iff (by decide) (fun value args => value.or args[1]?) "1" "2" ?_ ?_
    · intro _ _
      simp
    · intro _ _ _
      rfl
  have hconcurrency : Apart maxConcurrency pre ↔ "--max-concurrency" ∈ pre := by
    refine apart_option_iff (by decide) (fun value _ => max ((value.bind fun value =>
      parseUnsigned u64Max value.toList).getD 1) 1) "1" "2" ?_ ?_
    · intro _ _
      decide
    · intro _ _ _
      rfl
  have hpolicy : Apart (fun args => (option args "--failure-policy").getD "stop") pre ↔
      "--failure-policy" ∈ pre := by
    refine apart_option_iff (by decide) (fun value _ => value.getD "stop") "stop" "continue" ?_ ?_
    · intro _ _
      decide
    · intro _ _ _
      rfl
  -- Of the group's options a task is given the Scope's path alone.
  have htask {scope_path : String}
      (hvalue : ∀ command, option (pre ++ "--" :: command) "--scope" = some scope_path)
      (node : String) (command : List String) :
      (groupOptions (pre ++ "--" :: command)).task node =
        some (taskOptions (["run", "--node", node, "--scope", scope_path] ++ "--" :: command)) := by
    rw [groupOptions]
    dsimp only
    rw [hvalue, behindSeparator_append hpre]
    rfl
  constructor
  · intro hapart
    have hscope : "--scope" ∈ pre := (apart_plain_iff (by decide)).mp fun command other hne hne' =>
      congrArg GroupOptions.scope_path (hapart _ _ hne hne')
    obtain ⟨scope_path, hvalue⟩ := valueBehind_of_mem hscope
    refine ⟨⟨hgroup.mp ?_, hscope, hconcurrency.mp ?_, hpolicy.mp ?_⟩, ?_⟩
    · exact fun command other hne hne' => congrArg GroupOptions.group_id (hapart _ _ hne hne')
    · exact fun command other hne hne' =>
        congrArg GroupOptions.max_concurrency (hapart _ _ hne hne')
    · exact fun command other hne hne' => congrArg GroupOptions.failure_policy (hapart _ _ hne hne')
    -- What holds of the command of a group holds of the tasks it starts, which leaves one path.
    · have htasks : ∀ node, Apart taskOptions ["run", "--node", node, "--scope", scope_path] := by
        intro node command other hne hne'
        have heq := congrFun (congrArg GroupOptions.task (hapart _ _ hne hne')) node
        rw [htask hvalue, htask hvalue] at heq
        exact Option.some.inj heq
      rw [← apart_taskArgsOf_iff.mp htasks]
      exact hvalue []
  · intro ⟨⟨hgroup', hscope, hconcurrency', hpolicy'⟩, htimeout⟩ command other hne hne'
    obtain ⟨scope_path, hvalue⟩ := valueBehind_of_mem hscope
    have hname : scope_path = "--timeout-ms" :=
      Option.some.inj ((hvalue []).symm.trans htimeout)
    have htasks := apart_taskArgsOf_iff.mpr hname
    have hscopes : Apart (fun args => option args "--scope") pre :=
      (apart_plain_iff (by decide)).mpr hscope
    have htasks' : (groupOptions (pre ++ "--" :: command)).task =
        (groupOptions (pre ++ "--" :: other)).task := by
      funext node
      rw [htask hvalue, htask hvalue, htasks node _ _ hne hne']
    rw [groupOptions, groupOptions, GroupOptions.mk.injEq]
    exact ⟨hgroup.mpr hgroup' _ _ hne hne', hscopes _ _ hne hne',
      hconcurrency.mpr hconcurrency' _ _ hne hne', hpolicy.mpr hpolicy' _ _ hne hne', htasks'⟩

/-- **Options are read apart from the command exactly when they are given in front of the
separator**, and those of a group's tasks never, unless its Scope is named after the deadline. -/
theorem options_apart_iff (hpre : "--" ∉ pre) :
    (Apart taskOptions pre ↔ "--node" ∈ pre ∧ "--scope" ∈ pre ∧ "--timeout-ms" ∈ pre) ∧
      (Apart agentOptions pre ↔ "--scope" ∈ pre ∧ "--timeout-ms" ∈ pre) ∧
      (Apart groupOptions pre ↔
        ("--group" ∈ pre ∧ "--scope" ∈ pre ∧ "--max-concurrency" ∈ pre ∧
          "--failure-policy" ∈ pre) ∧
        option (pre ++ ["--"]) "--scope" = some "--timeout-ms") :=
  ⟨apart_taskOptions_iff, apart_agentOptions_iff, apart_groupOptions_iff hpre⟩

/-- A task whose options are all given reads them apart from its command. -/
theorem options_apart_given :
    Apart taskOptions ["run", "--node", "n1", "--scope", "/srv", "--timeout-ms", "500"] :=
  (options_apart_iff (by decide)).1.mpr (by decide)

/-- Without a deadline in front of the separator, the words of the command are read as one: by
`run_task`, by the agent's `run` and for the tasks of a group. -/
theorem options_in_command :
    (taskOptions (["run", "--node", "n1", "--scope", "/srv"] ++
        "--" :: ["echo", "--timeout-ms", "1"])).timeout_ms = 1 ∧
      (taskOptions (["run", "--node", "n1", "--scope", "/srv"] ++ "--" :: ["echo"])).timeout_ms =
        30000 ∧
      ¬Apart taskOptions ["run", "--node", "n1", "--scope", "/srv"] ∧
      ¬Apart agentOptions ["run", "--scope", "/srv"] ∧
      ¬Apart groupOptions ["run", "--group", "g1", "--scope", "/srv", "--max-concurrency", "2",
        "--failure-policy", "stop"] := by
  refine ⟨by decide, by decide, ?_, ?_, ?_⟩
  · rw [apart_taskOptions_iff]
    decide
  · rw [apart_agentOptions_iff]
    decide
  · rw [apart_groupOptions_iff (by decide)]
    decide

end NodeWe.Cli
