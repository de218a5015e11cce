import NodeWe.Cli.Task
import NodeWe.WorkQueue

/-!
# Group runs

`nodewe group run` runs one command on every node of a group: `run_group` puts the nodes on a stack
and lets a number of workers run `run_task` for one node after the other. `planGroupRun` is the
part up to the workers; the workers are those of `WorkQueue`, whose outcomes are the hosts that
their tasks meet. Whether a group run succeeds is what `run_task` reports of its tasks.
-/

namespace NodeWe.Cli

open Text UnixPath NodeRuntime WorkQueue

/-! ## The plan -/

/-- The group of a line, if it is one. -/
def groupOf (line : List Char) : Option (String × List String) :=
  (splitOnce '\t' line).map fun (id, nodes) =>
    (String.ofList id, ((nodes.splitOn ',').filter (· ≠ [])).map String.ofList)

/-- `read_groups`. -/
def readGroups (host : Host) (path : String) : Except String (List (String × List String)) := do
  if host.fs.pathExists path then
    let contents ← host.read_to_string path
    .ok ((lines contents.toList).filterMap groupOf)
  else .ok []

/-- What `run_group` gives its workers. -/
structure GroupRun where
  group_id : String
  scope_path : String
  max_concurrency : ℕ
  failure_policy : String
  command : List String
  nodes : List String
  deriving DecidableEq

/-- The number that `--max-concurrency` asks for, and at least one. -/
def maxConcurrency (args : List String) : ℕ :=
  max (((option args "--max-concurrency").bind fun value =>
    parseUnsigned u64Max value.toList).getD 1) 1

/-- `run_group`, up to its workers. -/
def planGroupRun (host : Host) (args : List String) : Except String GroupRun := do
  let group_id ← okOr ((option args "--group").or args[1]?) "--group is required"
  let scope_path ← okOr (option args "--scope") "--scope is required"
  let failure_policy := (option args "--failure-policy").getD "stop"
  ensure (failure_policy = "stop" ∨ failure_policy = "continue")
    "--failure-policy must be stop or continue"
  let command ← okOr (behindSeparator args) "use `--` before the command"
  ensure (command ≠ []) "command is required after `--`"
  let dir ← stateDir host
  let groups ← readGroups host (join dir "groups.tsv")
  let group ← okOr (groups.find? fun group => group.1 = group_id) "group not found"
  ensure (group.2 ≠ []) "group has no nodes"
  .ok ⟨group_id, scope_path, maxConcurrency args, failure_policy, command, group.2⟩

/-! ## The workers -/

namespace GroupRun

variable (plan : GroupRun)

/-- The number of workers. -/
def workers : ℕ := min plan.max_concurrency plan.nodes.length

/-- The arguments that a worker calls `run_task` with. -/
def taskArgs (node : String) : List String :=
  ["run", "--node", node, "--scope", plan.scope_path, "--"] ++ plan.command

/-- The task of a node on the host that it meets. -/
def taskRun (task : String × Host) : TaskRun := runTask task.2 (plan.taskArgs task.1)

/-- The failure that a worker notes. -/
def failureOf (node : String) (host : Host) : Option String :=
  match (plan.taskRun (node, host)).result with
  | .ok _ => none
  | .error error => some (node ++ ": " ++ error)

/-- What the workers do about the outcome of a task. -/
def policy : Policy String Host String where
  note := plan.failureOf
  stops := plan.failure_policy = "stop"

/-- The stack and the workers at the start. -/
def start : Pool String String := .fresh plan.nodes plan.workers

/-- `run_group`, behind its workers: its result, with what it prints. -/
def result (pool : Pool String String) : Except String String :=
  if pool.notes = [] then
    .ok ("\x7b\"group_id\":\"" ++ jsonEscape plan.group_id ++ "\",\"status\":\"succeeded\"\x7d\n")
  else .error ("group run failed: " ++ "; ".intercalate pool.notes)

end GroupRun

/-! ## Scheduling -/

section Scheduling

variable {host : Host} {args : List String} {plan : GroupRun}
  {events : List (Event String Host)} {pool : Pool String String}

/-- What a plan is made of. -/
theorem planGroupRun_ok (h : planGroupRun host args = .ok plan) :
    plan.max_concurrency = maxConcurrency args ∧ plan.nodes ≠ [] ∧
      (plan.failure_policy = "stop" ∨ plan.failure_policy = "continue") := by
  unfold planGroupRun at h
  simp only [bind_eq_ok_iff, ensure_eq_ok] at h
  obtain ⟨group_id, -, scope_path, -, -, hpolicy, command, -, -, -, dir, -, groups, -, group, -, -,
    hnodes, h⟩ := h
  obtain rfl := Except.ok.inj h
  exact ⟨rfl, hnodes, hpolicy⟩

/-- A group run has a worker. -/
theorem workers_ne_zero (h : planGroupRun host args = .ok plan) : plan.workers ≠ 0 := by
  obtain ⟨hmax, hnodes, -⟩ := planGroupRun_ok h
  have hpos : 0 < plan.nodes.length := List.length_pos_iff.mpr hnodes
  have hone : 1 ≤ plan.max_concurrency := by
    rw [hmax]
    exact le_max_right _ _
  unfold GroupRun.workers
  omega

/-- **A group run schedules every node as often as it is listed.** -/
theorem group_scheduling (h : planGroupRun host args = .ok plan)
    (hrun : Run plan.policy plan.start events pool) :
    (∀ node, (started events).count node ≤ plan.nodes.count node) ∧
      (∀ node ∈ started events, node ∈ plan.nodes) ∧
      pool.running.length ≤ maxConcurrency args ∧
      (events.length ≤ 2 * plan.nodes.length + plan.workers ∧
        (¬pool.Done → ∀ outcome : String → Host, ∃ event new, Step plan.policy pool event new ∧
          ∀ task, event.ended = some task → task.2 = outcome task.1)) ∧
      (pool.Done → plan.failure_policy = "continue" → (started events).Perm plan.nodes) := by
  obtain ⟨hmax, -, -⟩ := planGroupRun_ok h
  have hcount (node : String) : (started events).count node ≤ plan.nodes.count node :=
    hrun.count_started_le node
  refine ⟨hcount, ?_, ?_, ⟨hrun.length_le_fresh, ?_⟩, ?_⟩
  · intro node hnode
    have hpos := List.count_pos_iff.mpr hnode
    have hle := hcount node
    exact List.count_pos_iff.mp (by omega)
  · have hrunning : pool.running.length ≤ plan.workers := hrun.running_length_le
    rw [← hmax]
    exact hrunning.trans (Nat.min_le_left _ _)
  · intro hdone outcome
    exact pool.exists_step plan.policy hdone outcome
  · intro hdone hcontinue
    have hstops : plan.policy.stops = false := by
      show decide (plan.failure_policy = "stop") = false
      rw [hcontinue]
      rfl
    rw [Run.started_eq hrun hdone (workers_ne_zero h) (.inl hstops)]
    exact plan.nodes.reverse_perm

/-! ## Stopping -/

/-- A host that has no state directory. -/
def brokenHost (host : Host) : Host := { host with create_dir_all := fun _ => .error "denied" }

/-- Every task fails on such a host. -/
theorem failureOf_brokenHost (plan : GroupRun) (node : String) (host : Host) :
    (plan.failureOf node (brokenHost host)).isSome = true := by
  have hstate : ∃ e, stateDir (brokenHost host) = .error e := ⟨_, rfl⟩
  obtain ⟨e, hstate⟩ := hstate
  have hstart : runTaskStart (brokenHost host) (plan.taskArgs node) = .error e := by
    rw [runTaskStart, hstate]
    rfl
  rw [GroupRun.failureOf, GroupRun.taskRun, runTask, hstart]
  rfl

/-- **A stopping group run takes no node behind a failure exactly when it has one worker.** -/
theorem stop_policy_iff (h : planGroupRun host args = .ok plan)
    (hstop : plan.failure_policy = "stop") :
    (∀ events pool, Run plan.policy plan.start events pool →
        plan.policy.StopsAtFailure events) ↔
      plan.workers = 1 := by
  have hpositive := workers_ne_zero h
  constructor
  · intro hall
    by_contra hmany
    have hlength : 2 ≤ plan.nodes.length := by
      have hle : plan.workers ≤ plan.nodes.length := Nat.min_le_right _ _
      omega
    -- The last two nodes: one fails, and a second worker takes the other.
    obtain ⟨front, first, hfirst⟩ : ∃ front first, plan.nodes = front ++ [first] := by
      rcases List.eq_nil_or_concat plan.nodes with hnil | ⟨front, first, hconcat⟩
      · rw [hnil] at hlength
        exact absurd hlength (by decide)
      · exact ⟨front, first, by rw [hconcat, List.concat_eq_append]⟩
    obtain ⟨items, second, hsecond⟩ : ∃ items second, front = items ++ [second] := by
      rcases List.eq_nil_or_concat front with hnil | ⟨items, second, hconcat⟩
      · rw [hfirst, hnil] at hlength
        exact absurd hlength (by simp)
      · exact ⟨items, second, by rw [hconcat, List.concat_eq_append]⟩
    obtain ⟨n, hn⟩ : ∃ n, plan.workers = n + 2 := ⟨plan.workers - 2, by omega⟩
    have hfails : (plan.policy.note first (brokenHost host)).isSome = true :=
      failureOf_brokenHost plan first host
    obtain ⟨events, pool, hrun, hpast⟩ := exists_run_past_failure items second n hfails
    refine hpast (hall events pool ?_)
    rwa [GroupRun.start, hn, hfirst, hsecond]
  · intro hone events pool hrun
    refine Run.stopsAtFailure hrun ?_ ?_
    · show (List.replicate plan.workers _).length ≤ 1
      rw [List.length_replicate, hone]
    · show decide (plan.failure_policy = "stop") = true
      rw [hstop]
      rfl

end Scheduling

/-! ## Reporting -/

section Reporting

variable {host : Host} {args : List String} {plan : GroupRun}
  {events : List (Event String Host)} {pool : Pool String String}

/-- The result of a group run speaks of its tasks: a success means that each node's task ran once
and is recorded as succeeded, and a task that is recorded as failed or timed out is named. -/
structure ReportsTasks (plan : GroupRun) (events : List (Event String Host))
    (pool : Pool String String) : Prop where
  succeeded : ∀ output, plan.result pool = .ok output →
    ((ended events).map Prod.fst).Perm plan.nodes ∧
      ∀ task ∈ ended events, (plan.taskRun task).record.map TaskRecord.state = some .succeeded
  failed : ∀ task ∈ ended events,
    (plan.taskRun task).record.map TaskRecord.state = some .failed ∨
        (plan.taskRun task).record.map TaskRecord.state = some .timedOut →
      ∃ error, (plan.taskRun task).result = .error error ∧
        task.1 ++ ": " ++ error ∈ pool.notes ∧
        plan.result pool = .error ("group run failed: " ++ "; ".intercalate pool.notes)

/-- **A group run reports its tasks exactly when none of them fails quietly.** -/
theorem group_reports_iff (h : planGroupRun host args = .ok plan)
    (hrun : Run plan.policy plan.start events pool) (hdone : pool.Done) :
    ReportsTasks plan events pool ↔
      ∀ task ∈ ended events, ∀ prepared code stdout stderr,
        ¬QuietlyFails task.2 (plan.taskArgs task.1) prepared code stdout stderr := by
  have hnotes : pool.notes.Perm ((ended events).filterMap plan.policy.noteOf) :=
    Run.noted hrun Pool.fresh_notes
  constructor
  · intro hreports task htask prepared code stdout stderr hquiet
    obtain ⟨hrecord, hresult⟩ := hquiet.run
    have hfailed : (plan.taskRun task).record.map TaskRecord.state = some .failed := by
      rw [GroupRun.taskRun, hrecord]
      rfl
    obtain ⟨error, herror, -⟩ := hreports.failed task htask (.inl hfailed)
    rw [GroupRun.taskRun, hresult] at herror
    cases herror
  · intro hloud
    -- A task whose result is a success is recorded as one.
    have hsuccess {task : String × Host} {output : String} (htask : task ∈ ended events)
        (hresult : (plan.taskRun task).result = .ok output) :
        (plan.taskRun task).record.map TaskRecord.state = some .succeeded := by
      by_contra hstate
      obtain ⟨prepared, code, stdout, stderr, hquiet⟩ := exists_quietlyFails hresult hstate
      exact hloud task htask prepared code stdout stderr hquiet
    have hnote {task : String × Host} {error : String} (htask : task ∈ ended events)
        (hresult : (plan.taskRun task).result = .error error) :
        task.1 ++ ": " ++ error ∈ pool.notes := by
      rw [hnotes.mem_iff, List.mem_filterMap]
      refine ⟨task, htask, ?_⟩
      show plan.failureOf task.1 task.2 = _
      rw [GroupRun.failureOf, hresult]
    constructor
    · intro output houtput
      have hnone : pool.notes = [] := by
        by_contra hsome
        rw [GroupRun.result, if_neg hsome] at houtput
        cases houtput
      have hstarted : started events = plan.nodes.reverse :=
        Run.started_eq hrun hdone (workers_ne_zero h) (.inr hnone)
      refine ⟨?_, fun task htask => ?_⟩
      · have hended : ((ended events).map Prod.fst).Perm (started events) :=
          Run.ended_perm hrun hdone
        rw [hstarted] at hended
        exact hended.trans plan.nodes.reverse_perm
      · cases hresult : (plan.taskRun task).result with
        | ok output => exact hsuccess htask hresult
        | error error =>
          have hmem := hnote htask hresult
          rw [hnone] at hmem
          exact absurd hmem List.not_mem_nil
    · intro task htask hstate
      cases hresult : (plan.taskRun task).result with
      | ok output =>
        rw [hsuccess htask hresult] at hstate
        rcases hstate with hstate | hstate <;> cases hstate
      | error error =>
        have hmem := hnote htask hresult
        refine ⟨error, rfl, hmem, ?_⟩
        rw [GroupRun.result, if_neg (List.ne_nil_of_mem hmem)]

end Reporting

section Example

/-- A host with the paired nodes `n1` and `n2` and one group, where each child ends alike. -/
def endingHost (nodes : String) (child : Child) : Host :=
  { plainHost with
    read_to_string := fun path => .ok (if path = ".nodewe/groups.tsv" then "g1\t" ++ nodes ++ "\n"
      else "n1\tn1\tonline\t\nn2\tn2\tonline\t\n")
    spawn := fun _ _ => .ok child }

/-- A child that exits with a code and without output. -/
def silentChild (code : ℤ) : Child := .exited (some code) (.ok ([], false)) (.ok ([], false))

/-- Such a host, where `cat` exits with a failure. -/
def groupHost (nodes : String) : Host := endingHost nodes (silentChild 1)

/-- A group run on so many workers at most. -/
def groupArgs (max_concurrency policy : String) : List String :=
  ["run", "--group", "g1", "--scope", "/srv/scope", "--max-concurrency", max_concurrency,
    "--failure-policy", policy, "--", "cat", "notes"]

/-- The plan of that run. -/
def groupPlan (nodes : List String) (max_concurrency : ℕ) (policy : String) : GroupRun :=
  ⟨"g1", "/srv/scope", max_concurrency, policy, ["cat", "notes"], nodes⟩

/-- The plans of the runs, and the task of the first node. -/
theorem groupPlan_runs :
    planGroupRun (groupHost "n1") (groupArgs "2" "stop") = .ok (groupPlan ["n1"] 2 "stop") ∧
      planGroupRun (groupHost "n1,n2") (groupArgs "1" "stop") =
        .ok (groupPlan ["n1", "n2"] 1 "stop") ∧
      planGroupRun (groupHost "n1,n2") (groupArgs "2" "stop") =
        .ok (groupPlan ["n1", "n2"] 2 "stop") ∧
      planGroupRun (groupHost "n1,n2") (groupArgs "2" "continue") =
        .ok (groupPlan ["n1", "n2"] 2 "continue") ∧
      ((groupPlan ["n1"] 2 "stop").taskRun ("n1", groupHost "n1")).record.map TaskRecord.state =
        some .failed ∧
      (groupPlan ["n1"] 2 "stop").failureOf "n1" (groupHost "n1") = none := by
  decide +kernel

/-- With two workers and the policy `continue`, a run that ends has taken both nodes. -/
theorem group_scheduling_both : ∃ events pool,
    Run (groupPlan ["n1", "n2"] 2 "continue").policy (groupPlan ["n1", "n2"] 2 "continue").start
        events pool ∧
      pool.Done ∧ (started events).Perm ["n1", "n2"] := by
  obtain ⟨-, -, -, hplan, -⟩ := groupPlan_runs
  obtain ⟨events, pool, hrun, hdone, -⟩ :=
    Pool.exists_done (groupPlan ["n1", "n2"] 2 "continue").policy (fun _ => groupHost "n1,n2")
      (groupPlan ["n1", "n2"] 2 "continue").start
  exact ⟨events, pool, hrun, hdone, (group_scheduling hplan hrun).2.2.2.2 hdone rfl⟩

/-- A group run of two nodes on one worker stops at each failure, and one run fails at the first node
that it takes. -/
theorem stop_policy_single :
    (∀ events pool, Run (groupPlan ["n1", "n2"] 1 "stop").policy
        (groupPlan ["n1", "n2"] 1 "stop").start events pool →
      (groupPlan ["n1", "n2"] 1 "stop").policy.StopsAtFailure events) ∧
    ∃ pool : Pool String String, pool.stack = ["n1"] ∧ pool.Done ∧
      Run (groupPlan ["n1", "n2"] 1 "stop").policy (groupPlan ["n1", "n2"] 1 "stop").start
        [.took "n2", .completed "n2" (brokenHost (groupHost "n1,n2"))] pool := by
  refine ⟨(stop_policy_iff groupPlan_runs.2.1 rfl).mpr rfl, _, rfl, ?_,
    .snoc _ _ _ _ (.single (.took ["n1"] "n2" [] [] []))
      (.completed ["n1"] "n2" (brokenHost (groupHost "n1,n2")) [] [] [])⟩
  obtain ⟨note, hnote⟩ := Option.isSome_iff_exists.mp
    (failureOf_brokenHost (groupPlan ["n1", "n2"] 1 "stop") "n2" (groupHost "n1,n2"))
  have hafter : (groupPlan ["n1", "n2"] 1 "stop").policy.after "n2"
      (brokenHost (groupHost "n1,n2")) [] = ⟨.finished, [note]⟩ := by
    have hfails : (groupPlan ["n1", "n2"] 1 "stop").policy.note "n2"
        (brokenHost (groupHost "n1,n2")) = some note := hnote
    rw [Policy.after, hfails]
    rfl
  intro worker hworker
  rw [hafter, List.nil_append, List.mem_singleton] at hworker
  rw [hworker]

/-- With two workers, the second takes a node behind the failure of the first. -/
theorem stop_policy_passed :
    planGroupRun (groupHost "n1,n2") (groupArgs "2" "stop") =
        .ok (groupPlan ["n1", "n2"] 2 "stop") ∧
      ∃ events pool, Run (groupPlan ["n1", "n2"] 2 "stop").policy
          (groupPlan ["n1", "n2"] 2 "stop").start events pool ∧
        ¬(groupPlan ["n1", "n2"] 2 "stop").policy.StopsAtFailure events := by
  refine ⟨groupPlan_runs.2.2.1, ?_⟩
  have hfails : ((groupPlan ["n1", "n2"] 2 "stop").policy.note "n2"
      (brokenHost (groupHost "n1,n2"))).isSome = true :=
    failureOf_brokenHost (groupPlan ["n1", "n2"] 2 "stop") "n2" (groupHost "n1,n2")
  exact exists_run_past_failure [] "n1" 0 hfails

/-- The task of the only node fails, and the group run succeeds. -/
theorem quiet_failure_succeeds :
    planGroupRun (groupHost "n1") (groupArgs "2" "stop") = .ok (groupPlan ["n1"] 2 "stop") ∧
      ((groupPlan ["n1"] 2 "stop").taskRun ("n1", groupHost "n1")).record.map TaskRecord.state =
        some .failed ∧
      ∃ events pool, Run (groupPlan ["n1"] 2 "stop").policy (groupPlan ["n1"] 2 "stop").start
          events pool ∧
        pool.Done ∧ ended events = [("n1", groupHost "n1")] ∧
        (∃ output, (groupPlan ["n1"] 2 "stop").result pool = .ok output) ∧
        ¬ReportsTasks (groupPlan ["n1"] 2 "stop") events pool := by
  obtain ⟨hplan, -, -, -, hfailed, hquiet⟩ := groupPlan_runs
  have htook : Step (groupPlan ["n1"] 2 "stop").policy (groupPlan ["n1"] 2 "stop").start
      (.took "n1") ⟨[], [⟨.running "n1", []⟩]⟩ := .took [] "n1" [] [] []
  have hended : Step (groupPlan ["n1"] 2 "stop").policy ⟨[], [⟨.running "n1", []⟩]⟩
      (.completed "n1" (groupHost "n1")) ⟨[], [⟨.idle, []⟩]⟩ := by
    have hafter : (groupPlan ["n1"] 2 "stop").policy.after "n1" (groupHost "n1") [] =
        ⟨.idle, []⟩ := by
      have hnote : (groupPlan ["n1"] 2 "stop").policy.note "n1" (groupHost "n1") = none := hquiet
      rw [Policy.after, hnote]
    rw [← hafter]
    exact .completed [] "n1" (groupHost "n1") [] [] []
  have hdrained : Step (groupPlan ["n1"] 2 "stop").policy ⟨[], [⟨.idle, []⟩]⟩ .drained
      ⟨[], [⟨.finished, []⟩]⟩ := .drained [] [] []
  have hsucceeds : ∃ output, (groupPlan ["n1"] 2 "stop").result ⟨[], [⟨.finished, []⟩]⟩ =
      .ok output := ⟨_, rfl⟩
  refine ⟨hplan, hfailed, _, _, .snoc _ _ _ _ (.snoc _ _ _ _ (.single htook) hended) hdrained, ?_,
    rfl, hsucceeds, fun hreports => ?_⟩
  · intro worker hworker
    rw [List.mem_singleton.mp hworker]
  · obtain ⟨output, houtput⟩ := hsucceeds
    have hstate := (hreports.succeeded output houtput).2 ("n1", groupHost "n1") (.head _)
    rw [hfailed] at hstate
    cases hstate

/-- The hosts that two nodes meet: the task of `n1` succeeds, and that of `n2` is stopped at its
deadline. -/
def mixedHost (node : String) : Host :=
  endingHost "n1,n2" (if node = "n1" then silentChild 0 else .overran)

/-- A run of two nodes, of which one fails loudly, reports its tasks. -/
theorem group_reports_mixed : ∃ events pool,
    Run (groupPlan ["n1", "n2"] 2 "continue").policy (groupPlan ["n1", "n2"] 2 "continue").start
        events pool ∧
      pool.Done ∧ ((ended events).map Prod.fst).Perm ["n1", "n2"] ∧
      ReportsTasks (groupPlan ["n1", "n2"] 2 "continue") events pool := by
  obtain ⟨-, -, -, hplan, -⟩ := groupPlan_runs
  obtain ⟨events, pool, hrun, hdone, hhosts⟩ :=
    Pool.exists_done (groupPlan ["n1", "n2"] 2 "continue").policy mixedHost
      (groupPlan ["n1", "n2"] 2 "continue").start
  have hstarted : started events = (groupPlan ["n1", "n2"] 2 "continue").nodes.reverse :=
    Run.started_eq hrun hdone (workers_ne_zero hplan) (.inl (by decide))
  have hended : ((ended events).map Prod.fst).Perm (started events) := Run.ended_perm hrun hdone
  refine ⟨events, pool, hrun, hdone, hended.trans (hstarted ▸ List.reverse_perm _),
    (group_reports_iff hplan hrun hdone).mpr ?_⟩
  intro task htask prepared code stdout stderr hquiet
  have hexits := hquiet.exits
  rw [hhosts task htask, mixedHost, endingHost] at hexits
  -- A child that ends by itself exits with 0.
  by_cases hnode : task.1 = "n1"
  · rw [if_pos hnode] at hexits
    cases hexits
    exact hquiet.fails rfl
  · rw [if_neg hnode] at hexits
    cases hexits

end Example

end NodeWe.Cli
