import Mathlib.Algebra.Ring.Nat
import NodeWe.Transition

/-!
# Workers on a shared stack

A list of items lies on a stack, and workers take items from its end, each one item at a time, until
the stack is empty. The outcome of an item is not the workers' own: a policy says which outcomes
are failures, how a worker notes them, and whether a worker that has noted one gives up.

A step is one worker's, and the steps of the workers interleave in any order. `Step.stack_eq`,
`Step.weight_lt`, `Step.finishedDrained` and `Step.conserves` say what one step does; what holds of
every run (no item is lost or taken twice, the run ends, an idle worker leaves only an empty stack)
is read off them.
-/

namespace NodeWe.WorkQueue

variable {Item Outcome Note : Type*}

/-! ## The steps -/

/-- Where a worker stands in its loop. -/
inductive Phase (Item : Type*)
  | idle
  | running (item : Item)
  | finished

/-- A worker with the failures that it has noted. -/
structure Worker (Item Note : Type*) where
  phase : Phase Item
  notes : List Note

/-- The stack and the workers that share it. -/
structure Pool (Item Note : Type*) where
  stack : List Item
  workers : List (Worker Item Note)

/-- What the workers do about the outcome of an item. -/
structure Policy (Item Outcome Note : Type*) where
  note : Item → Outcome → Option Note
  stops : Bool

/-- What a step shows. -/
inductive Event (Item Outcome : Type*)
  | took (item : Item)
  | drained
  | completed (item : Item) (outcome : Outcome)

/-- A worker after the outcome of its item. -/
def Policy.after (policy : Policy Item Outcome Note) (item : Item) (outcome : Outcome)
    (notes : List Note) : Worker Item Note :=
  match policy.note item outcome with
  | none => ⟨.idle, notes⟩
  | some note => ⟨if policy.stops then .finished else .idle, notes ++ [note]⟩

/-- One step of one worker: it takes the last item, finds the stack empty, or has its item end. -/
inductive Step (policy : Policy Item Outcome Note) :
    Pool Item Note → Event Item Outcome → Pool Item Note → Prop
  | took (stack : List Item) (item : Item) (before after : List (Worker Item Note))
      (notes : List Note) :
      Step policy ⟨stack ++ [item], before ++ ⟨.idle, notes⟩ :: after⟩ (.took item)
        ⟨stack, before ++ ⟨.running item, notes⟩ :: after⟩
  | drained (before after : List (Worker Item Note)) (notes : List Note) :
      Step policy ⟨[], before ++ ⟨.idle, notes⟩ :: after⟩ .drained
        ⟨[], before ++ ⟨.finished, notes⟩ :: after⟩
  | completed (stack : List Item) (item : Item) (outcome : Outcome)
      (before after : List (Worker Item Note)) (notes : List Note) :
      Step policy ⟨stack, before ++ ⟨.running item, notes⟩ :: after⟩ (.completed item outcome)
        ⟨stack, before ++ policy.after item outcome notes :: after⟩

/-- A run with what its steps show, in order. -/
abbrev Run (policy : Policy Item Outcome Note) (start : Pool Item Note) :
    List (Event Item Outcome) → Pool Item Note → Prop :=
  Transition.Run (Step policy) start

/-! ## What is read off a pool and off a run -/

/-- A pool at its start. -/
def Pool.fresh (items : List Item) (n : ℕ) : Pool Item Note :=
  ⟨items, List.replicate n ⟨.idle, []⟩⟩

/-- The item that a worker has. -/
def Worker.item (worker : Worker Item Note) : Option Item :=
  match worker.phase with
  | .running item => some item
  | _ => none

/-- The items that are with a worker. -/
def Pool.running (pool : Pool Item Note) : List Item := pool.workers.filterMap Worker.item

/-- The failures of all workers, in the order of the workers. -/
def Pool.notes (pool : Pool Item Note) : List Note := pool.workers.flatMap Worker.notes

/-- Every worker has left its loop. -/
def Pool.Done (pool : Pool Item Note) : Prop := ∀ worker ∈ pool.workers, worker.phase = .finished

/-- The steps that a worker has ahead, with the item that it has. -/
def Phase.weight : Phase Item → ℕ
  | .idle => 1
  | .running _ => 2
  | .finished => 0

/-- The steps that are ahead at most. -/
def Pool.weight (pool : Pool Item Note) : ℕ :=
  2 * pool.stack.length + (pool.workers.map fun worker => worker.phase.weight).sum

/-- The item that a step takes. -/
def Event.taken : Event Item Outcome → Option Item
  | .took item => some item
  | _ => none

/-- The item whose end a step shows, with its outcome. -/
def Event.ended : Event Item Outcome → Option (Item × Outcome)
  | .completed item outcome => some (item, outcome)
  | _ => none

/-- The items that are taken, in order. -/
def started (events : List (Event Item Outcome)) : List Item := events.filterMap Event.taken

/-- The items that have ended, in order, with their outcomes. -/
def ended (events : List (Event Item Outcome)) : List (Item × Outcome) :=
  events.filterMap Event.ended

/-- The note of an item that has ended. -/
def Policy.noteOf (policy : Policy Item Outcome Note) (end_ : Item × Outcome) : Option Note :=
  policy.note end_.1 end_.2

variable {policy : Policy Item Outcome Note} {start pool new : Pool Item Note}
  {event : Event Item Outcome} {events : List (Event Item Outcome)}

@[simp] theorem started_append (events events' : List (Event Item Outcome)) :
    started (events ++ events') = started events ++ started events' :=
  List.filterMap_append

@[simp] theorem ended_append (events events' : List (Event Item Outcome)) :
    ended (events ++ events') = ended events ++ ended events' :=
  List.filterMap_append

/-- The steps ahead of one worker and of the others. -/
theorem Pool.weight_mk (stack : List Item) (before after : List (Worker Item Note))
    (worker : Worker Item Note) : (Pool.mk stack (before ++ worker :: after)).weight =
      2 * stack.length + ((before.map fun w => w.phase.weight).sum + (worker.phase.weight +
        (after.map fun w => w.phase.weight).sum)) := by
  simp only [Pool.weight, List.map_append, List.map_cons, List.sum_append, List.sum_cons]

/-- The item of one worker and those of the others. -/
theorem Pool.running_mk (stack : List Item) (before after : List (Worker Item Note))
    (worker : Worker Item Note) : (Pool.mk stack (before ++ worker :: after)).running =
      before.filterMap Worker.item ++ (worker.item.toList ++ after.filterMap Worker.item) := by
  rw [Pool.running, List.filterMap_append, List.filterMap_cons]
  cases worker.item <;> rfl

/-- The failures of one worker and those of the others. -/
theorem Pool.notes_mk (stack : List Item) (before after : List (Worker Item Note))
    (worker : Worker Item Note) : (Pool.mk stack (before ++ worker :: after)).notes =
      before.flatMap Worker.notes ++ (worker.notes ++ after.flatMap Worker.notes) := by
  rw [Pool.notes, List.flatMap_append, List.flatMap_cons]

/-- A worker has no item after one has ended. -/
theorem Policy.after_item (item : Item) (outcome : Outcome) (notes : List Note) :
    (policy.after item outcome notes).item = none := by
  unfold Policy.after
  cases policy.note item outcome with
  | none => rfl
  | some note => cases hstops : policy.stops <;> rfl

/-- A worker has at most one step ahead after an item has ended. -/
theorem Policy.after_weight (item : Item) (outcome : Outcome) (notes : List Note) :
    (policy.after item outcome notes).phase.weight ≤ 1 := by
  unfold Policy.after
  cases policy.note item outcome with
  | none => exact Nat.le_refl 1
  | some note => cases hstops : policy.stops <;> simp [Phase.weight]

/-- A worker notes the failure of its item. -/
theorem Policy.after_notes (item : Item) (outcome : Outcome) (notes : List Note) :
    (policy.after item outcome notes).notes = notes ++ (policy.note item outcome).toList := by
  unfold Policy.after
  cases policy.note item outcome with
  | none => exact (List.append_nil _).symm
  | some note => rfl

/-! ## What a step does -/

/-- The stack gives up the items that are taken, from its end. -/
theorem Step.stack_eq (h : Step policy pool event new) :
    pool.stack = new.stack ++ (started [event]).reverse := by
  cases h with
  | took => rfl
  | drained => rfl
  | completed => exact (List.append_nil _).symm

/-- No worker comes or goes. -/
theorem Step.workers_length (h : Step policy pool event new) :
    new.workers.length = pool.workers.length := by
  cases h <;> simp

/-- Every step is one of those ahead. -/
theorem Step.weight_lt (h : Step policy pool event new) : new.weight < pool.weight := by
  cases h with
  | took stack item before after notes =>
    rw [Pool.weight_mk, Pool.weight_mk, List.length_append, List.length_singleton]
    simp only [Phase.weight]
    omega
  | drained before after notes =>
    rw [Pool.weight_mk, Pool.weight_mk]
    simp only [Phase.weight]
    omega
  | completed stack item outcome before after notes =>
    have hafter := policy.after_weight item outcome notes
    have hrunning : (Worker.mk (.running item) notes).phase.weight = 2 := rfl
    rw [Pool.weight_mk, Pool.weight_mk]
    omega

/-- What has been taken is with a worker or has ended. -/
theorem Step.conserves (h : Step policy pool event new) :
    (new.running ++ (ended [event]).map Prod.fst).Perm (started [event] ++ pool.running) := by
  cases h with
  | took stack item before after notes =>
    rw [Pool.running_mk, Pool.running_mk]
    show (_ ++ item :: _ ++ []).Perm (item :: (_ ++ _))
    rw [List.append_nil]
    exact List.perm_middle
  | drained before after notes =>
    rw [Pool.running_mk, Pool.running_mk]
    exact (List.append_nil _).symm ▸ List.Perm.refl _
  | completed stack item outcome before after notes =>
    rw [Pool.running_mk, Pool.running_mk, policy.after_item]
    show ((_ ++ _) ++ [item]).Perm (_ ++ item :: _)
    exact (List.perm_append_singleton item _).trans List.perm_middle.symm

/-- A failure is noted by the worker that has it, and no note is lost. -/
theorem Step.noted (h : Step policy pool event new) :
    new.notes.Perm (pool.notes ++ (ended [event]).filterMap policy.noteOf) := by
  cases h with
  | took stack item before after notes =>
    rw [Pool.notes_mk, Pool.notes_mk]
    exact (List.append_nil _).symm ▸ List.Perm.refl _
  | drained before after notes =>
    rw [Pool.notes_mk, Pool.notes_mk]
    exact (List.append_nil _).symm ▸ List.Perm.refl _
  | completed stack item outcome before after notes =>
    have hnote : (ended [Event.completed item outcome]).filterMap policy.noteOf =
        (policy.note item outcome).toList := by
      show [(item, outcome)].filterMap policy.noteOf = _
      rw [List.filterMap_cons, Policy.noteOf]
      cases policy.note item outcome <;> rfl
    rw [Pool.notes_mk, Pool.notes_mk, policy.after_notes, hnote, List.append_assoc,
      List.append_assoc, List.append_assoc, List.perm_append_left_iff, List.perm_append_left_iff]
    exact List.perm_append_comm

/-- Workers that have finished have found the stack empty, or have given up with a failure. -/
def Pool.FinishedDrained (policy : Policy Item Outcome Note) (pool : Pool Item Note) : Prop :=
  ∀ worker ∈ pool.workers, worker.phase = .finished →
    pool.stack = [] ∨ policy.stops = true ∧ worker.notes ≠ []

/-- A step keeps that. -/
theorem Step.finishedDrained (h : Step policy pool event new)
    (hpool : pool.FinishedDrained policy) : new.FinishedDrained policy := by
  -- The workers that do not move are in both pools.
  have hothers {before after : List (Worker Item Note)} {stack stack' : List Item}
      {old : Worker Item Note} {worker : Worker Item Note}
      (hpool : (Pool.mk stack (before ++ old :: after)).FinishedDrained policy)
      (hstack : stack = [] → stack' = []) (hmem : worker ∈ before ∨ worker ∈ after)
      (hfinished : worker.phase = .finished) :
      stack' = [] ∨ policy.stops = true ∧ worker.notes ≠ [] := by
    have hold : worker ∈ before ++ old :: after := by
      simp only [List.mem_append, List.mem_cons]
      exact hmem.imp_right .inr
    exact (hpool worker hold hfinished).imp_left hstack
  intro worker hmem hfinished
  cases h with
  | took stack item before after notes =>
    simp only [List.mem_append, List.mem_cons] at hmem
    obtain hbefore | rfl | hafter := hmem
    · exact hothers hpool (by simp) (.inl hbefore) hfinished
    · cases hfinished
    · exact hothers hpool (by simp) (.inr hafter) hfinished
  | drained before after notes => exact .inl rfl
  | completed stack item outcome before after notes =>
    simp only [List.mem_append, List.mem_cons] at hmem
    obtain hbefore | rfl | hafter := hmem
    · exact hothers hpool id (.inl hbefore) hfinished
    · right
      unfold Policy.after at hfinished ⊢
      cases hnote : policy.note item outcome with
      | none =>
        rw [hnote] at hfinished
        cases hfinished
      | some note =>
        rw [hnote] at hfinished
        refine ⟨?_, by simp⟩
        by_contra hstops
        simp [hstops] at hfinished
    · exact hothers hpool id (.inr hafter) hfinished

/-- A pool that is not done has a step, however its items end. -/
theorem Pool.exists_step (policy : Policy Item Outcome Note) (pool : Pool Item Note)
    (hpool : ¬pool.Done) (outcome : Item → Outcome) :
    ∃ event new, Step policy pool event new ∧
      ∀ end_, event.ended = some end_ → end_.2 = outcome end_.1 := by
  unfold Pool.Done at hpool
  push Not at hpool
  obtain ⟨⟨phase, notes⟩, hmem, hphase⟩ := hpool
  obtain ⟨before, after, hworkers⟩ := List.append_of_mem hmem
  obtain ⟨stack, workers⟩ := pool
  obtain rfl : workers = _ := hworkers
  have hnone {end_ : Item × Outcome} (h : (none : Option (Item × Outcome)) = some end_) :
      end_.2 = outcome end_.1 := by cases h
  cases phase with
  | idle =>
    rcases List.eq_nil_or_concat stack with rfl | ⟨rest, item, rfl⟩
    · exact ⟨_, _, .drained before after notes, fun _ => hnone⟩
    · rw [List.concat_eq_append]
      exact ⟨_, _, .took rest item before after notes, fun _ => hnone⟩
  | running item =>
    refine ⟨_, _, .completed stack item (outcome item) before after notes, fun end_ hend => ?_⟩
    rw [← Option.some.inj hend]
  | finished => exact absurd rfl hphase

/-- Workers that have all left their loops take no step. -/
theorem Pool.Done.no_step (h : pool.Done) : ¬Step policy pool event new := by
  intro hstep
  cases hstep with
  | took => cases h _ (List.mem_append_right _ List.mem_cons_self)
  | drained => cases h _ (List.mem_append_right _ List.mem_cons_self)
  | completed => cases h _ (List.mem_append_right _ List.mem_cons_self)

/-! ## What a run does -/

/-- The stack is what is left of the items that the run started with. -/
theorem Run.stack_eq (h : Run policy start events pool) :
    start.stack = pool.stack ++ (started events).reverse := by
  refine h.history (P := fun events pool => start.stack = pool.stack ++ (started events).reverse)
    (List.append_nil _).symm fun events pool event new ih hstep => ?_
  rw [ih, hstep.stack_eq, started_append, List.reverse_append, List.append_assoc]

/-- A run has the workers that it started with. -/
theorem Run.workers_length (h : Run policy start events pool) :
    pool.workers.length = start.workers.length :=
  h.invariant (P := fun pool => pool.workers.length = start.workers.length) rfl
    fun _ _ _ ih hstep => hstep.workers_length.trans ih

/-- A run has no more steps than were ahead. -/
theorem Run.length_le (h : Run policy start events pool) :
    events.length + pool.weight ≤ start.weight := by
  refine h.history (P := fun events pool => events.length + pool.weight ≤ start.weight)
    (by simp) fun events pool event new ih hstep => ?_
  have hlt := hstep.weight_lt
  rw [List.length_append, List.length_singleton]
  omega

/-- What has been taken is with a worker or has ended. -/
theorem Run.conserves (h : Run policy start events pool) (hidle : start.running = []) :
    (pool.running ++ (ended events).map Prod.fst).Perm (started events) := by
  refine h.history (P := fun events pool =>
    (pool.running ++ (ended events).map Prod.fst).Perm (started events)) (by rw [hidle]; exact .nil)
    fun events pool event new ih hstep => ?_
  rw [ended_append, started_append, List.map_append]
  have hcomm : ((ended events).map Prod.fst ++ (ended [event]).map Prod.fst).Perm
      ((ended [event]).map Prod.fst ++ (ended events).map Prod.fst) := List.perm_append_comm
  have hstep' : (new.running ++ (ended [event]).map Prod.fst ++ (ended events).map Prod.fst).Perm
      (started [event] ++ pool.running ++ (ended events).map Prod.fst) :=
    hstep.conserves.append_right _
  have hrest : (started [event] ++ (pool.running ++ (ended events).map Prod.fst)).Perm
      (started events ++ started [event]) :=
    (ih.append_left _).trans List.perm_append_comm
  rw [List.append_assoc, List.append_assoc] at hstep'
  exact ((hcomm.append_left _).trans hstep').trans hrest

/-- The workers' notes are those of the items that have ended. -/
theorem Run.noted (h : Run policy start events pool) (hstart : start.notes = []) :
    pool.notes.Perm ((ended events).filterMap policy.noteOf) := by
  refine h.history (P := fun events pool =>
    pool.notes.Perm ((ended events).filterMap policy.noteOf)) (by rw [hstart]; exact .nil)
    fun events pool event new ih hstep => ?_
  rw [ended_append, List.filterMap_append]
  exact hstep.noted.trans (ih.append_right _)

/-- Workers that have finished have found the stack empty, or have given up with a failure. -/
theorem Run.finishedDrained (h : Run policy start events pool)
    (hstart : start.FinishedDrained policy) : pool.FinishedDrained policy :=
  h.invariant hstart fun _ _ _ ih hstep => hstep.finishedDrained ih

/-- Every run can be brought to its end, however its items end. -/
theorem Pool.exists_done (policy : Policy Item Outcome Note) (outcome : Item → Outcome)
    (pool : Pool Item Note) : ∃ events new, Run policy pool events new ∧ new.Done ∧
      ∀ end_ ∈ ended events, end_.2 = outcome end_.1 := by
  -- By the steps that are ahead.
  induction hweight : pool.weight using Nat.strongRecOn generalizing pool with
  | ind weight ih =>
    by_cases hdone : pool.Done
    · exact ⟨[], pool, .start, hdone, List.forall_mem_nil _⟩
    · obtain ⟨event, next, hstep, hfirst⟩ := pool.exists_step policy hdone outcome
      obtain ⟨events, new, hrun, hnew, hlater⟩ :=
        ih next.weight (hweight ▸ hstep.weight_lt) next rfl
      refine ⟨[event] ++ events, new, (Transition.Run.single hstep).trans hrun, hnew, ?_⟩
      rw [ended_append, List.forall_mem_append]
      refine ⟨fun end_ hend => hfirst end_ ?_, hlater⟩
      obtain ⟨event', hmem, hended⟩ := List.mem_filterMap.mp hend
      rwa [← List.mem_singleton.mp hmem]

/-! ## Runs from a fresh pool -/

section Fresh

variable {items : List Item} {n : ℕ}

/-- No item has been taken at the start. -/
theorem Pool.fresh_running : (Pool.fresh items n : Pool Item Note).running = [] := by
  rw [Pool.running, Pool.fresh, List.filterMap_eq_nil_iff]
  intro worker hworker
  rw [List.eq_of_mem_replicate hworker]
  rfl

/-- Nothing has been noted at the start. -/
theorem Pool.fresh_notes : (Pool.fresh items n : Pool Item Note).notes = [] := by
  rw [Pool.notes, Pool.fresh, List.flatMap_eq_nil_iff]
  intro worker hworker
  rw [List.eq_of_mem_replicate hworker]

/-- No worker has finished at the start. -/
theorem Pool.fresh_finishedDrained :
    (Pool.fresh items n : Pool Item Note).FinishedDrained policy := by
  intro worker hworker hfinished
  rw [List.eq_of_mem_replicate hworker] at hfinished
  cases hfinished

/-- No item is taken more often than it is listed. -/
theorem Run.count_started_le [DecidableEq Item] (h : Run policy (.fresh items n) events pool)
    (item : Item) : (started events).count item ≤ items.count item := by
  have hstack : items = pool.stack ++ (started events).reverse := h.stack_eq
  rw [hstack, List.count_append, List.count_reverse]
  exact Nat.le_add_left _ _

/-- Each worker has at most one item. -/
theorem Run.running_length_le (h : Run policy (.fresh items n) events pool) :
    pool.running.length ≤ n := by
  have hworkers : pool.workers.length = n := h.workers_length.trans List.length_replicate
  rw [← hworkers]
  exact List.length_filterMap_le _ _

/-- A run ends. -/
theorem Run.length_le_fresh (h : Run policy (.fresh items n) events pool) :
    events.length ≤ 2 * items.length + n := by
  have hle := h.length_le
  have hweight : (Pool.fresh items n : Pool Item Note).weight = 2 * items.length + n := by
    simp [Pool.weight, Pool.fresh, Phase.weight]
  omega

/-- No item is with a worker at the end. -/
theorem Pool.Done.running (h : pool.Done) : pool.running = [] := by
  rw [Pool.running, List.filterMap_eq_nil_iff]
  intro worker hworker
  rw [Worker.item, h worker hworker]

/-- At the end of a run, every item that was taken has ended. -/
theorem Run.ended_perm (h : Run policy (.fresh items n) events pool) (hdone : pool.Done) :
    ((ended events).map Prod.fst).Perm (started events) := by
  have hconserves := h.conserves Pool.fresh_running
  rwa [hdone.running, List.nil_append] at hconserves

/-- At the end of a run in which no worker has given up, every item has been taken. -/
theorem Run.started_eq (h : Run policy (.fresh items n) events pool) (hdone : pool.Done)
    (hn : n ≠ 0) (hgone : policy.stops = false ∨ pool.notes = []) :
    started events = items.reverse := by
  have hlength : pool.workers.length = n := h.workers_length.trans List.length_replicate
  obtain ⟨worker, hworker⟩ := List.exists_mem_of_length_pos (by omega : 0 < pool.workers.length)
  have hdrained := h.finishedDrained Pool.fresh_finishedDrained worker hworker (hdone worker hworker)
  have hempty : pool.stack = [] := by
    rcases hdrained with hempty | ⟨hstops, hnotes⟩
    · exact hempty
    · rcases hgone with hcontinues | hnone
      · rw [hstops] at hcontinues
        cases hcontinues
      · exact absurd (List.flatMap_eq_nil_iff.mp hnone worker hworker) hnotes
  have hstack : items = pool.stack ++ (started events).reverse := h.stack_eq
  rw [hstack, hempty, List.nil_append, List.reverse_reverse]

end Fresh

/-! ## Giving up -/

/-- No item is taken behind a failure. -/
def Policy.StopsAtFailure (policy : Policy Item Outcome Note)
    (events : List (Event Item Outcome)) : Prop :=
  ∀ (before after : List (Event Item Outcome)) (item : Item) (outcome : Outcome),
    events = before ++ .completed item outcome :: after →
      (policy.note item outcome).isSome = true → started after = []

/-- The only worker leaves its loop with the first failure. -/
theorem Run.stopsAtFailure (h : Run policy start events pool)
    (hworkers : start.workers.length ≤ 1) (hstops : policy.stops = true) :
    policy.StopsAtFailure events := by
  rintro before after item outcome rfl hfails
  rw [List.append_cons] at h
  obtain ⟨failed, hfirst, hafter⟩ := h.split
  obtain ⟨reached, hreached, hfailed⟩ := hfirst.last
  have hdone : failed.Done := by
    have hlength : reached.workers.length ≤ 1 := Run.workers_length hreached ▸ hworkers
    cases hfailed with
    | completed stack _ _ left right notes =>
      simp only [List.length_append, List.length_cons] at hlength
      obtain rfl : left = [] := List.eq_nil_of_length_eq_zero (by omega)
      obtain rfl : right = [] := List.eq_nil_of_length_eq_zero (by omega)
      intro worker hworker
      rw [List.nil_append, List.mem_singleton] at hworker
      obtain ⟨note, hnote⟩ := Option.isSome_iff_exists.mp hfails
      rw [hworker, Policy.after, hnote]
      dsimp only
      rw [if_pos hstops]
  rw [(hafter.nil_of_stuck fun _ _ => hdone.no_step).1]
  rfl

/-- With a second worker, an item may be taken behind the failure of the first. -/
theorem exists_run_past_failure (items : List Item) (second : Item) (n : ℕ) {first : Item}
    {outcome : Outcome} (hfails : (policy.note first outcome).isSome = true) :
    ∃ events pool, Run policy (.fresh (items ++ [second] ++ [first]) (n + 2)) events pool ∧
      ¬policy.StopsAtFailure events := by
  let idle : List (Worker Item Note) := List.replicate n ⟨.idle, []⟩
  have htook : Step policy (.fresh (items ++ [second] ++ [first]) (n + 2)) (.took first) _ :=
    .took (items ++ [second]) first [] (⟨.idle, []⟩ :: idle) []
  have hended : Step policy _ (.completed first outcome) _ :=
    .completed (items ++ [second]) first outcome [] (⟨.idle, []⟩ :: idle) []
  have hagain : Step policy _ (.took second) _ :=
    .took items second [policy.after first outcome []] idle []
  refine ⟨[.took first] ++ [.completed first outcome] ++ [.took second], _,
    .snoc _ _ _ _ (.snoc _ _ _ _ (.single htook) hended) hagain, fun hstops => ?_⟩
  have hnone := hstops [.took first] [.took second] first outcome rfl hfails
  simp [started, Event.taken] at hnone

end NodeWe.WorkQueue
