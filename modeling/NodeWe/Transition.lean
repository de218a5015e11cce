import Mathlib.Data.List.Induction

/-!
# Runs of a labelled transition system

A system is a relation `Step s label t`. A run collects the labels of its steps in order, so that a
property may speak about what has happened so far. The rules at the end turn a fact about one step
into a fact about every run: of a state that keeps an invariant (`Run.invariant`), of the two ends
of a run (`Run.related`), of a state together with its history (`Run.history`), and of a system
whose steps are steps of another one (`Run.simulates`).
-/

namespace NodeWe.Transition

variable {σ ι τ κ : Type*} {Step : σ → ι → σ → Prop}

/-- A run, with the labels of its steps. -/
inductive Run (Step : σ → ι → σ → Prop) (init : σ) : List ι → σ → Prop
  | start : Run Step init [] init
  | snoc (labels : List ι) (s t : σ) (label : ι) (hrun : Run Step init labels s)
      (hstep : Step s label t) : Run Step init (labels ++ [label]) t

namespace Run

variable {init s t : σ} {labels labels' : List ι} {label : ι}

/-- A step is a run. -/
theorem single (h : Step s label t) : Run Step s [label] t := .snoc [] s t label .start h

/-- Runs compose. -/
theorem trans (h : Run Step init labels s) (h' : Run Step s labels' t) :
    Run Step init (labels ++ labels') t := by
  induction h' with
  | start => rwa [List.append_nil]
  | snoc labels' u t label hrun hstep ih =>
    rw [← List.append_assoc]
    exact .snoc _ u t label ih hstep

/-- A run that ends with a label ends with its step. -/
theorem last (h : Run Step init (labels ++ [label]) t) :
    ∃ s, Run Step init labels s ∧ Step s label t := by
  generalize hall : labels ++ [label] = all at h
  cases h with
  | start => simp at hall
  | snoc before s t last hrun hstep =>
    obtain ⟨rfl, hlast⟩ := List.append_inj' hall rfl
    obtain rfl := List.singleton_inj.mp hlast
    exact ⟨s, hrun, hstep⟩

/-- A run passes through a state after each of its labels. -/
theorem split (h : Run Step init (labels ++ labels') t) :
    ∃ s, Run Step init labels s ∧ Run Step s labels' t := by
  induction labels' using List.reverseRecOn generalizing t with
  | nil =>
    rw [List.append_nil] at h
    exact ⟨t, h, .start⟩
  | append_singleton labels' label ih =>
    rw [← List.append_assoc] at h
    obtain ⟨u, hrun, hstep⟩ := h.last
    obtain ⟨s, hs, hrest⟩ := ih hrun
    exact ⟨s, hs, .snoc labels' u t label hrest hstep⟩

/-- A run up to one of its labels, the step of that label, and the rest. -/
theorem at_index (h : Run Step init labels t) {n : ℕ} (hn : labels[n]? = some label) :
    ∃ s s', Run Step init (labels.take n) s ∧ Step s label s' ∧
      Run Step s' (labels.drop (n + 1)) t := by
  obtain ⟨hbound, hlabel⟩ := List.getElem?_eq_some_iff.mp hn
  have hsplit : labels = labels.take n ++ [label] ++ labels.drop (n + 1) := by
    rw [List.append_assoc, List.singleton_append, ← hlabel, List.getElem_cons_drop,
      List.take_append_drop]
  rw [hsplit] at h
  obtain ⟨s', hfirst, hrest⟩ := h.split
  obtain ⟨s, hbefore, hstep⟩ := hfirst.last
  exact ⟨s, s', hbefore, hstep, hrest⟩

/-- A run from a state that has no step stays there. -/
theorem nil_of_stuck (h : Run Step init labels t) (hstuck : ∀ label s, ¬Step init label s) :
    labels = [] ∧ t = init := by
  induction h with
  | start => exact ⟨rfl, rfl⟩
  | snoc labels s t label _ hlast ih =>
    rw [ih.2] at hlast
    exact absurd hlast (hstuck label t)

/-- A property of the history and the state that every step keeps. -/
theorem history {P : List ι → σ → Prop} (hinit : P [] init)
    (hstep : ∀ labels s label t, P labels s → Step s label t → P (labels ++ [label]) t)
    (h : Run Step init labels s) : P labels s := by
  induction h with
  | start => exact hinit
  | snoc labels s t label _ hlast ih => exact hstep labels s label t ih hlast

/-- An invariant. -/
theorem invariant {P : σ → Prop} (hinit : P init)
    (hstep : ∀ s label t, P s → Step s label t → P t) (h : Run Step init labels s) : P s :=
  h.history (P := fun _ => P) hinit fun _ s label t => hstep s label t

/-- An invariant of the runs whose labels all qualify. -/
theorem invariant_where {P : σ → Prop} {Q : ι → Prop} (hinit : P init)
    (hstep : ∀ s label t, Q label → P s → Step s label t → P t) (h : Run Step init labels s)
    (hlabels : ∀ label ∈ labels, Q label) : P s := by
  refine h.history (P := fun labels s => (∀ label ∈ labels, Q label) → P s) (fun _ => hinit) ?_
    hlabels
  intro labels s label t ih hlast hall
  rw [List.forall_mem_append, List.forall_mem_singleton] at hall
  exact hstep s label t hall.2 (ih hall.1) hlast

/-- A preorder that every step respects, from states that keep an invariant. -/
theorem related {P : σ → Prop} {R : σ → σ → Prop} (hrefl : ∀ s, P s → R s s)
    (htrans : ∀ s t u, R s t → R t u → R s u) (hinit : P init)
    (hstep : ∀ s label t, P s → Step s label t → P t ∧ R s t) (h : Run Step init labels s) :
    R init s := by
  refine (h.invariant (P := fun s => P s ∧ R init s) ⟨hinit, hrefl init hinit⟩ ?_).2
  rintro s label t ⟨hs, hrel⟩ hlast
  obtain ⟨ht, hst⟩ := hstep s label t hs hlast
  exact ⟨ht, htrans init s t hrel hst⟩

/-- A system whose steps are runs of another one, under a view of its states. -/
theorem simulates {Step' : τ → κ → τ → Prop} (view : σ → τ) (read : ι → List κ)
    (hstep : ∀ s label t, Step s label t → Run Step' (view s) (read label) (view t))
    (h : Run Step init labels s) : Run Step' (view init) (labels.flatMap read) (view s) := by
  induction h with
  | start => exact .start
  | snoc labels s t label _ hlast ih =>
    rw [List.flatMap_append, List.flatMap_singleton]
    exact ih.trans (hstep s label t hlast)

/-- A run of the viewed system is the view of a run, where each of its steps is the view of one. -/
theorem lifts {Step' : τ → κ → τ → Prop} {P : σ → Prop} {Q : ι → Prop} (view : σ → τ)
    (read : ι → κ)
    (hstep : ∀ s label u, P s → Q label → Step' (view s) (read label) u →
      ∃ t, Step s label t ∧ view t = u ∧ P t)
    (hinit : P init) (hlabels : ∀ label ∈ labels, Q label) {u : τ}
    (h : Run Step' (view init) (labels.map read) u) :
    ∃ t, Run Step init labels t ∧ view t = u ∧ P t := by
  induction labels using List.reverseRecOn generalizing u with
  | nil =>
    generalize hnone : ([] : List ι).map read = none' at h
    cases h with
    | start => exact ⟨init, .start, rfl, hinit⟩
    | snoc => simp at hnone
  | append_singleton labels label ih =>
    rw [List.forall_mem_append, List.forall_mem_singleton] at hlabels
    rw [List.map_append, List.map_singleton] at h
    obtain ⟨v, hrun, hlast⟩ := h.last
    obtain ⟨s, hs, rfl, hP⟩ := ih hlabels.1 hrun
    obtain ⟨t, ht, hview, hPt⟩ := hstep s label u hP hlabels.2 hlast
    exact ⟨t, .snoc labels s t label hs ht, hview, hPt⟩

end Run

/-! ## Histories -/

/-- An entry of an extended history is the last one, or one from before. -/
theorem snoc_split {history before after : List ι} {last label : ι}
    (h : history ++ [last] = before ++ label :: after) :
    history = before ∧ last = label ∧ after = [] ∨
      ∃ after', after = after' ++ [last] ∧ history = before ++ label :: after' := by
  rcases List.eq_nil_or_concat after with rfl | ⟨after', final, hafter⟩
  · obtain ⟨hbefore, hlast⟩ := List.append_inj' h rfl
    exact .inl ⟨hbefore, List.singleton_inj.mp hlast, rfl⟩
  · rw [List.concat_eq_append] at hafter
    rw [hafter, ← List.cons_append, ← List.append_assoc] at h
    obtain ⟨hbefore, hlast⟩ := List.append_inj' h rfl
    exact .inr ⟨after', by rw [hafter, hlast], hbefore⟩

/-- An entry that is not in the last part of a history is in the first part. -/
theorem append_split {first second before after : List ι} {label : ι}
    (h : first ++ second = before ++ label :: after) (hnot : label ∉ second) :
    ∃ after', after = after' ++ second ∧ first = before ++ label :: after' := by
  induction second using List.reverseRecOn generalizing after with
  | nil =>
    rw [List.append_nil] at h
    exact ⟨after, (List.append_nil _).symm, h⟩
  | append_singleton second last ih =>
    rw [List.mem_append, not_or, List.mem_singleton] at hnot
    rw [← List.append_assoc] at h
    rcases snoc_split h with ⟨-, rfl, -⟩ | ⟨after', rfl, hrest⟩
    · exact absurd rfl hnot.2
    · obtain ⟨after'', rfl, hfirst⟩ := ih hrest hnot.1
      exact ⟨after'', List.append_assoc _ _ _, hfirst⟩

/-- In a history whose entries are pairwise apart, two entries that are not apart are one. -/
theorem eq_of_pairwise {R : ι → ι → Prop} {history before after before' after' : List ι}
    {label label' : ι} (hpairwise : history.Pairwise R) (h : history = before ++ label :: after)
    (h' : history = before' ++ label' :: after') (hR : ¬R label label') (hR' : ¬R label' label) :
    before = before' ∧ label = label' ∧ after = after' := by
  -- In a list, an entry is apart from those behind it.
  have hbehind {before between after : List ι} {first second : ι}
      (h : history = before ++ first :: (between ++ second :: after)) : R first second := by
    rw [h] at hpairwise
    have htail := (List.pairwise_append.mp hpairwise).2.1
    exact (List.pairwise_cons.mp htail).1 second (by simp)
  rcases List.append_eq_append_iff.mp (h.symm.trans h') with
    ⟨between, hbefore, hafter⟩ | ⟨between, hbefore, hafter⟩
  · cases between with
    | nil =>
      obtain ⟨hlabel, hrest⟩ := List.cons.inj hafter
      exact ⟨by rw [hbefore, List.append_nil], hlabel, hrest⟩
    | cons first between =>
      obtain ⟨rfl, hrest⟩ := List.cons.inj hafter
      rw [hrest] at h
      exact absurd (hbehind h) hR
  · cases between with
    | nil =>
      obtain ⟨hlabel, hrest⟩ := List.cons.inj hafter
      exact ⟨by rw [hbefore, List.append_nil], hlabel.symm, hrest.symm⟩
    | cons first between =>
      obtain ⟨rfl, hrest⟩ := List.cons.inj hafter
      rw [hrest] at h'
      exact absurd (hbehind h') hR'

end NodeWe.Transition
