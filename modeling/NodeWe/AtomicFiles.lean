import Mathlib.Data.List.Infix
import Mathlib.Logic.Function.Basic

/-!
# Files replaced one after the other

A directory is a map from names to contents. A file is replaced in two steps: its new contents are
written under a temporary name, and the temporary file is renamed over it. A sequence of
replacements may stop at any step, because a step fails or because the process dies. Whoever looks
at no temporary file then sees the first replacements done and the others not begun
(`interrupted_agree`), so that the states of a directory are those between two replacements.
-/

namespace NodeWe.AtomicFiles

variable {ν β : Type*}

/-- A directory. -/
abbrev Directory (ν β : Type*) := ν → Option β

/-- A step on a directory. -/
inductive Step (ν β : Type*)
  | write (name : ν) (contents : β)
  | rename (source target : ν)

/-- A file that is replaced, with the temporary name that its contents are written under. -/
structure Replacement (ν β : Type*) where
  target : ν
  temporary : ν
  contents : β

/-- The steps of a replacement. -/
def Replacement.steps (r : Replacement ν β) : List (Step ν β) :=
  [.write r.temporary r.contents, .rename r.temporary r.target]

/-- The steps of a sequence of replacements. -/
def stepsOf (rs : List (Replacement ν β)) : List (Step ν β) := rs.flatMap Replacement.steps

/-- Two directories look alike to whoever looks at no name in `hidden`. -/
def Agree (hidden : ν → Prop) (dir dir' : Directory ν β) : Prop :=
  ∀ name, ¬hidden name → dir name = dir' name

/-- The replacements write hidden files and rename them to names that are not hidden. -/
def Hides (hidden : ν → Prop) (rs : List (Replacement ν β)) : Prop :=
  ∀ r ∈ rs, hidden r.temporary ∧ ¬hidden r.target

/-- A replacement takes two steps. -/
theorem length_stepsOf (rs : List (Replacement ν β)) : (stepsOf rs).length = 2 * rs.length := by
  induction rs with
  | nil => rfl
  | cons r rs ih =>
    have hsteps : stepsOf (r :: rs) = r.steps ++ stepsOf rs := List.flatMap_cons
    have htwo : r.steps.length = 2 := rfl
    rw [hsteps, List.length_append, ih, htwo, List.length_cons]
    omega

section Steps

variable [DecidableEq ν]

/-- What a step makes of a directory. -/
def Step.apply (step : Step ν β) (dir : Directory ν β) : Directory ν β :=
  match step with
  | write name contents => Function.update dir name (some contents)
  | rename source target => Function.update (Function.update dir target (dir source)) source none

/-- What a step that fails makes of a directory: a write may leave something under its name, and a
rename leaves everything as it was. -/
def Step.abandon (left : Option β) (step : Step ν β) (dir : Directory ν β) : Directory ν β :=
  match step, left with
  | write name _, some contents => Function.update dir name (some contents)
  | _, _ => dir

/-- The directory after some steps. -/
def run (steps : List (Step ν β)) (dir : Directory ν β) : Directory ν β :=
  steps.foldl (fun dir step => step.apply dir) dir

/-- The directory after replacements that stop at the step `k`, where a write may leave something
behind. -/
def interrupted (rs : List (Replacement ν β)) (k : ℕ) (left : Option β) (dir : Directory ν β) :
    Directory ν β :=
  let before := run ((stepsOf rs).take k) dir
  match (stepsOf rs)[k]? with
  | some step => step.abandon left before
  | none => before

/-- Replacements of which the step at a given position fails, where one does: whether all of them
succeed, and the directory that they leave. -/
def perform (rs : List (Replacement ν β)) (failure : Option (ℕ × Option β))
    (dir : Directory ν β) : Bool × Directory ν β :=
  match failure with
  | none => (true, run (stepsOf rs) dir)
  | some (k, left) =>
    if k < (stepsOf rs).length then (false, interrupted rs k left dir)
    else (true, run (stepsOf rs) dir)

/-- The directory that some replacements aim at. -/
def replaced (rs : List (Replacement ν β)) (dir : Directory ν β) : Directory ν β :=
  rs.foldl (fun dir r => Function.update dir r.target (some r.contents)) dir

/-! ## Between two replacements -/

variable {hidden : ν → Prop} {rs : List (Replacement ν β)} {dir dir' : Directory ν β}

omit [DecidableEq ν] in
/-- Directories that look alike to each other and to a third. -/
theorem Agree.trans {dir'' : Directory ν β} (h : Agree hidden dir dir')
    (h' : Agree hidden dir' dir'') : Agree hidden dir dir'' :=
  fun name hname => (h name hname).trans (h' name hname)

/-- A hidden file may change. -/
theorem agree_update {name : ν} (hname : hidden name) (contents : Option β) :
    Agree hidden (Function.update dir name contents) dir := by
  intro other hother
  have hne : other ≠ name := by
    rintro rfl
    exact hother hname
  exact Function.update_of_ne hne contents dir

/-- Replacing a file keeps directories alike. -/
theorem Agree.update (h : Agree hidden dir dir') (name : ν) (contents : Option β) :
    Agree hidden (Function.update dir name contents) (Function.update dir' name contents) := by
  intro other hother
  by_cases hname : other = name
  · rw [hname, Function.update_self, Function.update_self]
  · rw [Function.update_of_ne hname, Function.update_of_ne hname, h other hother]

/-- Replacements keep directories alike. -/
theorem Agree.replaced (h : Agree hidden dir dir') (rs : List (Replacement ν β)) :
    Agree hidden (replaced rs dir) (replaced rs dir') := by
  induction rs generalizing dir dir' with
  | nil => exact h
  | cons r rs ih => exact ih (h.update r.target (some r.contents))

/-- The two steps of a replacement replace the file. -/
theorem run_steps_agree {r : Replacement ν β} (hr : hidden r.temporary ∧ ¬hidden r.target)
    (dir : Directory ν β) :
    Agree hidden (run r.steps dir) (Function.update dir r.target (some r.contents)) := by
  have hwritten : (Step.write r.temporary r.contents).apply dir r.temporary = some r.contents := by
    rw [Step.apply, Function.update_self]
  have hrun : run r.steps dir = Function.update (Function.update
      ((Step.write r.temporary r.contents).apply dir) r.target (some r.contents))
      r.temporary none := by
    rw [← hwritten]
    rfl
  rw [hrun]
  -- What is hidden may go; below it, the first write is hidden as well.
  exact (agree_update hr.1 none).trans ((agree_update hr.1 (some r.contents)).update _ _)

/-- Replacements that stop show the first of them done and the others not begun. -/
theorem interrupted_agree (hrs : Hides hidden rs) (k : ℕ) (left : Option β)
    (dir : Directory ν β) :
    Agree hidden (interrupted rs k left dir) (replaced (rs.take (k / 2)) dir) := by
  induction rs generalizing k dir with
  | nil =>
    have hnone : interrupted ([] : List (Replacement ν β)) k left dir = dir := by
      simp [interrupted, stepsOf, run]
    rw [List.take_nil, hnone]
    exact fun _ _ => rfl
  | cons r rs ih =>
    have hr := hrs r List.mem_cons_self
    match k with
    | 0 =>
      cases left with
      | none => exact fun _ _ => rfl
      | some contents => exact agree_update hr.1 (some contents)
    | 1 => exact agree_update hr.1 (some r.contents)
    | k + 2 =>
      have hrest := ih (fun r' hr' => hrs r' (List.mem_cons_of_mem r hr')) k (run r.steps dir)
      have hhalf : (k + 2) / 2 = k / 2 + 1 := by omega
      rw [hhalf, List.take_succ_cons]
      exact hrest.trans ((run_steps_agree hr dir).replaced (rs.take (k / 2)))

/-- Replacements that run to their end show all of them done. -/
theorem run_agree (hrs : Hides hidden rs) (dir : Directory ν β) :
    Agree hidden (run (stepsOf rs) dir) (replaced rs dir) := by
  induction rs generalizing dir with
  | nil => exact fun _ _ => rfl
  | cons r rs ih =>
    have hr := hrs r List.mem_cons_self
    have hrest := ih (fun r' hr' => hrs r' (List.mem_cons_of_mem r hr')) (run r.steps dir)
    exact hrest.trans ((run_steps_agree hr dir).replaced rs)

/-! ## What a file holds -/

/-- A file that is not replaced stays. -/
theorem replaced_of_not_mem {name : ν} (h : ∀ r ∈ rs, r.target ≠ name) (dir : Directory ν β) :
    replaced rs dir name = dir name := by
  induction rs generalizing dir with
  | nil => rfl
  | cons r rs ih =>
    rw [List.forall_mem_cons] at h
    have hrest := ih h.2 (Function.update dir r.target (some r.contents))
    rw [Function.update_of_ne (Ne.symm h.1)] at hrest
    exact hrest

/-- A file that is replaced once holds what it is replaced with. -/
theorem replaced_of_mem {r : Replacement ν β} (hr : r ∈ rs) (hone : (rs.map Replacement.target).Nodup)
    (dir : Directory ν β) : replaced rs dir r.target = some r.contents := by
  induction rs generalizing dir with
  | nil => exact absurd hr List.not_mem_nil
  | cons first rs ih =>
    rw [List.map_cons, List.nodup_cons] at hone
    rcases List.mem_cons.mp hr with rfl | hr
    · have hlater : ∀ r' ∈ rs, r'.target ≠ r.target := fun r' hr' htarget =>
        hone.1 (List.mem_map.mpr ⟨r', hr', htarget⟩)
      have hstays := replaced_of_not_mem hlater (Function.update dir r.target (some r.contents))
      rw [Function.update_self] at hstays
      exact hstays
    · exact ih hr hone.2 _

/-- A file that is replaced once holds its new contents as soon as its turn has come. -/
theorem replaced_take {r : Replacement ν β} {i : ℕ} (hi : rs[i]? = some r)
    (hone : (rs.map Replacement.target).Nodup) (count : ℕ) (dir : Directory ν β) :
    replaced (rs.take count) dir r.target =
      if i < count then some r.contents else dir r.target := by
  split_ifs with hcount
  · have hmem : r ∈ rs.take count := by
      rw [List.mem_iff_getElem?]
      exact ⟨i, by rw [List.getElem?_take, if_pos hcount, hi]⟩
    refine replaced_of_mem hmem ?_ dir
    rw [List.map_take]
    exact hone.sublist (List.take_sublist count _)
  · refine replaced_of_not_mem (fun r' hr' htarget => hcount ?_) dir
    obtain ⟨j, hj⟩ := List.mem_iff_getElem?.mp hr'
    rw [List.getElem?_take] at hj
    split_ifs at hj with hjcount
    -- Two places with one target are one place.
    have hplace : (rs.map Replacement.target)[j]? = (rs.map Replacement.target)[i]? := by
      rw [List.getElem?_map, List.getElem?_map, hj, hi, Option.map_some, Option.map_some, htarget]
    have hjlength : j < (rs.map Replacement.target).length := by
      rw [List.length_map]
      exact (List.getElem?_eq_some_iff.mp hj).1
    have hsame : j = i := (List.getElem?_inj hjlength hone).mp hplace
    omega

end Steps

end NodeWe.AtomicFiles
