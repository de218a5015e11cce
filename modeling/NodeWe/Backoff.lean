import Mathlib.Algebra.Group.Nat.Defs
import NodeWe.Transition

/-!
# Exponential backoff

A client tries again after each failed attempt, and waits in between: for the base delay after the
first failure, for twice as long after each failure that follows, and never for longer than a cap.
What it has to wait for is a function of its log (`OnSchedule`). A client that keeps the next delay
in a variable takes a step of `Step` at each attempt, and `onSchedule_of_run` says that its log is
then on schedule.
-/

namespace NodeWe.Backoff

/-- The delay after a first failure, and the delay that no failure goes beyond. -/
structure Schedule where
  base : ℕ
  cap : ℕ
  base_pos : 0 < base
  base_lt_cap : base < cap

/-- An attempt of a client, with the delay after one that failed. -/
inductive Attempt
  | completed
  | failed (delay : ℕ)
  deriving DecidableEq

/-- The failures of a log since its last attempt that completed. -/
def failures (log : List Attempt) : ℕ :=
  log.foldl (fun k attempt => match attempt with | .completed => 0 | .failed _ => k + 1) 0

/-- An attempt that completes leaves no failure. -/
@[simp] theorem failures_snoc_completed (log : List Attempt) :
    failures (log ++ [.completed]) = 0 := by
  rw [failures, List.foldl_append, List.foldl_cons, List.foldl_nil]

/-- One that fails counts. -/
@[simp] theorem failures_snoc_failed (log : List Attempt) (delay : ℕ) :
    failures (log ++ [.failed delay]) = failures log + 1 := by
  rw [failures, List.foldl_append, List.foldl_cons, List.foldl_nil]
  rfl

/-- Several that complete leave no failure either. -/
theorem failures_append_completed (log : List Attempt) {n : ℕ} (hn : n ≠ 0) :
    failures (log ++ List.replicate n .completed) = 0 := by
  obtain ⟨m, rfl⟩ := Nat.exists_eq_succ_of_ne_zero hn
  rw [List.replicate_succ', ← List.append_assoc]
  exact failures_snoc_completed _

namespace Schedule

variable (schedule : Schedule)

/-- The delay after a failure, the `k`-th one since an attempt completed. -/
def delay (k : ℕ) : ℕ := min (schedule.base * 2 ^ (k - 1)) schedule.cap

/-- The delay after the next failure. -/
def grow (wait : ℕ) : ℕ := min (wait * 2) schedule.cap

/-- The first delay is the base. -/
@[simp] theorem delay_one : schedule.delay 1 = schedule.base := by
  have hlt := schedule.base_lt_cap
  rw [delay, Nat.sub_self, Nat.pow_zero, Nat.mul_one]
  omega

/-- The delays double up to the cap. -/
@[simp] theorem grow_delay (k : ℕ) : schedule.grow (schedule.delay (k + 1)) =
    schedule.delay (k + 2) := by
  have hpow : schedule.base * 2 ^ (k + 1) = schedule.base * 2 ^ k * 2 := by
    rw [Nat.pow_succ, Nat.mul_assoc]
  rw [grow, delay, delay, Nat.add_sub_cancel, show k + 2 - 1 = k + 1 by omega, hpow]
  omega

/-- Every later delay is longer than the base. -/
theorem base_lt_delay (k : ℕ) : schedule.base < schedule.delay (k + 2) := by
  have hpos := schedule.base_pos
  have hlt := schedule.base_lt_cap
  have hpow : 2 ^ 1 ≤ 2 ^ (k + 1) := Nat.pow_le_pow_right (by omega) (by omega)
  have hmul : schedule.base * 2 ^ 1 ≤ schedule.base * 2 ^ (k + 1) :=
    Nat.mul_le_mul_left _ hpow
  rw [delay, show k + 2 - 1 = k + 1 by omega]
  omega

/-- Only the first delay is the base. -/
theorem delay_eq_base_iff (k : ℕ) : schedule.delay (k + 1) = schedule.base ↔ k = 0 := by
  constructor
  · intro h
    by_contra hk
    obtain ⟨m, rfl⟩ := Nat.exists_eq_succ_of_ne_zero hk
    have hlt : schedule.base < schedule.delay (m.succ + 1) := schedule.base_lt_delay m
    omega
  · rintro rfl
    exact schedule.delay_one

/-! ## Logs -/

/-- After each failure of the log, the client has waited for as long as the failures since the last
attempt that completed ask for. -/
def OnSchedule (log : List Attempt) : Prop :=
  ∀ (before after : List Attempt) (wait : ℕ), log = before ++ .failed wait :: after →
    wait = schedule.delay (failures before + 1)

variable {schedule}

/-- A log without attempts. -/
theorem onSchedule_nil : schedule.OnSchedule [] := by
  intro before after wait h
  simp at h

/-- An attempt that completes is followed by no delay. -/
theorem onSchedule_snoc_completed {log : List Attempt} :
    schedule.OnSchedule (log ++ [.completed]) ↔ schedule.OnSchedule log := by
  constructor
  · intro h before after wait hlog
    exact h before (after ++ [.completed]) wait (by rw [hlog, List.append_assoc, List.cons_append])
  · intro h before after wait hlog
    obtain ⟨-, hlast, -⟩ | ⟨after', -, hrest⟩ := Transition.snoc_split hlog
    · cases hlast
    · exact h before after' wait hrest

/-- Nor are several. -/
theorem onSchedule_append_completed {log : List Attempt} (n : ℕ) :
    schedule.OnSchedule (log ++ List.replicate n .completed) ↔ schedule.OnSchedule log := by
  induction n with
  | zero => rw [List.replicate_zero, List.append_nil]
  | succ n ih =>
    rw [List.replicate_succ', ← List.append_assoc, onSchedule_snoc_completed, ih]

/-- A failed attempt is followed by the delay that its log asks for. -/
theorem onSchedule_snoc_failed {log : List Attempt} {wait : ℕ} :
    schedule.OnSchedule (log ++ [.failed wait]) ↔
      schedule.OnSchedule log ∧ wait = schedule.delay (failures log + 1) := by
  constructor
  · intro h
    refine ⟨?_, h log [] wait rfl⟩
    intro before after wait' hlog
    exact h before (after ++ [.failed wait]) wait'
      (by rw [hlog, List.append_assoc, List.cons_append])
  · rintro ⟨h, hwait⟩ before after wait' hlog
    obtain ⟨rfl, hlast, -⟩ | ⟨after', -, hrest⟩ := Transition.snoc_split hlog
    · cases hlast
      exact hwait
    · exact h before after' wait' hrest

/-! ## A client that keeps the delay -/

variable (schedule)

/-- An attempt of a client that keeps the delay after its next failure in a variable. -/
inductive Step : ℕ → Attempt → ℕ → Prop
  | completed (wait : ℕ) : Step wait .completed schedule.base
  | failed (wait : ℕ) : Step wait (.failed wait) (schedule.grow wait)

variable {schedule}

/-- Attempts that complete leave the base as the delay. -/
theorem run_completed (n : ℕ) :
    Transition.Run schedule.Step schedule.base (List.replicate n .completed) schedule.base := by
  induction n with
  | zero => exact .start
  | succ n ih =>
    rw [List.replicate_succ']
    exact .snoc _ _ _ _ ih (.completed _)

/-- Such a client keeps to the schedule, and its variable is the next delay. -/
theorem onSchedule_of_run {log : List Attempt} {wait : ℕ}
    (h : Transition.Run schedule.Step schedule.base log wait) :
    schedule.OnSchedule log ∧ wait = schedule.delay (failures log + 1) := by
  refine h.history (P := fun log wait => schedule.OnSchedule log ∧
    wait = schedule.delay (failures log + 1)) ⟨onSchedule_nil, schedule.delay_one.symm⟩ ?_
  rintro log s attempt t ⟨hlog, hwait⟩ hstep
  cases hstep with
  | completed =>
    rw [failures_snoc_completed]
    exact ⟨onSchedule_snoc_completed.mpr hlog, schedule.delay_one.symm⟩
  | failed =>
    rw [failures_snoc_failed, hwait, grow_delay]
    exact ⟨onSchedule_snoc_failed.mpr ⟨hlog, rfl⟩, rfl⟩

end Schedule

end NodeWe.Backoff
