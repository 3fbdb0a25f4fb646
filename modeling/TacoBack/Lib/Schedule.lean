import Mathlib.Logic.Function.Basic
import Mathlib.Logic.Function.Iterate

/-!
# Tasks on a shared store

Numbered tasks work on one store. A schedule names the task that takes the next step; what that
step does is a function of the store and of the task.
-/

namespace Schedule

variable {σ τ : Type*}

structure Tasks (σ τ : Type*) where
  store : σ
  task : ℕ → τ

def step (command : σ × τ → σ × τ) (s : Tasks σ τ) (i : ℕ) : Tasks σ τ where
  store := (command (s.store, s.task i)).1
  task := Function.update s.task i (command (s.store, s.task i)).2

def exec (command : σ × τ → σ × τ) (schedule : List ℕ) (s : Tasks σ τ) : Tasks σ τ :=
  schedule.foldl (step command) s

variable {command : σ × τ → σ × τ}

@[simp] theorem exec_nil (s : Tasks σ τ) : exec command [] s = s := rfl

@[simp] theorem exec_cons (i : ℕ) (schedule : List ℕ) (s : Tasks σ τ) :
    exec command (i :: schedule) s = exec command schedule (step command s i) := rfl

theorem exec_append (front back : List ℕ) (s : Tasks σ τ) :
    exec command (front ++ back) s = exec command back (exec command front s) :=
  List.foldl_append

/-- A task that takes `n` steps with no other between. -/
theorem exec_replicate (n i : ℕ) (s : Tasks σ τ) :
    exec command (List.replicate n i) s =
      { store := (command^[n] (s.store, s.task i)).1,
        task := Function.update s.task i (command^[n] (s.store, s.task i)).2 } := by
  induction n generalizing s with
  | zero => simp
  | succ n ih =>
    rw [List.replicate_succ, exec_cons, ih, Function.iterate_succ_apply]
    simp [step]

/-- Two executions, the second with additional tasks. Where a common step keeps the stores and the
tasks related, and a step of an additional task cannot be told from none, they stay related. -/
theorem exec_related {R : σ → σ → Prop} {Q : ℕ → τ → τ → Prop} {extra : ℕ → Bool}
    (common : ∀ i store store' task task', extra i = false → R store store' → Q i task task' →
      R (command (store, task)).1 (command (store', task')).1 ∧
      Q i (command (store, task)).2 (command (store', task')).2)
    (additional : ∀ i store store' task task', extra i = true → R store store' → Q i task task' →
      R store (command (store', task')).1 ∧ Q i task (command (store', task')).2)
    (schedule : List ℕ) {s s' : Tasks σ τ} (stores : R s.store s'.store) (tasks : ∀ i, Q i (s.task i) (s'.task i)) :
    let alone := exec command (schedule.filter fun i => !extra i) s
    let both := exec command schedule s'
    R alone.store both.store ∧ ∀ i, Q i (alone.task i) (both.task i) := by
  induction schedule generalizing s s' with
  | nil => exact ⟨stores, tasks⟩
  | cons i rest ih =>
    cases added : extra i with
    | false =>
      obtain ⟨store, task⟩ := common i _ _ _ _ added stores (tasks i)
      simp only [List.filter_cons, added, Bool.not_false, if_true, exec_cons]
      apply ih store
      intro j
      by_cases same : j = i
      · subst same
        simpa [step] using task
      · simpa [step, same] using tasks j
    | true =>
      obtain ⟨store, task⟩ := additional i _ _ _ _ added stores (tasks i)
      simp only [List.filter_cons, added, Bool.not_true, Bool.false_eq_true, if_false, exec_cons]
      apply ih store
      intro j
      by_cases same : j = i
      · subst same
        simpa [step] using task
      · simpa [step, same] using tasks j

end Schedule
