import TacoBack.Account.Ledger

/-!
# Every call finishes

A call issues a bounded number of store commands, and each of them either goes through or ends the call. So when no
new calls come, the tasks that wait come to an end in whatever order they go on, and none of them is ever stuck.
-/

namespace TacoBack.AccountSystem

open AccountService Transition

variable {env : AccountEnv} {s t : State} {event : Event} {now : Int} {history : History}

/-- A step of a call under way. -/
inductive Continues (env : AccountEnv) (s : State) : Event → State → Prop where
  | run {pre task post event store rest} (here : s.tasks = pre ++ task :: post)
      (effect : Effect env s.store task event store rest) :
      Continues env s event { store := store, tasks := pre ++ rest ++ post }

theorem Continues.step (continues : Continues env s event t) : Step env s event t := by
  obtain ⟨here, effect⟩ := continues
  exact .run here effect

theorem continues_run (on : Transition.Run (Continues env) s history t) : Transition.Run (Step env) s history t := by
  induction on with
  | nil => exact .nil
  | snoc _ continues ih => exact ih.snoc continues.step

/-! ### How much is left -/

/-- The most commands a task may still take. -/
def Task.work : Task → Nat
  | .registe _ _ _ .find => 4
  | .registe _ _ _ .insert => 3
  | .registe _ _ _ .save => 2
  | .registe _ _ _ .incrby => 1
  | .sign _ _ _ renew => if renew then 6 else 3
  | .set _ renew => if renew then 5 else 2
  | .setnx _ renew => if renew then 4 else 1
  | .forgetPassword _ _ => 2
  | .del _ => 1

def work (tasks : List Task) : Nat := (tasks.map Task.work).sum

@[simp] theorem work_nil : work [] = 0 := rfl

@[simp] theorem work_append (xs ys : List Task) : work (xs ++ ys) = work xs + work ys := by
  simp [work]

@[simp] theorem work_cons (task : Task) (tasks : List Task) : work (task :: tasks) = task.work + work tasks := rfl

theorem Task.work_pos (task : Task) : 0 < task.work := by
  cases task with
  | registe tid hash body stage => cases stage <;> simp [work]
  | sign kind tid origin renew | set issue renew | setnx issue renew => cases renew <;> simp [work]
  | _ => simp [work]

theorem Effect.work {store store' : AccountStore} {task : Task} {rest : List Task}
    (effect : Effect env store task event store' rest) : AccountSystem.work rest < task.work := by
  cases effect with
  | @sign kind tid origin renew | @set issue renew | @setnx issue renew => cases renew <;> simp [Task.work]
  | fail | refuse => exact Task.work_pos _
  | _ => simp [Task.work]

theorem Continues.work (continues : Continues env s event t) : work t.tasks < work s.tasks := by
  obtain ⟨here, effect⟩ := continues
  have less := effect.work
  rw [here]
  simp only [work_append, work_cons]
  omega

/-! ### No call is stuck -/

/-- Where the pool counts, each task can take a step in which its call is not lost. -/
theorem Effect.enabled (env : AccountEnv) {store : AccountStore} (task : Task) {v : Int}
    (counts : AccountService.pool store = some v) :
    ∃ event store' rest, Effect env store task event store' rest ∧ event ≠ .failed := by
  cases task with
  | registe tid hash body stage =>
    cases stage with
    | find =>
      cases found : registeFind env body store with
      | ok => exact ⟨_, _, _, .find found, by simp⟩
      | error e => exact ⟨_, _, _, .known found, by simp⟩
    | insert =>
      cases done : registeInsert env "" tid hash body store with
      | ok inserted => exact ⟨_, _, _, .insert done, by simp⟩
      | error e => exact ⟨_, _, _, .invalid done, by simp⟩
    | save => exact ⟨_, _, _, .save "", by simp⟩
    | incrby =>
      obtain ⟨counted, done, -⟩ := registeIncrby_ok counts
      exact ⟨_, _, _, .incrby done, by simp⟩
  | sign kind tid origin renew =>
    cases signed : env.jwt.sign (kind.payload tid) (kind.expire env).expire store.now with
    | none => exact ⟨_, _, _, .refuse signed, by simp⟩
    | some token => exact ⟨_, _, _, .sign signed, by simp⟩
  | set issue renew => exact ⟨_, _, _, .set, by simp⟩
  | setnx issue renew => exact ⟨_, _, _, .setnx, by simp⟩
  | forgetPassword tid new_pwd =>
    cases done : forgetUpdate env tid new_pwd store with
    | ok replaced => exact ⟨_, _, _, .forgetPassword done, by simp⟩
    | error e => exact ⟨_, _, _, .throw done, by simp⟩
  | del tid => exact ⟨_, _, _, .del, by simp⟩

/-- From any state that a run reaches, the calls under way take at most `work` steps, in whatever order and whatever
fails, and until all have finished any of them can go on. -/
theorem calls_finish {later : History} (run : Run env now history s)
    (on : Transition.Run (Continues env) s later t) :
    later.length + work t.tasks ≤ work s.tasks ∧
      ∀ pre task post, t.tasks = pre ++ task :: post → ∃ event store rest,
        Continues env t event { store := store, tasks := pre ++ rest ++ post } ∧ event ≠ .failed := by
  constructor
  · refine on.invariant (P := fun later t => later.length + work t.tasks ≤ work s.tasks) ?_ ?_
    · simp
    · intro past u event v _ bound continues
      have less := continues.work
      simp only [List.length_append, List.length_singleton]
      omega
  · intro pre task post here
    have reached := run.append (continues_run on)
    obtain ⟨event, store, rest, effect, alive⟩ := Effect.enabled env task (run_counted reached).pool
    exact ⟨event, store, rest, .run here effect, alive⟩

theorem calls_finish_sample : ∃ history s, Run (sampleEnv sampleSigner) 0 history s ∧ s.tasks ≠ [] ∧
    ∀ later t, Transition.Run (Continues (sampleEnv sampleSigner)) s later t →
      later.length + work t.tasks ≤ work s.tasks ∧
      ∀ pre task post, t.tasks = pre ++ task :: post → ∃ event store rest,
        Continues (sampleEnv sampleSigner) t event { store := store, tasks := pre ++ rest ++ post } ∧ event ≠ .failed := by
  have run : Run (sampleEnv sampleSigner) 0 _ _ :=
    .single (@Step.registe _ (init 0) sampleBody (.num 1) (sampleSha256 "123456789Sd!") rfl)
  exact ⟨_, _, run, nofun, fun later t on => calls_finish run on⟩

end TacoBack.AccountSystem
