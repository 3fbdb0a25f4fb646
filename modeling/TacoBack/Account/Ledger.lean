import TacoBack.Account.Registration

/-!
# Accounts as a ledger

However the calls overlap and wherever they are cut off, accounts and questions are only added. Of an account
nothing but the password changes, and that is always a digest. A registration leaves its user before its
question, and its question before it counts.
-/

namespace TacoBack.AccountSystem

open AccountService Transition

variable {env : AccountEnv} {past : List Event} {s t : State} {event : Event} {now : Int} {history : History}

def Digest (env : AccountEnv) (hash : String) : Prop := ∃ text, hash = env.sha256 text

theorem digest_ok {value : Option Json} {hash : String} (done : digest env value = .ok hash) : Digest env hash := by
  unfold digest at done
  split at done
  · exact ⟨_, (Except.ok.inj done).symm⟩
  · cases done

theorem changeUpdate_digest {tid old_pwd new_pwd : Option Json} {found : Option Users} {store updated : AccountStore}
    (done : changeUpdate env tid old_pwd new_pwd store = .ok (found, updated)) : ∃ p hash, Digest env hash ∧
      updated = { store with users := Mongo.updateOne p (setPassword hash) store.users } := by
  unfold changeUpdate at done
  split at done
  · cases done
  · rename_i hash hashed
    split at done
    · obtain ⟨-, rfl⟩ := Prod.mk.inj (Except.ok.inj done)
      exact ⟨_, hash, digest_ok hashed, rfl⟩
    · cases done

theorem forgetUpdate_digest {tid new_pwd : Option Json} {found : Option Users} {store updated : AccountStore}
    (done : forgetUpdate env tid new_pwd store = .ok (found, updated)) : ∃ p hash, Digest env hash ∧
      updated = { store with users := Mongo.updateOne p (setPassword hash) store.users } := by
  unfold forgetUpdate at done
  split at done
  · cases done
  · rename_i hash hashed
    split at done
    · obtain ⟨-, rfl⟩ := Prod.mk.inj (Except.ok.inj done)
      exact ⟨_, hash, digest_ok hashed, rfl⟩
    · cases done

/-! ### What a step does to the documents -/

/-- The hash of a registration under way is a digest. -/
def Task.hashed (env : AccountEnv) : Task → Prop
  | .registe _ hash _ _ => Digest env hash
  | _ => True

inductive Documents (env : AccountEnv) (s t : AccountStore) : Prop where
  | same (users : t.users = s.users) (questions : t.questions = s.questions)
  | user (user : Users) (stored : ∃ hash, Digest env hash ∧ user.password = some hash)
      (users : t.users = s.users ++ [user]) (questions : t.questions = s.questions)
  | question (info : Questions) (users : t.users = s.users) (questions : t.questions = s.questions ++ [info])
  | password (p : Users → Bool) (hash : String) (digest : Digest env hash)
      (users : t.users = Mongo.updateOne p (setPassword hash) s.users) (questions : t.questions = s.questions)

theorem Effect.documents {store store' : AccountStore} {task : Task} {rest : List Task}
    (effect : Effect env store task event store' rest) (hashed : task.hashed env) :
    Documents env store store' ∧ ∀ next ∈ rest, next.hashed env := by
  cases effect with
  | @insert tid hash body id inserted done =>
    refine ⟨?_, List.forall_mem_singleton.mpr hashed⟩
    unfold registeInsert at done
    split at done
    · cases done
    · rename_i user built
      obtain rfl := Except.ok.inj done
      exact .user user ⟨hash, hashed, (userDocument_cast built).2⟩ rfl rfl
  | save => exact ⟨.question _ rfl rfl, List.forall_mem_singleton.mpr hashed⟩
  | incrby done =>
    unfold registeIncrby at done
    split at done
    · cases done
    · obtain rfl := Except.ok.inj done
      exact ⟨.same rfl rfl, by simp⟩
  | find => exact ⟨.same rfl rfl, List.forall_mem_singleton.mpr hashed⟩
  | forgetPassword done =>
    obtain ⟨p, hash, digest, rfl⟩ := forgetUpdate_digest done
    exact ⟨.password p hash digest rfl rfl, by simp [Task.hashed]⟩
  | @setnx issue renew =>
    refine ⟨.same rfl rfl, ?_⟩
    split <;> simp [Task.hashed]
  | sign | set => exact ⟨.same rfl rfl, by simp [Task.hashed]⟩
  | _ => exact ⟨.same rfl rfl, by simp⟩

theorem Step.documents (taken : Step env s event t) (hashed : ∀ task ∈ s.tasks, task.hashed env) :
    Documents env s.store t.store ∧ ∀ task ∈ t.tasks, task.hashed env := by
  cases taken with
  | tick => exact ⟨.same rfl rfl, hashed⟩
  | @registe body tid hash read =>
    refine ⟨.same rfl rfl, forall_spawned hashed (fun _ => id) ?_⟩
    unfold registeGet at read
    split at read
    · cases read
    · cases made : digest env (body.get "password") with
      | error e =>
        rw [made] at read
        cases read
      | ok digested =>
        rw [made] at read
        obtain ⟨-, rfl⟩ := Prod.mk.inj (Except.ok.inj read)
        exact digest_ok made
  | login | refresh | forgetPassword => exact ⟨.same rfl rfl, forall_spawned hashed (fun _ => id) trivial⟩
  | changePassWord done =>
    obtain ⟨p, hash, digest, rfl⟩ := changeUpdate_digest done
    exact ⟨.password p hash digest rfl rfl, forall_spawned hashed (fun _ => id) trivial⟩
  | run here effect =>
    obtain ⟨documents, left⟩ := effect.documents (hashed _ (by simp [here]))
    exact ⟨documents, forall_replaced (here ▸ hashed) (fun _ => id) left⟩

/-! ### Append-only -/

def identity (user : Users) : Users := { user with password := none }

/-- The accounts, apart from their passwords, and the questions are still the first ones. -/
structure Kept (s t : AccountStore) : Prop where
  users : s.users.map identity <+: t.users.map identity
  questions : s.questions <+: t.questions

theorem Kept.refl (s : AccountStore) : Kept s s := ⟨List.prefix_refl _, List.prefix_refl _⟩

theorem Kept.trans {s t u : AccountStore} (first : Kept s t) (second : Kept t u) : Kept s u :=
  ⟨first.users.trans second.users, first.questions.trans second.questions⟩

def Hashed (env : AccountEnv) (users : List Users) : Prop :=
  ∀ user ∈ users, ∃ hash, Digest env hash ∧ user.password = some hash

theorem Documents.kept {s t : AccountStore} (documents : Documents env s t) : Kept s t := by
  cases documents with
  | same users questions => exact ⟨by rw [users], by rw [questions]⟩
  | user user stored users questions =>
    refine ⟨?_, by rw [questions]⟩
    rw [users, List.map_append]
    exact List.prefix_append _ _
  | question info users questions =>
    refine ⟨by rw [users], ?_⟩
    rw [questions]
    exact List.prefix_append _ _
  | password p hash digest users questions =>
    refine ⟨?_, by rw [questions]⟩
    rw [users, Mongo.updateOne_map (by intro _; rfl)]

theorem Documents.hashed {s t : AccountStore} (documents : Documents env s t) (hashed : Hashed env s.users) :
    Hashed env t.users := by
  cases documents with
  | same users => rwa [users]
  | user user stored users =>
    rw [users]
    exact forall_spawned hashed (fun _ => id) stored
  | question info users => rwa [users]
  | password p hash digest users =>
    rw [users]
    cases found : s.users.find? p with
    | none => rwa [Mongo.updateOne_of_none found]
    | some user =>
      obtain ⟨pre, post, whole, changed⟩ := Mongo.updateOne_of_some (f := setPassword hash) found
      rw [changed, List.append_cons]
      rw [whole] at hashed
      exact forall_replaced hashed (fun _ => id) (by simpa using ⟨hash, digest, rfl⟩)

theorem run_hashed (run : Run env now history s) :
    Hashed env s.store.users ∧ ∀ task ∈ s.tasks, task.hashed env := by
  refine run.preserved (P := fun s => Hashed env s.store.users ∧ ∀ task ∈ s.tasks, task.hashed env) ?_ ?_
  · exact ⟨by simp [Hashed, init], by simp [init]⟩
  · rintro t event u ⟨hashed, waiting⟩ taken
    obtain ⟨documents, left⟩ := taken.documents waiting
    exact ⟨documents.hashed hashed, left⟩

theorem run_kept {later : History} (run : Run env now history s)
    (more : Transition.Run (Step env) s later t) : Kept s.store t.store := by
  have both : Kept s.store t.store ∧ ∀ task ∈ t.tasks, task.hashed env := by
    refine more.preserved (P := fun t => Kept s.store t.store ∧ ∀ task ∈ t.tasks, task.hashed env) ?_ ?_
    · exact ⟨.refl _, (run_hashed run).2⟩
    · rintro u event v ⟨kept, waiting⟩ taken
      obtain ⟨documents, left⟩ := taken.documents waiting
      exact ⟨kept.trans documents.kept, left⟩
  exact both.1

/-- From any state that a run reaches, however it goes on: no account and no question is lost, what is known of an
account apart from its password stays so, and every password is a digest. -/
theorem accounts_kept {later : History} (run : Run env now history s)
    (more : Transition.Run (Step env) s later t) : Kept s.store t.store ∧ Hashed env t.store.users :=
  ⟨run_kept run more, (run_hashed (run.append more)).1⟩

/-! ### What is counted -/

/-- The registrations that have come up to a stage and wait there. -/
def Task.waits (stage : Stage) : Task → Bool
  | .registe _ _ _ other => other == stage
  | _ => false

/-- Each registration that returned has a question, and each question was saved for a user inserted before. -/
structure Counted (past : List Event) (s : State) : Prop where
  pool : pool s.store = some (returned past).length
  questions : (returned past).length + s.tasks.countP (Task.waits .incrby) ≤ s.store.questions.length
  users : s.store.questions.length + s.tasks.countP (Task.waits .save) ≤ s.store.users.length

theorem Effect.pool {store store' : AccountStore} {task : Task} {rest : List Task} {n : Nat}
    (effect : Effect env store task event store' rest) (counts : AccountService.pool store = some n) :
    AccountService.pool store' = some ↑(n + event.returns.length) := by
  cases effect with
  | insert done =>
    have same := congrFun (registeInsert_stores done).2 ACCOUNT_POOL_NAMESPACE
    exact (Redis.counter_congr same).trans counts
  | incrby done =>
    obtain ⟨raised, incremented, -, -, counted⟩ := registeIncrby_ok counts
    obtain rfl := Except.ok.inj (done.symm.trans incremented)
    exact counted
  | @set issue renew =>
    exact (Redis.counter_congr (Redis.set_of_ne _ _ (pool_key issue.kind issue.tid))).trans counts
  | @setnx issue renew =>
    exact (Redis.counter_congr (Redis.setnx_of_ne _ _ (pool_key issue.kind issue.tid))).trans counts
  | forgetPassword done =>
    obtain ⟨p, hash, -, rfl⟩ := forgetUpdate_digest done
    exact counts
  | @del tid => exact (delToken_untouched tid store).pool.trans counts
  | _ => exact counts

theorem length_replaced (p : Users → Bool) (hash : String) (users : List Users) :
    (Mongo.updateOne p (setPassword hash) users).length = users.length := by
  rw [← List.length_map identity, Mongo.updateOne_map (by intro _; rfl), List.length_map]

/-- A question saved lets one registration wait to be counted, and a user inserted lets one save its question. -/
theorem Effect.balance {store store' : AccountStore} {task : Task} {rest : List Task}
    (effect : Effect env store task event store' rest) :
    (event.returns.length + rest.countP (Task.waits .incrby) + store.questions.length ≤
      [task].countP (Task.waits .incrby) + store'.questions.length) ∧
    store'.questions.length + rest.countP (Task.waits .save) + store.users.length ≤
      store.questions.length + [task].countP (Task.waits .save) + store'.users.length := by
  cases effect with
  | insert done =>
    unfold registeInsert at done
    split at done
    · cases done
    · obtain rfl := Except.ok.inj done
      simp [Task.waits, Event.returns]
      omega
  | save =>
    simp [Task.waits, Event.returns, registeSave]
    omega
  | incrby done =>
    unfold registeIncrby at done
    split at done
    · cases done
    · obtain rfl := Except.ok.inj done
      simp [Task.waits, Event.returns]
  | forgetPassword done =>
    obtain ⟨p, hash, -, rfl⟩ := forgetUpdate_digest done
    simp [Task.waits, Event.returns, length_replaced]
  | @setnx issue renew => split <;> simp [Task.waits, Event.returns]
  | del => simp [Task.waits, Event.returns, delToken]
  | _ => simp [Task.waits, Event.returns]

theorem Counted.called {store : AccountStore} {task : Task} (counted : Counted past s) (silent : event.returns = [])
    (pool : AccountService.pool store = AccountService.pool s.store) (questions : store.questions = s.store.questions)
    (users : store.users.length = s.store.users.length)
    (idle : task.waits .incrby = false ∧ task.waits .save = false) :
    Counted (past ++ [event]) { store := store, tasks := s.tasks ++ [task] } where
  pool := by rw [returned_snoc, silent, List.append_nil, pool, counted.pool]
  questions := by
    have before := counted.questions
    simp only [returned_snoc, silent, List.append_nil, questions, List.countP_append, List.countP_singleton, idle.1,
      Bool.false_eq_true, if_false]
    omega
  users := by
    have before := counted.users
    simp only [questions, users, List.countP_append, List.countP_singleton, idle.2, Bool.false_eq_true, if_false]
    omega

theorem Step.counted (taken : Step env s event t) (counted : Counted past s) : Counted (past ++ [event]) t := by
  cases taken with
  | tick =>
    have silent : returned (past ++ [.internal]) = returned past := by
      rw [returned_snoc]
      exact List.append_nil _
    exact ⟨by rw [silent]; exact counted.pool, by rw [silent]; exact counted.questions, counted.users⟩
  | registe | login | refresh | forgetPassword => exact counted.called rfl rfl rfl rfl ⟨rfl, rfl⟩
  | changePassWord done =>
    obtain ⟨p, hash, -, rfl⟩ := changeUpdate_digest done
    exact counted.called rfl rfl rfl (length_replaced p hash _) ⟨rfl, rfl⟩
  | @run pre task post event store rest here effect =>
    obtain ⟨questions, users⟩ := effect.balance
    have before := counted.questions
    have earlier := counted.users
    rw [here, List.append_cons, List.countP_append, List.countP_append] at before earlier
    refine ⟨?_, ?_, ?_⟩
    · rw [returned_snoc, List.length_append]
      exact effect.pool counted.pool
    · rw [returned_snoc, List.length_append, List.countP_append, List.countP_append]
      dsimp only
      omega
    · rw [List.countP_append, List.countP_append]
      dsimp only
      omega

theorem run_counted (run : Run env now history s) : Counted (labels history) s := by
  refine run.invariant (P := fun history s => Counted (labels history) s) ?_ fun _ _ _ _ _ counted taken => ?_
  · exact ⟨rfl, by simp [returned, init], by simp [init]⟩
  · rw [labels_append, labels_cons, labels_nil]
    exact taken.counted counted

/-- In every run the pool is the number of registrations that returned. There are at least as many questions, and
at least as many users as questions. -/
theorem registrations_counted (run : Run env now history s) :
    pool s.store = some (returned (labels history)).length ∧
      (returned (labels history)).length ≤ s.store.questions.length ∧
      s.store.questions.length ≤ s.store.users.length := by
  have counted := run_counted run
  exact ⟨counted.pool, (Nat.le_add_right _ _).trans counted.questions, (Nat.le_add_right _ _).trans counted.users⟩

/-- A second registration, after a first one. -/
theorem accounts_kept_sample : ∃ later t,
    Transition.Run (Step (sampleEnv sampleSigner)) ⟨sampleRegistered 0, []⟩ later t ∧
    .registe otherBody ∈ labels later ∧
    Kept (sampleRegistered 0) t.store ∧ Hashed (sampleEnv sampleSigner) t.store.users := by
  obtain ⟨history, run, -⟩ := registe_alone (s := init 0) rfl (registe_sample sampleSigner 0)
  obtain ⟨t, done⟩ := otherBody_registered
  obtain ⟨later, more, whole, -⟩ := registe_alone (s := ⟨sampleRegistered 0, []⟩) rfl done
  exact ⟨later, _, more, by simp [whole], accounts_kept run more⟩

theorem registrations_counted_sample : ∃ history s, Run (sampleEnv sampleSigner) 0 history s ∧
    pool s.store = some (returned (labels history)).length ∧
    (returned (labels history)).length ≤ s.store.questions.length ∧
    s.store.questions.length ≤ s.store.users.length := by
  obtain ⟨history, run, -⟩ := registe_alone (s := init 0) rfl (registe_sample sampleSigner 0)
  exact ⟨history, _, run, registrations_counted run⟩

/-! ### Whose questions they are -/

/-- A registration knows its tid, and once it has inserted its user there is a user with that tid. -/
def Task.owned (users : List Users) : Task → Prop
  | .registe tid _ body stage =>
    body.get "tid" = none ∧ ∃ n : Int, tid = .num n ∧ (stage = .save → ∃ user ∈ users, user.tid = some (.num n))
  | _ => True

def Owned (store : AccountStore) : Prop := ∀ info ∈ store.questions, ∃ user ∈ store.users, user.tid = some info.uid

theorem Kept.tid {s t : AccountStore} (kept : Kept s t) {tid : Option Json}
    (present : ∃ user ∈ s.users, user.tid = tid) : ∃ user ∈ t.users, user.tid = tid := by
  obtain ⟨user, member, rfl⟩ := present
  obtain ⟨later, held, same⟩ := List.mem_map.mp (kept.users.subset (List.mem_map_of_mem (f := identity) member))
  exact ⟨later, held, (congrArg Users.tid same : (identity later).tid = (identity user).tid)⟩

theorem Kept.owned {s t : AccountStore} (kept : Kept s t) {task : Task} (owned : task.owned s.users) :
    task.owned t.users := by
  cases task with
  | registe tid hash body stage =>
    obtain ⟨untold, n, number, inserted⟩ := owned
    exact ⟨untold, n, number, fun saving => kept.tid (inserted saving)⟩
  | _ => trivial

theorem Kept.still_owned {s t : AccountStore} (kept : Kept s t) (owned : Owned s) (same : t.questions = s.questions) :
    Owned t := by
  intro info member
  exact kept.tid (owned info (same ▸ member))

theorem Effect.owned {store store' : AccountStore} {task : Task} {rest : List Task}
    (effect : Effect env store task event store' rest) (kept : Kept store store') (owned : Owned store)
    (mine : task.owned store.users) : Owned store' ∧ ∀ next ∈ rest, next.owned store'.users := by
  cases effect with
  | find =>
    obtain ⟨untold, n, number, -⟩ := mine
    exact ⟨owned, List.forall_mem_singleton.mpr ⟨untold, n, number, nofun⟩⟩
  | @insert tid hash body id inserted done =>
    obtain ⟨untold, n, rfl, -⟩ := mine
    obtain ⟨user, same, -, rfl⟩ := registeInsert_ok (numbered_of_none untold) done
    refine ⟨kept.still_owned owned rfl, List.forall_mem_singleton.mpr ⟨untold, n, rfl, fun _ => ?_⟩⟩
    exact ⟨user, List.mem_append_right _ (List.mem_singleton_self user), same⟩
  | save =>
    obtain ⟨untold, n, rfl, inserted⟩ := mine
    refine ⟨fun info member => ?_, List.forall_mem_singleton.mpr ⟨untold, n, rfl, nofun⟩⟩
    rcases List.mem_append.mp member with before | fresh
    · exact owned info before
    · obtain rfl := List.mem_singleton.mp fresh
      exact inserted rfl
  | incrby done =>
    unfold registeIncrby at done
    split at done
    · cases done
    · obtain rfl := Except.ok.inj done
      exact ⟨owned, by simp⟩
  | forgetPassword done =>
    obtain ⟨p, hash, -, rfl⟩ := forgetUpdate_digest done
    exact ⟨kept.still_owned owned rfl, by simp [Task.owned]⟩
  | @setnx issue renew =>
    refine ⟨owned, ?_⟩
    split <;> simp [Task.owned]
  | sign | set => exact ⟨owned, by simp [Task.owned]⟩
  | _ => exact ⟨owned, by simp⟩

/-- If no body of a registration brings a tid of its own, every question in every run is for the tid of a user. -/
theorem questions_owned (run : Run env now history s)
    (told : ∀ body, .registe body ∈ labels history → body.get "tid" = none) : Owned s.store := by
  have both : Owned s.store ∧ ∀ task ∈ s.tasks, task.owned s.store.users := by
    induction run with
    | nil => exact ⟨by simp [Owned, init], by simp [init]⟩
    | @snoc history t event u run taken ih =>
      rw [labels_append, labels_cons, labels_nil] at told
      obtain ⟨owned, waiting⟩ := ih fun body member => told body (List.mem_append_left _ member)
      have kept := (taken.documents (run_hashed run).2).1.kept
      cases taken with
      | tick => exact ⟨owned, waiting⟩
      | @registe body tid hash read =>
        rw [registeGet_eq (run_counted run).pool] at read
        obtain ⟨digest, -, same⟩ := Redis.map_ok.mp read
        obtain ⟨rfl, rfl⟩ := Prod.mk.inj same
        exact ⟨owned, forall_spawned waiting (fun _ => id) ⟨told body (by simp), _, rfl, by simp⟩⟩
      | login | refresh | forgetPassword => exact ⟨owned, forall_spawned waiting (fun _ => id) trivial⟩
      | changePassWord done =>
        obtain ⟨p, hash, -, rfl⟩ := changeUpdate_digest done
        exact ⟨kept.still_owned owned rfl, forall_spawned waiting (fun _ => kept.owned) trivial⟩
      | @run pre task post event store rest here effect =>
        obtain ⟨owned, left⟩ := effect.owned kept owned (waiting _ (by simp [here]))
        exact ⟨owned, forall_replaced (here ▸ waiting) (fun _ => kept.owned) left⟩
  exact both.1

theorem questions_owned_sample : ∃ history s, Run (sampleEnv sampleSigner) 0 history s ∧ Owned s.store := by
  obtain ⟨history, run, whole, -⟩ := registe_alone (s := init 0) rfl (registe_sample sampleSigner 0)
  refine ⟨history, _, run, questions_owned run ?_⟩
  rw [whole]
  intro body member
  simp only [List.mem_cons, Event.registe.injEq, reduceCtorEq, List.not_mem_nil, or_false] at member
  rw [member]
  rfl

end TacoBack.AccountSystem
