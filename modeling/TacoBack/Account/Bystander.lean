import TacoBack.Account.Alone
import TacoBack.Account.Registration

/-!
# Calls about others

Calls for other users, in whatever order they go on, leave the documents and the tokens of a user alone. A call is
about the user if its filter finds a document of the user, or if it writes a key of the user, which the text of
another tid may name as well.
-/

namespace TacoBack.AccountSystem

open AccountService Transition

variable {env : AccountEnv} {s t : State} {event : Event} {n : Int} {store store' : AccountStore}

def ownKeys (n : Int) : List String := [TOKEN_NAMESPACE (some (.num n)), REFRESH_TOKEN_NS (some (.num n))]

theorem ownKeys_ne_pool {key : String} (own : key ∈ ownKeys n) : key ≠ ACCOUNT_POOL_NAMESPACE := by
  rcases List.mem_pair.mp own with rfl | rfl
  · exact (pool_ne_token _).symm
  · exact (pool_ne_refresh _).symm

/-- The token key that a task writes next. -/
def Task.key : Task → Option String
  | .set issue _ | .setnx issue _ => some (issue.kind.key issue.tid)
  | .del tid => some (TOKEN_NAMESPACE tid)
  | _ => none

/-- No task waits to write a key of the user. -/
def Elsewhere (n : Int) (s : State) : Prop := ∀ task ∈ s.tasks, ∀ key ∈ task.key, key ∉ ownKeys n

/-- What belongs to the user is still there, the tokens unchanged and the documents in front. -/
structure Spared (n : Int) (s t : AccountStore) : Prop where
  tokens : ∀ key ∈ ownKeys n, t.redis key = s.redis key
  users : (s.users.filter fun user => Mongo.equals (.num n) user.tid) <+: t.users.filter fun user => Mongo.equals (.num n) user.tid
  questions : s.questions <+: t.questions

theorem Spared.refl (s : AccountStore) : Spared n s s := ⟨fun _ _ => rfl, List.prefix_refl _, List.prefix_refl _⟩

theorem Spared.trans {s t u : AccountStore} (first : Spared n s t) (second : Spared n t u) : Spared n s u where
  tokens key own := (second.tokens key own).trans (first.tokens key own)
  users := first.users.trans second.users
  questions := first.questions.trans second.questions

/-- An update that finds the document of somebody else. -/
theorem filter_replaced {p : Users → Bool} {found : Option Users} {hash : String} {users : List Users}
    (same : found = users.find? p) (other : Mongo.equals (.num n) (found.bind Users.tid) = false) :
    ((Mongo.updateOne p (setPassword hash) users).filter fun user => Mongo.equals (.num n) user.tid) =
      users.filter fun user => Mongo.equals (.num n) user.tid := by
  subst same
  cases found : users.find? p with
  | none => rw [Mongo.updateOne_of_none found]
  | some user =>
    rw [found, Option.bind_some] at other
    obtain ⟨pre, post, whole, changed⟩ := Mongo.updateOne_of_some (f := setPassword hash) found
    rw [changed, whole]
    simp [setPassword, other]

theorem Effect.spared {task : Task} {rest : List Task} (effect : Effect env store task event store' rest)
    (elsewhere : ∀ key ∈ task.key, key ∉ ownKeys n) (unfound : ∀ tid, event = .replaced tid → Mongo.equals (.num n) tid = false) : Spared n store store' := by
  have apart : ∀ key, task.key = some key → ∀ own ∈ ownKeys n, own ≠ key := by
    rintro key writes own mine rfl
    exact elsewhere own writes mine
  cases effect with
  | insert done =>
    unfold registeInsert at done
    split at done
    · cases done
    · obtain rfl := Except.ok.inj done
      refine ⟨fun _ _ => rfl, ?_, List.prefix_refl _⟩
      rw [List.filter_append]
      exact List.prefix_append _ _
  | save => exact ⟨fun _ _ => rfl, List.prefix_refl _, List.prefix_append _ _⟩
  | incrby done =>
    unfold registeIncrby at done
    split at done
    · cases done
    · rename_i raised
      obtain rfl := Except.ok.inj done
      exact ⟨fun _ own => Redis.incrby_of_ne raised (ownKeys_ne_pool own), List.prefix_refl _, List.prefix_refl _⟩
  | set => exact ⟨fun key own => Redis.set_of_ne _ _ (apart _ rfl key own), List.prefix_refl _, List.prefix_refl _⟩
  | setnx => exact ⟨fun key own => Redis.setnx_of_ne _ _ (apart _ rfl key own), List.prefix_refl _, List.prefix_refl _⟩
  | del => exact ⟨fun key own => Redis.del_of_ne _ (apart _ rfl key own), List.prefix_refl _, List.prefix_refl _⟩
  | forgetPassword done =>
    obtain ⟨p, hash, same, rfl⟩ := forgetUpdate_ok done
    refine ⟨fun _ _ => rfl, ?_, List.prefix_refl _⟩
    rw [filter_replaced same (unfound _ rfl)]
  | _ => exact .refl _

theorem Step.spared (taken : Step env s event t) (elsewhere : Elsewhere n s) (unfound : ∀ tid, event = .replaced tid → Mongo.equals (.num n) tid = false) :
    Spared n s.store t.store := by
  cases taken with
  | run here effect => exact effect.spared (elsewhere _ (by simp [here])) unfound
  | changePassWord done =>
    obtain ⟨p, hash, same, rfl⟩ := changeUpdate_ok done
    refine ⟨fun _ _ => rfl, ?_, List.prefix_refl _⟩
    rw [filter_replaced same (unfound _ rfl)]
  | _ => exact ⟨fun _ _ => rfl, List.prefix_refl _, List.prefix_refl _⟩

theorem run_spared {history : History} (run : Transition.Run (Step env) s history t)
    (elsewhere : ∀ x ∈ history, Elsewhere n x.1) (unfound : ∀ tid, .replaced tid ∈ labels history → Mongo.equals (.num n) tid = false) :
    Spared n s.store t.store := by
  induction run with
  | nil => exact .refl _
  | @snoc history t event u run taken ih =>
    rw [labels_append, labels_cons, labels_nil] at unfound
    rw [List.forall_mem_append, List.forall_mem_singleton] at elsewhere
    refine (ih elsewhere.1 fun tid member => unfound tid (List.mem_append_left _ member)).trans
      (taken.spared elsewhere.2 fun tid same => unfound tid ?_)
    exact List.mem_append_right _ (List.mem_singleton.mpr same.symm)

/-! ### What the user sees -/

theorem Spared.alive (spared : Spared n store store') : alive (some (.num n)) store' = alive (some (.num n)) store := by
  have same := spared.tokens (TOKEN_NAMESPACE (some (.num n))) List.mem_cons_self
  simp only [AccountService.alive, Redis.get, same]

theorem Spared.works {password : String} (spared : Spared n store store') (works : Works env store.users (.num n) password) :
    Works env store'.users (.num n) password := by
  obtain ⟨user, member, same, stored⟩ := works
  have kept := spared.users.subset (List.mem_filter.mpr ⟨member, same⟩)
  exact ⟨user, (List.mem_filter.mp kept).1, same, stored⟩

theorem Spared.loginFind (lawful : env.driver.Lawful) (spared : Spared n store store') {password : String}
    (logs : loginFind env (some (.num n)) (env.sha256 password) store = .ok ()) :
    loginFind env (some (.num n)) (env.sha256 password) store' = .ok () := by
  have denotes := lawful.denotes_num n
  exact (loginFind_ok lawful denotes).mpr (spared.works ((loginFind_ok lawful denotes).mp logs))

theorem Spared.forgetFind (lawful : env.driver.Lawful) (spared : Spared n store store') (answer : Option Json)
    (asked : ∃ info ∈ store.questions, info.uid = .num n) :
    forgetFind env (some (.num n)) answer store' = forgetFind env (some (.num n)) answer store := by
  obtain ⟨info, member, same⟩ := asked
  have query : env.driver.mixedFilter (.num n) = some (Mongo.equals (.num n)) := lawful.denotes_num n
  have hit : (store.questions.find? fun info => Mongo.equals (.num n) (some info.uid)).isSome := by
    rw [List.find?_isSome]
    exact ⟨info, member, by simp [same]⟩
  obtain ⟨first, found⟩ := Option.isSome_iff_exists.mp hit
  have still := spared.questions.find?_eq_some found
  simp only [AccountService.forgetFind, Option.getD_some, query, found, still]

/-- In a run in which no call finds a document of the user to replace its password, or waits to write a key of the
user, the session stays alive or dead, the password logs in and the answer is checked as before. -/
theorem bystander {history : History} (lawful : env.driver.Lawful) (run : Transition.Run (Step env) s history t)
    (elsewhere : ∀ x ∈ history, Elsewhere n x.1) (unfound : ∀ tid, .replaced tid ∈ labels history → Mongo.equals (.num n) tid = false) :
    alive (some (.num n)) t.store = alive (some (.num n)) s.store ∧
    (∀ password, loginFind env (some (.num n)) (env.sha256 password) s.store = .ok () →
      loginFind env (some (.num n)) (env.sha256 password) t.store = .ok ()) ∧
    ∀ answer, (∃ info ∈ s.store.questions, info.uid = .num n) →
      forgetFind env (some (.num n)) answer t.store = forgetFind env (some (.num n)) answer s.store := by
  have spared := run_spared run elsewhere unfound
  exact ⟨spared.alive, fun _ => spared.loginFind lawful, spared.forgetFind lawful⟩

/-- Somebody guesses at the password of user 2. -/
theorem bystander_sample : ∃ history t, Transition.Run (Step (sampleEnv sampleSigner)) ⟨sampleRegistered 0, []⟩ history t ∧
    labels history = [.replaced none, .internal] ∧
    alive (some (.num 1)) t.store = alive (some (.num 1)) (sampleRegistered 0) ∧
    (∀ password, loginFind (sampleEnv sampleSigner) (some (.num 1)) (sampleSha256 password) (sampleRegistered 0) = .ok () →
      loginFind (sampleEnv sampleSigner) (some (.num 1)) (sampleSha256 password) t.store = .ok ()) ∧
    ∀ answer, (∃ info ∈ (sampleRegistered 0).questions, info.uid = .num 1) →
      forgetFind (sampleEnv sampleSigner) (some (.num 1)) answer t.store =
        forgetFind (sampleEnv sampleSigner) (some (.num 1)) answer (sampleRegistered 0) := by
  have guess : changeUpdate (sampleEnv sampleSigner) (some (.num 2)) (some (.str "guess")) (some (.str "newpwd"))
      (sampleRegistered 0) = .ok (none, sampleRegistered 0) := rfl
  have called : Transition.Run (Step (sampleEnv sampleSigner)) ⟨sampleRegistered 0, []⟩ _ _ :=
    .single (.changePassWord guess)
  have run := called.snoc (Step.only rfl .del)
  refine ⟨_, _, run, rfl, bystander Mongo.Driver.standard_lawful run ?_ ?_⟩
  · rintro x member
    simp only [List.mem_append, List.mem_singleton] at member
    rcases member with rfl | rfl
    · exact fun task here => by cases here
    · simp only [Elsewhere, List.nil_append, List.forall_mem_singleton, Task.key, Option.mem_some_iff, forall_eq']
      decide
  · intro tid member
    simp only [labels_cons, labels_nil, List.cons_append, List.nil_append, List.mem_cons,
      Event.replaced.injEq, reduceCtorEq, List.not_mem_nil, or_false] at member
    rw [member]
    rfl

end TacoBack.AccountSystem
