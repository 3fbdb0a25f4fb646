import TacoBack.Account.TokenKey
import TacoBack.Jwt.Readers

/-!
# TokenValidityCheckMiddleware and the stored tokens

The middleware looks for a token in a white list that no call writes. The account service stores live
tokens under keys of their own.
-/

namespace TacoBack.AccountSystem

open AccountService Transition TokenValidityCheckMiddleware

variable {env : AccountEnv} {past : List Event} {s s' : State} {tid : String}

/-- For each access token that was minted, the middleware calls `next` exactly if the token is the one
stored for its tid, with `req.user` as `AuthGuard` sets it, and throws `FAIL_TOKEN_INVALIDATE` otherwise. -/
def Follows (env : AccountEnv) (past : List Event) (s : AccountStore) : Prop :=
  ∀ issue, .issued issue ∈ past → issue.kind = .access →
    ((∃ user, use env.jwt s.redis (some ("Bearer " ++ issue.token)) = .ok user) ↔
      s.redis (TOKEN_NAMESPACE issue.tid) = some (.string issue.token)) ∧
    (∀ user, use env.jwt s.redis (some ("Bearer " ++ issue.token)) = .ok user →
      user = .value (env.jwt.decode issue.token)) ∧
    ∀ e, use env.jwt s.redis (some ("Bearer " ++ issue.token)) = .error e →
      e = .service .FAIL_TOKEN_INVALIDATE .FORBIDDEN

/-- The step stores no access token. -/
def Unstored : Option Task × Event → Prop
  | (some (.set issue _), .internal) => issue.kind ≠ .access
  | _ => True

/-! ### The white list -/

theorem token_ne_list (rest : String) : "TOKEN:" ++ rest ≠ "token:white-list" := by
  intro same
  have characters := congrArg (fun key : String => key.toList.take 1) same
  simp at characters

theorem list_ne_key (kind : Kind) (tid : Option Json) : "token:white-list" ≠ kind.key tid := by
  cases kind with
  | access => exact fun same => token_ne_list _ same.symm
  | refresh access_token =>
    rw [Kind.key, REFRESH_TOKEN_NS_eq]
    exact fun same => token_ne_list _ same.symm

theorem Effect.whiteList {store store' : AccountStore} {task : Task} {event : Event} {rest : List Task}
    (effect : Effect env store task event store' rest) :
    store'.redis "token:white-list" = store.redis "token:white-list" := by
  cases effect with
  | find | known | invalid | sign | refuse | throw | fail => rfl
  | insert done => rw [(registeInsert_stores done).2]
  | save => rfl
  | incrby done => exact (registeIncrby_stores done).2 _ (by decide)
  | set => exact Redis.set_of_ne _ _ (list_ne_key _ _)
  | setnx => exact Redis.setnx_of_ne _ _ (list_ne_key _ _)
  | forgetPassword done =>
    obtain ⟨p, hash, -, rfl⟩ := forgetUpdate_ok done
    rfl
  | @del tid => exact Redis.del_of_ne _ (list_ne_key .access tid)

theorem run_whiteList {now : Int} {history : TaskHistory} (run : TaskRun env now history s) :
    s.store.redis "token:white-list" = none := by
  refine run.preserved (P := fun s => s.store.redis "token:white-list" = none) rfl fun before label after absent taken => ?_
  cases taken with
  | call taken unwritten => rwa [unwritten]
  | run here effect => exact effect.whiteList.trans absent

/-- Whatever the header, the middleware lets nobody through. -/
theorem use_throws {α : Type} {redis : Redis.Db α} (absent : redis "token:white-list" = none) (jwt : Jwt.Lib)
    (authorization : String) :
    use jwt redis (some authorization) = .error (.service .FAIL_TOKEN_INVALIDATE .FORBIDDEN) := by
  have empty : Redis.hashAt redis "token:white-list" = .ok ∅ := by rw [Redis.hashAt, absent]
  rw [use, Redis.hexists, empty]
  rfl

theorem follows_iff_unstored {store : AccountStore} (absent : store.redis "token:white-list" = none) :
    Follows env past store ↔ ∀ issue, .issued issue ∈ past → issue.kind = .access →
      store.redis (TOKEN_NAMESPACE issue.tid) ≠ some (.string issue.token) := by
  refine forall_congr' fun issue => imp_congr_right fun _ => imp_congr_right fun _ => ?_
  rw [use_throws absent]
  constructor
  · rintro ⟨follows, -⟩ stored
    obtain ⟨user, done⟩ := follows.mpr stored
    cases done
  · intro unstored
    refine ⟨iff_of_false nofun unstored, nofun, fun e thrown => ?_⟩
    exact (Except.error.inj thrown).symm

/-! ### Runs that store no token -/

/-- A task of a call that has not stored its access token. -/
def Early : Task → Prop
  | .sign kind _ _ _ => kind = .access
  | .set issue _ => issue.kind = .access
  | .setnx _ _ => False
  | _ => True

/-- No token is stored, and every call is early. -/
structure Bare (s : State) : Prop where
  list : s.store.redis "token:white-list" = none
  tokens : ∀ tid, s.store.redis (tokenKey tid) = none
  tasks : ∀ task ∈ s.tasks, Early task

theorem Bare.follows (bare : Bare s) : Follows env past s.store := by
  refine (follows_iff_unstored bare.list).mpr fun issue _ _ stored => ?_
  have absent : s.store.redis (TOKEN_NAMESPACE issue.tid) = none := by
    rw [← tokenKey_eq_iff.mpr rfl]
    exact bare.tokens _
  cases absent.symm.trans stored

theorem Effect.early {store store' : AccountStore} {task : Task} {event : Event} {rest : List Task}
    (effect : Effect env store task event store' rest) (early : Early task) (unstored : Unstored (some task, event)) :
    ∀ next ∈ rest, Early next := by
  cases effect with
  | sign => simpa [Early] using early
  | set => exact (unstored early).elim
  | setnx => exact early.elim
  | _ => simp [Early]

/-- A `SET` of an access token shows in the store. -/
theorem Effect.unstored {store store' : AccountStore} {task : Task} {event : Event} {rest : List Task}
    (effect : Effect env store task event store' rest) (bare : ∀ tid, store.redis (tokenKey tid) = none)
    (unwritten : store'.redis = store.redis) : Unstored (some task, event) := by
  cases effect with
  | @set issue renew =>
    intro access
    have key : issue.kind.key issue.tid = tokenKey (Json.template issue.tid) := by
      rw [access, tokenKey_eq_iff.mpr rfl]
      rfl
    have written := congrFun unwritten (issue.kind.key issue.tid)
    rw [key, bare] at written
    cases (Function.update_self _ _ _).symm.trans written
  | @fail task => cases task <;> trivial
  | _ => trivial

theorem TaskStep.bare {label : Option Task × Event} (taken : TaskStep env s label s') (bare : Bare s)
    (unstored : Unstored label) : Bare s' := by
  cases taken with
  | call taken unwritten =>
    refine ⟨by rw [unwritten, bare.list], fun tid => by rw [unwritten, bare.tokens], ?_⟩
    cases taken with
    | tick => exact bare.tasks
    | login | refresh => exact forall_spawned bare.tasks (fun _ held => held) rfl
    | registe | changePassWord | forgetPassword => exact forall_spawned bare.tasks (fun _ held => held) trivial
    | @run pre task post event store rest here effect =>
      have early : Early task := bare.tasks task (by simp [here])
      exact forall_replaced (here ▸ bare.tasks) (fun _ held => held)
        (effect.early early (effect.unstored bare.tokens unwritten))
  | @run pre task post event store rest here effect =>
    have early : Early task := bare.tasks task (by simp [here])
    refine ⟨effect.whiteList.trans bare.list, fun tid => ?_, ?_⟩
    · cases effect.writes tid with
      | nothing kept => exact kept.trans (bare.tokens tid)
      | removed gone => exact gone
      | set => exact (unstored early).elim
      | setnx => exact early.elim
    · exact forall_replaced (here ▸ bare.tasks) (fun _ held => held) (effect.early early unstored)

/-- A step that leaves the middleware in line with the store has stored no access token. -/
theorem TaskStep.unstored {label : Option Task × Event} (taken : TaskStep env s label s') (sound : Sound env past s)
    (absent : s'.store.redis "token:white-list" = none) (follows : Follows env (past ++ [label.2]) s'.store) :
    Unstored label := by
  cases taken with
  | call => trivial
  | @run pre task post event store rest here effect =>
    cases effect with
    | @set issue renew =>
      intro access
      have waiting : .set issue renew ∈ s.tasks := by simp [here]
      refine (follows_iff_unstored absent).mp follows issue (List.mem_append_left _ (sound.stored waiting)) access ?_
      have key : issue.kind.key issue.tid = TOKEN_NAMESPACE issue.tid := by
        rw [access]
        rfl
      rw [← key]
      exact Function.update_self _ _ _
    | @fail task => cases task <;> trivial
    | _ => trivial

/-- The middleware follows the token store in every state of a run exactly if the run stores no access
token. -/
theorem always_follows_iff {now : Int} {history : TaskHistory} (run : TaskRun env now history s) :
    Always (fun past s => Follows env (labels (untasked past)) s.store) history s ↔ ∀ x ∈ history, Unstored x.2 := by
  have start : Bare (init now) := ⟨rfl, fun _ => rfl, by simp [init]⟩
  refine run.always_iff_invariant (Q := fun _ s => Bare s) (C := fun _ label => Unstored label) start
    (fun _ _ _ bare => bare.follows) (fun _ _ _ _ _ taken bare unstored => taken.bare bare unstored) ?_
  intro past s label s' before taken _ follows
  refine taken.unstored (tasks_sound before) (run_whiteList (before.snoc taken)) ?_
  simpa [untasked] using follows

theorem always_follows_sample : ∃ history s, TaskRun (sampleEnv sampleJwt) 0 history s ∧
    (Always (fun past s => Follows (sampleEnv sampleJwt) (labels (untasked past)) s.store) history s ↔
      ∀ x ∈ history, Unstored x.2) := by
  obtain ⟨history, run, -⟩ := session_run
  obtain ⟨tasked, tasks, -⟩ := run_iff_tasks.mp run
  exact ⟨tasked, _, tasks, always_follows_iff tasks⟩

/-- User 1 has logged in. The guard grants his token, which is the one stored for him, and the middleware
refuses it. -/
theorem stored_token_refused : ∃ history s, Run (sampleEnv sampleJwt) 0 history s ∧
    s.store.redis (TOKEN_NAMESPACE (some sampleTid)) = some (.string "jwt.1") ∧
    AuthGuard.canActivate sampleJwt (some "Bearer jwt.1") s.store.now = .ok (some (some sampleTid)) ∧
    use sampleJwt s.store.redis (some "Bearer jwt.1") = .error (.service .FAIL_TOKEN_INVALIDATE .FORBIDDEN) ∧
    ¬ Follows (sampleEnv sampleJwt) (labels history) s.store := by
  obtain ⟨history, run, shown⟩ := session_run
  have stored : sampleLoggedIn.redis (TOKEN_NAMESPACE (some sampleTid)) = some (.string "jwt.1") := by rfl
  have refused : use sampleJwt sampleLoggedIn.redis (some "Bearer jwt.1") =
    .error (.service .FAIL_TOKEN_INVALIDATE .FORBIDDEN) := by rfl
  refine ⟨history, _, run, stored, by rfl, refused, fun follows => ?_⟩
  have issued : .issued ⟨.access, some sampleTid, .login (some sampleTid), "jwt.1"⟩ ∈ labels history := by
    rw [shown]
    simp
  obtain ⟨user, done⟩ := (follows _ issued rfl).1.mpr stored
  cases refused.symm.trans done

end TacoBack.AccountSystem
