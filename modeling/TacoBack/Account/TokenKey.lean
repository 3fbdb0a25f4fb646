import TacoBack.Account.Session

/-!
# What the key of an access token holds

A token is stored with two commands, and a password call deletes its key with one that may come
between them. The second command then stores the lifetime as if it were the token.
-/

namespace TacoBack.AccountSystem

open AccountService Transition

variable {env : AccountEnv} {past : List Event} {s s' : State} {tid : String}

/-! ### Steps with their tasks -/

/-- A step together with the task it runs. A call that begins writes nothing to Redis. -/
inductive TaskStep (env : AccountEnv) (s : State) : Option Task × Event → State → Prop where
  | call {event s'} (taken : Step env s event s') (unwritten : s'.store.redis = s.store.redis) :
      TaskStep env s (none, event) s'
  | run {pre task post event store rest} (here : s.tasks = pre ++ task :: post)
      (effect : Effect env s.store task event store rest) :
      TaskStep env s (some task, event) { store := store, tasks := pre ++ rest ++ post }

abbrev TaskHistory := List (State × (Option Task × Event))

abbrev TaskRun (env : AccountEnv) (now : Int) : TaskHistory → State → Prop :=
  Transition.Run (TaskStep env) (init now)

def untasked (history : TaskHistory) : History := history.map fun x => (x.1, x.2.2)

theorem TaskStep.step {label : Option Task × Event} (taken : TaskStep env s label s') : Step env s label.2 s' := by
  cases taken with
  | call taken => exact taken
  | run here effect => exact .run here effect

theorem Step.tasked {event : Event} (taken : Step env s event s') : ∃ task, TaskStep env s (task, event) s' := by
  cases taken with
  | run here effect => exact ⟨_, .run here effect⟩
  | tick later => exact ⟨none, .call (.tick later) rfl⟩
  | registe read => exact ⟨none, .call (.registe read) rfl⟩
  | login hashed found => exact ⟨none, .call (.login hashed found) rfl⟩
  | refresh read => exact ⟨none, .call (.refresh read) rfl⟩
  | forgetPassword accepted => exact ⟨none, .call (.forgetPassword accepted) rfl⟩
  | changePassWord done =>
    obtain ⟨p, hash, -, updated⟩ := changeUpdate_ok done
    exact ⟨none, .call (.changePassWord done) (by rw [updated])⟩

/-- The runs of the system are the runs of its tasks. -/
theorem run_iff_tasks {now : Int} {history : History} :
    Run env now history s ↔ ∃ tasked, TaskRun env now tasked s ∧ untasked tasked = history := by
  constructor
  · intro run
    induction run with
    | nil => exact ⟨[], .nil, rfl⟩
    | @snoc h t u event before taken ih =>
      obtain ⟨tasked, runs, same⟩ := ih
      obtain ⟨task, step⟩ := taken.tasked
      exact ⟨_, runs.snoc step, by simp [untasked, ← same]⟩
  · rintro ⟨tasked, runs, rfl⟩
    induction runs with
    | nil => exact .nil
    | @snoc h t u label before taken ih =>
      have longer := Transition.Run.snoc ih taken.step
      simpa [untasked] using longer

/-! ### The key -/

/-- Under the key of `tid` is nothing, or an access token that was signed for `tid`. -/
def OnlyTokens (past : List Event) (s : AccountStore) (tid : String) : Prop :=
  ∀ value, s.redis (tokenKey tid) = some value →
    ∃ issue, .issued issue ∈ past ∧ issue.kind = .access ∧ Json.template issue.tid = tid ∧
      value = .string issue.token

/-- No `SETNX` finds the key absent, as after a deletion between the two commands, and no refresh token
is stored under it. -/
def Undisturbed (tid : String) (s : State) : Option Task × Event → Prop
  | (some (.setnx issue _), .internal) =>
    issue.kind.key issue.tid = tokenKey tid → (s.store.redis (tokenKey tid)).isSome
  | (some (.set issue _), .internal) => issue.kind.key issue.tid = tokenKey tid → issue.kind = .access
  | _ => True

/-- What a task writes under the key. -/
inductive Writes (env : AccountEnv) (s t : AccountStore) (tid : String) : Task → Event → Prop where
  | nothing {task event} (kept : t.redis (tokenKey tid) = s.redis (tokenKey tid))
      (undisturbed : ∀ tasks, Undisturbed tid ⟨s, tasks⟩ (some task, event)) : Writes env s t tid task event
  | removed {task event} (gone : t.redis (tokenKey tid) = none)
      (undisturbed : ∀ tasks, Undisturbed tid ⟨s, tasks⟩ (some task, event)) : Writes env s t tid task event
  | set {issue renew} (here : issue.kind.key issue.tid = tokenKey tid)
      (stored : t.redis (tokenKey tid) = some (.string issue.token)) : Writes env s t tid (.set issue renew) .internal
  | setnx {issue renew} (here : issue.kind.key issue.tid = tokenKey tid) (absent : s.redis (tokenKey tid) = none)
      (stored : t.redis (tokenKey tid) = some (.string (issue.kind.expire env).ms)) :
      Writes env s t tid (.setnx issue renew) .internal

theorem Effect.writes {store store' : AccountStore} {task : Task} {event : Event} {rest : List Task}
    (effect : Effect env store task event store' rest) (tid : String) : Writes env store store' tid task event := by
  cases effect with
  | find | known | invalid | sign | refuse | throw => exact .nothing rfl fun _ => trivial
  | insert done =>
    unfold registeInsert at done
    split at done
    · cases done
    · exact .nothing (by rw [← Except.ok.inj done]) fun _ => trivial
  | save => exact .nothing rfl fun _ => trivial
  | incrby done =>
    unfold registeIncrby at done
    split at done
    · cases done
    · rename_i incremented
      rw [← Except.ok.inj done]
      exact .nothing (Redis.incrby_of_ne incremented (token_ne_pool _)) fun _ => trivial
  | @set issue renew =>
    by_cases here : issue.kind.key issue.tid = tokenKey tid
    · exact .set here (by rw [here]; exact Function.update_self _ _ _)
    · exact .nothing (Redis.set_of_ne _ _ (Ne.symm here)) fun _ same => (here same).elim
  | @setnx issue renew =>
    by_cases here : issue.kind.key issue.tid = tokenKey tid
    · cases held : store.redis (tokenKey tid) with
      | none =>
        refine .setnx here held ?_
        rw [here]
        dsimp only [Redis.setnx]
        rw [if_neg (by simp [held])]
        exact Function.update_self _ _ _
      | some value =>
        refine .nothing ?_ fun _ _ => by simp [held]
        rw [here, Redis.setnx_of_some _ (by simp [held])]
    · exact .nothing (Redis.setnx_of_ne _ _ (Ne.symm here)) fun _ same => (here same).elim
  | forgetPassword done =>
    obtain ⟨p, hash, -, rfl⟩ := forgetUpdate_ok done
    exact .nothing rfl fun _ => trivial
  | @del owner =>
    by_cases here : tokenKey tid = TOKEN_NAMESPACE owner
    · exact .removed (by rw [here]; exact Function.update_self _ _ _) fun _ => trivial
    · exact .nothing (Redis.del_of_ne _ here) fun _ => trivial
  | @fail task => exact .nothing rfl fun _ => by cases task <;> trivial

theorem OnlyTokens.kept {store store' : AccountStore} (only : OnlyTokens past store tid)
    (same : store'.redis (tokenKey tid) = store.redis (tokenKey tid)) (event : Event) :
    OnlyTokens (past ++ [event]) store' tid := by
  intro value held
  rw [same] at held
  obtain ⟨issue, member, minted⟩ := only value held
  exact ⟨issue, List.mem_append_left _ member, minted⟩

theorem onlyTokens_of_none {store : AccountStore} (gone : store.redis (tokenKey tid) = none) :
    OnlyTokens past store tid := by
  intro value held
  cases gone.symm.trans held

theorem Sound.stored {issue : Issue} {renew : Bool} (sound : Sound env past s)
    (waiting : .set issue renew ∈ s.tasks) : .issued issue ∈ past := (sound.tasks _ waiting).1

theorem TaskStep.onlyTokens {task : Option Task} {event : Event} (taken : TaskStep env s (task, event) s')
    (sound : Sound env past s) (undisturbed : Undisturbed tid s (task, event))
    (only : OnlyTokens past s.store tid) : OnlyTokens (past ++ [event]) s'.store tid := by
  cases taken with
  | call taken unwritten => exact only.kept (by rw [unwritten]) event
  | @run pre task post event store rest here effect =>
    cases effect.writes tid with
    | nothing kept => exact only.kept kept event
    | removed gone => exact onlyTokens_of_none gone
    | setnx same absent =>
      have present := undisturbed same
      simp [absent] at present
    | @set issue renew same stored =>
      intro value held
      have waiting : .set issue renew ∈ s.tasks := by simp [here]
      have minted := sound.stored waiting
      have access : issue.kind = .access := undisturbed same
      refine ⟨issue, List.mem_append_left _ minted, access, ?_, Option.some.inj (held.symm.trans stored)⟩
      rw [access] at same
      exact tokenKey_eq_iff.mp same.symm

/-- No lifetime, printed, is a signed token. -/
def NoLifetime (env : AccountEnv) : Prop :=
  ∀ payload expire now token, env.jwt.sign payload expire now = some token →
    token ≠ env.access_token.ms ∧ token ≠ env.refresh_token.ms

theorem refresh_ne_object (text : String) : "REFRESH:" ++ text ≠ "[object Object]" := by
  intro same
  have characters := congrArg (fun key : String => key.toList.take 1) same
  simp at characters

/-- The key of an access token holds no refresh token that was signed. -/
theorem Sound.access {issue other : Issue} (sound : Sound env past s) (lawful : env.jwt.Lawful)
    (minted : .issued issue ∈ past) (minted' : .issued other ∈ past) (access : other.kind = .access)
    (same : other.token = issue.token) (here : issue.kind.key issue.tid = tokenKey (Json.template other.tid)) :
    issue.kind = .access := by
  obtain ⟨_, _, signed⟩ := sound.signed issue minted
  obtain ⟨_, _, signed'⟩ := sound.signed other minted'
  have payload := (lawful.decode_sign signed').symm.trans (same ▸ lawful.decode_sign signed)
  rw [access] at payload
  cases kind : issue.kind with
  | access => rfl
  | refresh access_token =>
    rw [kind] at payload here
    have text := tokenKey_eq_refresh_iff.mp here.symm
    rw [show other.tid = refreshPayload access_token from payload] at text
    exact (refresh_ne_object _ text).elim

theorem TaskStep.undisturbed {task : Option Task} {event : Event} (lawful : env.jwt.Lawful) (apart : NoLifetime env)
    (taken : TaskStep env s (task, event) s') (sound : Sound env past s)
    (only : OnlyTokens (past ++ [event]) s'.store tid) : Undisturbed tid s (task, event) := by
  cases taken with
  | call => trivial
  | @run pre task post event store rest here effect =>
    cases effect.writes tid with
    | nothing _ undisturbed | removed _ undisturbed => exact undisturbed s.tasks
    | @setnx issue renew same absent stored =>
      obtain ⟨other, minted, -, -, token⟩ := only _ stored
      obtain ⟨_, _, signed⟩ := sound.signed other (by simpa using minted)
      obtain ⟨first, second⟩ := apart _ _ _ _ signed
      have text := Redis.Value.string.inj token
      cases kind : issue.kind with
      | access => exact (first (by rw [← text, kind]; rfl)).elim
      | refresh => exact (second (by rw [← text, kind]; rfl)).elim
    | @set issue renew same stored =>
      obtain ⟨other, minted, access, owner, token⟩ := only _ stored
      have waiting : .set issue renew ∈ s.tasks := by simp [here]
      refine fun _ => sound.access lawful (sound.stored waiting) (by simpa using minted) access ?_ (owner ▸ same)
      exact (Redis.Value.string.inj token).symm

/-- Everything signed so far, and where it is stored. -/
theorem tasks_sound {now : Int} {history : TaskHistory} (run : TaskRun env now history s) :
    Sound env (labels (untasked history)) s := run_sound (run_iff_tasks.mpr ⟨history, run, rfl⟩)

/-- User 1 registers and logs in. Between the two commands of the login a password change, with the
wrong password, deletes the key. -/
theorem disturbed_run : ∃ history s, Run (sampleEnv sampleJwt) 0 history s ∧
    s.store.redis (tokenKey "[object Object]") = some (.string "604800000") := by
  obtain ⟨registering, registers, -⟩ := registe_alone (s := init 0) rfl (registe_sample sampleJwt 0)
  have enters := registers.snoc (@Step.login _ ⟨sampleRegistered 0, []⟩ (some sampleTid) (some (.str "123456789Sd!")) _
    rfl rfl)
  have signed : (sampleEnv sampleJwt).jwt.sign (some sampleTid) (some "7d") 0 = some "jwt.1" := by rfl
  have sets := (enters.snoc (.first rfl (.sign signed))).snoc (.first rfl .set)
  have changes := sets.snoc (@Step.changePassWord _ _ (some sampleTid) (some (.str "guess")) (some (.str "123456789Sd"))
    none _ rfl)
  have deletes := changes.snoc (@Step.run _ _ [.setnx ⟨.access, some sampleTid, .login (some sampleTid), "jwt.1"⟩ true]
    _ [] _ _ _ rfl .del)
  exact ⟨_, _, deletes.snoc (.first rfl .setnx), rfl⟩

end TacoBack.AccountSystem
