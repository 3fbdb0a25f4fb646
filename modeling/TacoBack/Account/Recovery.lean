import TacoBack.Account.Answers
import TacoBack.Account.Ledger
import TacoBack.Account.Sequential

/-!
# Recovering an account

Whoever registered with questions and answers can have them accepted at any later time, set a new password with
them, and log in, whatever calls came before and between.
-/

namespace TacoBack.AccountService

variable {env : AccountEnv} {idFilter : Json → Option (String → Bool)} {s t : AccountStore} {v : Int}

theorem minimizeFields_strings (entries : List (String × String)) :
    Mongo.minimizeFields (Json.strings entries) = Json.strings entries := by
  induction entries with
  | nil => rfl
  | cons entry entries ih =>
    obtain ⟨key, text⟩ := entry
    exact congrArg (List.cons (key, Json.str text)) ih

/-- Where the pool counts, `registe` throws before it writes, or files a user and a question, whatever tid the body
brings. -/
theorem registe_outcome (env : AccountEnv) (counts : pool s = some v) (id questionId : String) (body : Json) :
    (∃ e, registe env id questionId body s = (.error e, s)) ∨
    ∃ user t, registe env id questionId body s = (.ok (.num (v + 1)), t) ∧ t.users = s.users ++ [user] ∧
      tidField (.num (v + 1)) body = some user.tid ∧
      t.questions = s.questions ++ [⟨questionId, .num (v + 1), (body.get "question").bind Mongo.minimize⟩] ∧
      pool t = some (v + 1) := by
  unfold registe
  rw [registeGet_eq counts]
  cases digest env (body.get "password") with
  | error e => exact .inl ⟨e, rfl⟩
  | ok hash =>
    simp only [Except.map]
    cases registeFind env body s with
    | error e => exact .inl ⟨e, rfl⟩
    | ok =>
      unfold registeInsert
      cases built : userDocument env id (.num (v + 1)) hash body with
      | none => exact .inl ⟨_, rfl⟩
      | some user =>
        obtain ⟨t, raised, users, questions, counted⟩ := registeIncrby_ok (s := registeSave questionId (.num (v + 1)) body
          { s with users := s.users ++ [user] }) counts
        dsimp only
        rw [raised]
        exact .inr ⟨user, t, rfl, users, (userDocument_cast built).1, questions, counted⟩

/-- The questions are for tids up to the pool. -/
def Asked (s : AccountStore) : Prop := ∃ v, pool s = some v ∧ ∀ info ∈ s.questions, ∃ n, info.uid = .num n ∧ n ≤ v

theorem Asked.untouched (asked : Asked s) (same : t.questions = s.questions) (counted : pool t = pool s) : Asked t := by
  obtain ⟨v, counts, below⟩ := asked
  exact ⟨v, counted.trans counts, by rwa [same]⟩

theorem changePassWord_asked (asked : Asked s) (tid old_pwd new_pwd : Option Json) :
    Asked (changePassWord env tid old_pwd new_pwd s).2 := by
  unfold changePassWord
  split
  · exact asked
  · rename_i found updated done
    obtain ⟨p, hash, -, rfl⟩ := changeUpdate_ok done
    exact asked.untouched rfl (delToken_untouched tid _).pool

theorem forgetPassword_asked (asked : Asked s) (tid answer new_pwd : Option Json) :
    Asked (forgetPassword env tid answer new_pwd s).2 := by
  unfold forgetPassword
  split
  · exact asked
  split
  · exact asked
  · rename_i found updated done
    obtain ⟨p, hash, -, rfl⟩ := forgetUpdate_ok done
    exact asked.untouched rfl (delToken_untouched tid _).pool

theorem perform_asked (asked : Asked s) (call : Call) : Asked (perform env call s).2 := by
  cases call with
  | registe id questionId body =>
    obtain ⟨v, counts, below⟩ := asked
    rcases registe_outcome env counts id questionId body with ⟨e, done⟩ | ⟨user, t, done, -, -, questions, counted⟩
    · rw [perform, done]
      exact ⟨v, counts, below⟩
    · rw [perform, done]
      refine ⟨v + 1, counted, ?_⟩
      rw [questions, List.forall_mem_append, List.forall_mem_singleton]
      refine ⟨fun info member => ?_, v + 1, rfl, le_refl _⟩
      obtain ⟨n, number, bound⟩ := below info member
      exact ⟨n, number, by omega⟩
  | login tid password =>
    have same := @login_untouched env tid password s
    exact asked.untouched same.questions same.pool
  | refresh refresh_token renew =>
    have same := @refresh_untouched env refresh_token renew s
    exact asked.untouched same.questions same.pool
  | changePassWord tid old_pwd new_pwd => exact changePassWord_asked asked tid old_pwd new_pwd
  | forgetPassword tid answer new_pwd => exact forgetPassword_asked asked tid answer new_pwd
  | wait now => exact asked.untouched rfl rfl

theorem performAll_asked (calls : List Call) (asked : Asked s) :
    Asked (performAll env calls s).2 := by
  induction calls generalizing s with
  | nil => exact asked
  | cons call calls ih => exact ih (perform_asked asked call)

/-! ### What a registration leaves -/

/-- The first question for a tid, and a user with it. -/
structure Registered (n : Int) (questionId : String) (question : AList fun _ : String => String) (s : AccountStore) :
    Prop where
  info : s.questions.find? (fun info => Mongo.equals (.num n) (some info.uid)) =
    some ⟨questionId, .num n, some (.obj (Json.strings (fields question)))⟩
  user : ∃ user ∈ s.users, user.tid = some (.num n)

variable {n : Int} {question : AList fun _ : String => String} {id questionId new_pwd : String} {body tid : Json}

theorem minimize_strings (present : question.entries ≠ []) :
    Mongo.minimize (.obj (Json.strings (fields question))) = some (.obj (Json.strings (fields question))) := by
  obtain ⟨entries, distinct⟩ := question
  cases entries with
  | nil => exact (present rfl).elim
  | cons entry entries =>
    rw [Mongo.minimize, minimizeFields_strings]
    rfl

theorem Asked.registered (asked : Asked s) (untold : body.get "tid" = none)
    (asks : body.get "question" = some (.obj (Json.strings (fields question)))) (present : question.entries ≠ [])
    (done : registe env id questionId body s = (.ok tid, t)) : ∃ n, tid = .num n ∧ Registered n questionId question t := by
  obtain ⟨v, counts, below⟩ := asked
  rcases registe_outcome env counts id questionId body with ⟨e, failed⟩ | ⟨user, t', made, users, cast, questions, -⟩
  · cases failed.symm.trans done
  obtain ⟨same, rfl⟩ := Prod.mk.inj (made.symm.trans done)
  obtain rfl := Except.ok.inj same
  have owner := tidField_iff.mpr (numbered_of_none untold) _ cast
  refine ⟨v + 1, rfl, ?_, user, users ▸ List.mem_append_right _ (List.mem_singleton_self user), owner⟩
  have earlier : s.questions.find? (fun info => Mongo.equals (.num (v + 1)) (some info.uid)) = none := by
    rw [List.find?_eq_none]
    intro info member
    obtain ⟨n, number, bound⟩ := below info member
    simp only [number, Mongo.equals_num, decide_eq_true_eq, Json.num.injEq]
    omega
  rw [questions, asks, Option.bind_some, minimize_strings present, List.find?_append, earlier]
  simp

theorem Registered.kept (registered : Registered n questionId question s) (kept : AccountSystem.Kept s t) :
    Registered n questionId question t where
  info := kept.questions.find?_eq_some registered.info
  user := kept.tid registered.user

section Answering

variable (registered : Registered n questionId question s) (lawful : env.driver.Lawful)

include registered lawful

theorem Registered.checked (ids : FindsById idFilter questionId) :
    checkAnswer env idFilter (some (.num n)) (some (.str questionId))
      (some (.obj (fields (question.mapValues Json.str)))) s = .ok true :=
  (checkAnswer_ok_iff (lawful.denotes_num n) registered.info rfl ids).mpr rfl

/-- With the answers a password is set, and it logs in. -/
theorem Registered.resets : ∃ u,
    forgetPassword env (some (.num n)) (some (.obj (fields (question.mapValues Json.str)))) (some (.str new_pwd)) s =
      (.ok true, u) ∧
    login env (some (.num n)) (some (.str new_pwd)) u = createToken env (some (.num n)) u := by
  have accepted : some (questionOf (s.questions.find? fun info => Mongo.equals (.num n) (some info.uid))) =
      some (.obj (fields (question.mapValues Json.str))) := by
    rw [registered.info, fields_strings]
    rfl
  refine ⟨_, by rw [forgetPassword_eq (lawful.denotes_num n), if_pos accepted], ?_⟩
  obtain ⟨user, member, same⟩ := registered.user
  have hit : ∃ user, s.users.find? (fun user => Mongo.equals (.num n) user.tid) = some user := by
    rw [← Option.isSome_iff_exists, List.find?_isSome]
    exact ⟨user, member, by simp [same]⟩
  obtain ⟨first, found⟩ := hit
  obtain ⟨pre, post, -, changed⟩ := Mongo.updateOne_of_some (f := setPassword (env.sha256 new_pwd)) found
  have logs : loginFind env (some (.num n)) (env.sha256 new_pwd) (delToken (some (.num n)) { s with
      users := Mongo.updateOne (fun user => Mongo.equals (.num n) user.tid) (setPassword (env.sha256 new_pwd)) s.users }) =
      .ok () := by
    refine (loginFind_ok lawful (lawful.denotes_num n)).mpr ⟨setPassword (env.sha256 new_pwd) first, ?_, ?_, rfl⟩
    · dsimp only [delToken]
      rw [changed]
      exact List.mem_append_right _ List.mem_cons_self
    · simpa [setPassword] using List.find?_some found
  simp only [login, digest, logs]

end Answering

/-- Whoever registers with questions after any calls, and gets a tid: whatever calls follow and however these overlap,
his answers pass the check, and with them he sets a password that logs in. -/
theorem recovers {history : List (AccountSystem.State × AccountSystem.Event)} {later : AccountSystem.State}
    (lawful : env.driver.Lawful) (ids : FindsById idFilter questionId) (calls : List Call) (now : Int)
    (untold : body.get "tid" = none)
    (asks : body.get "question" = some (.obj (Json.strings (fields question)))) (present : question.entries ≠ [])
    (done : registe env id questionId body (performAll env calls (AccountSystem.init now).store).2 = (.ok tid, t))
    (run : Transition.Run (AccountSystem.Step env) ⟨t, []⟩ history later) (new_pwd : String) :
    checkAnswer env idFilter (some tid) (some (.str questionId))
      (some (.obj (fields (question.mapValues Json.str)))) later.store = .ok true ∧
    ∃ u, forgetPassword env (some tid) (some (.obj (fields (question.mapValues Json.str)))) (some (.str new_pwd))
        later.store = (.ok true, u) ∧
      login env (some tid) (some (.str new_pwd)) u = createToken env (some tid) u := by
  have asked : Asked (AccountSystem.init now).store := ⟨0, rfl, by simp [AccountSystem.init]⟩
  obtain ⟨n, rfl, registered⟩ := (performAll_asked calls asked).registered untold asks present done
  -- The calls and the registration are themselves a run of the system, to the store it goes on from.
  obtain ⟨before, started, -⟩ := AccountSystem.performAll_reaches calls (AccountSystem.init now)
  obtain ⟨own, registering, -⟩ := @AccountSystem.registe_reaches env id questionId body
    ⟨(performAll env calls (AccountSystem.init now).store).2, []⟩
  rw [done] at registering
  have answers := registered.kept (AccountSystem.run_kept (started.append registering) run)
  exact ⟨answers.checked lawful ids, answers.resets lawful⟩

def oneQuestion : AList fun _ : String => String := ⟨[⟨"Q1", "A1"⟩], by simp⟩

/-- The second of two registrations, and somebody who guesses at the password later on. -/
theorem recovers_sample : ∃ t history later,
    registe (sampleEnv sampleSigner) "660a3b1e9c1f4e0012ab34cf" "660a3b1e9c1f4e0012ab34d0" AccountSystem.otherBody
      (sampleRegistered 0) = (.ok (.num 2), t) ∧
    Transition.Run (AccountSystem.Step (sampleEnv sampleSigner)) ⟨t, []⟩ history later ∧ history ≠ [] ∧
    checkAnswer (sampleEnv sampleSigner) sampleIds (some (.num 2)) (some (.str "660a3b1e9c1f4e0012ab34d0"))
      (some (.obj (fields (oneQuestion.mapValues Json.str)))) later.store = .ok true ∧
    ∃ u, forgetPassword (sampleEnv sampleSigner) (some (.num 2))
        (some (.obj (fields (oneQuestion.mapValues Json.str)))) (some (.str "newpwd")) later.store = (.ok true, u) ∧
      login (sampleEnv sampleSigner) (some (.num 2)) (some (.str "newpwd")) u =
        createToken (sampleEnv sampleSigner) (some (.num 2)) u := by
  have ids : FindsById sampleIds "660a3b1e9c1f4e0012ab34d0" := by
    rw [FindsById, sampleIds, if_pos (by decide)]
  obtain ⟨t, done⟩ := AccountSystem.otherBody_registered
  have guess := @AccountSystem.Step.changePassWord (sampleEnv sampleSigner) ⟨t, []⟩ (some (.num 2)) (some (.str "guess"))
    (some (.str "123456789Sd!")) _ _ rfl
  exact ⟨t, _, _, done, .single guess, by simp, recovers Mongo.Driver.standard_lawful ids
    [.registe "660a3b1e9c1f4e0012ab34cd" "660a3b1e9c1f4e0012ab34ce" sampleBody] 0 rfl rfl (by simp [oneQuestion]) done
    (.single guess) "newpwd"⟩

end TacoBack.AccountService
