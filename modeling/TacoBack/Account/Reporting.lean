import TacoBack.Account.Effects

/-!
# What password calls report

`changePassWord` and `forgetPassword` answer `true` without a look at what the update found.
-/

namespace TacoBack.AccountService

inductive PasswordCall where
  | changePassWord (tid : Json) (old_pwd new_pwd : String)
  | forgetPassword (tid : Json) (answer : Option Json) (new_pwd : String)

namespace PasswordCall

def tid : PasswordCall → Json
  | .changePassWord tid _ _ | .forgetPassword tid _ _ => tid

def new_pwd : PasswordCall → String
  | .changePassWord _ _ new_pwd | .forgetPassword _ _ new_pwd => new_pwd

variable (env : AccountEnv)

def run (s : AccountStore) : PasswordCall → Except Failure Bool × AccountStore
  | .changePassWord tid old_pwd new_pwd =>
    AccountService.changePassWord env (some tid) (some (.str old_pwd)) (some (.str new_pwd)) s
  | .forgetPassword tid answer new_pwd => AccountService.forgetPassword env (some tid) answer (some (.str new_pwd)) s

/-- The user that the `findOneAndUpdate` of a call found, and what it left, if the call gets that far. -/
def update (s : AccountStore) : PasswordCall → Except Failure (Option Users × AccountStore)
  | .changePassWord tid old_pwd new_pwd => changeUpdate env (some tid) (some (.str old_pwd)) (some (.str new_pwd)) s
  | .forgetPassword tid answer new_pwd =>
    match forgetFind env (some tid) answer s with
    | .error e => .error e
    | .ok () => forgetUpdate env (some tid) (some (.str new_pwd)) s

def Names (call : PasswordCall) (user : Users) : Prop := user.tid = some call.tid

/-- A user with the tid of the call was found, and between `s` and `t` his password alone was replaced. -/
def Replaced (call : PasswordCall) (s t : AccountStore) : Prop :=
  ∃ pre user post updated, call.update env s = .ok (some user, updated) ∧ call.Names user ∧
    s.users = pre ++ user :: post ∧ t.users = pre ++ setPassword (env.sha256 call.new_pwd) user :: post

/-- The call returns `true` exactly if it replaced the password, and otherwise throws and leaves users
and tokens alone. -/
def Reports (call : PasswordCall) (s : AccountStore) : Prop :=
  ((call.run env s).1 = .ok true ↔ call.Replaced env s (call.run env s).2) ∧
    ((call.run env s).1 ≠ .ok true → (∃ e, (call.run env s).1 = .error e) ∧ (call.run env s).2.users = s.users ∧
      ∀ owner, (call.run env s).2.redis (TOKEN_NAMESPACE owner) = s.redis (TOKEN_NAMESPACE owner))

/-- The first user that the query finds has that very tid: for `changePassWord` the query asks for the old
password as it was sent, and `forgetPassword` asks unless the answer is refused. -/
def Matched (s : AccountStore) : PasswordCall → Prop
  | .changePassWord tid old_pwd _ => ∃ user,
      s.users.find? (fun user => Mongo.equals tid user.tid && decide (user.password = some old_pwd)) = some user ∧
        user.tid = some tid
  | .forgetPassword tid answer _ =>
      answer ≠ some (questionOf (s.questions.find? fun info => Mongo.equals tid (some info.uid))) ∨
      ∃ user, s.users.find? (fun user => Mongo.equals tid user.tid) = some user ∧ user.tid = some tid

variable {env} {call : PasswordCall} {s : AccountStore}

/-- Who ends a session has replaced the password of its tid, where calls report what they did. -/
theorem Reports.replaced {owner : Option Json} (reports : call.Reports env s)
    (ended : (call.run env s).2.redis (TOKEN_NAMESPACE owner) ≠ s.redis (TOKEN_NAMESPACE owner)) :
    call.Replaced env s (call.run env s).2 := by
  by_contra kept
  exact ended ((reports.2 fun done => kept (reports.1.mp done)).2.2 owner)

/-- A call that gets to its update and finds users by `p`. -/
structure Sends (env : AccountEnv) (call : PasswordCall) (s : AccountStore) (p : Users → Bool) : Prop where
  update : call.update env s = .ok (s.users.find? p,
    { s with users := Mongo.updateOne p (setPassword (env.sha256 call.new_pwd)) s.users })
  run : call.run env s = (.ok true, delToken (some call.tid)
    { s with users := Mongo.updateOne p (setPassword (env.sha256 call.new_pwd)) s.users })
  matched : call.Matched s ↔ ∃ user, s.users.find? p = some user ∧ call.Names user

section Updates

variable {tid : Json} {old_pwd new_pwd : String} {answer : Option Json}

theorem sends_changePassWord (lawful : env.driver.Lawful) (plain : tid.isContainer = false) :
    Sends env (.changePassWord tid old_pwd new_pwd) s
      fun user => Mongo.equals tid user.tid && decide (user.password = some old_pwd) where
  update := by
    simp [PasswordCall.update, changeUpdate, digest, lawful.mixedFilter_plain tid plain, lawful.stringFilter_str,
      replacePassword, PasswordCall.new_pwd]
  run := changePassWord_eq lawful (lawful.denotes plain) old_pwd new_pwd s
  matched := Iff.rfl

theorem sends_forgetPassword (lawful : env.driver.Lawful) (plain : tid.isContainer = false)
    (accepted : some (questionOf (s.questions.find? fun info => Mongo.equals tid (some info.uid))) = answer) :
    Sends env (.forgetPassword tid answer new_pwd) s fun user => Mongo.equals tid user.tid where
  update := by
    simp [PasswordCall.update, forgetFind, forgetUpdate, digest, lawful.mixedFilter_plain tid plain, accepted,
      replacePassword, PasswordCall.new_pwd]
  run := by
    rw [PasswordCall.run, forgetPassword_eq (lawful.denotes plain), if_pos accepted]
    rfl
  matched := or_iff_right (not_not.mpr accepted.symm)

end Updates

theorem run_cases (lawful : env.driver.Lawful) (plain : call.tid.isContainer = false) (s : AccountStore) :
    (∃ e, call.update env s = .error e ∧ call.run env s = (.error e, s) ∧ call.Matched s) ∨
      ∃ p, call.Sends env s p := by
  cases call with
  | changePassWord tid old_pwd new_pwd => exact .inr ⟨_, sends_changePassWord lawful plain⟩
  | forgetPassword tid answer new_pwd =>
    have plain : tid.isContainer = false := plain
    by_cases accepted : some (questionOf (s.questions.find? fun info => Mongo.equals tid (some info.uid))) = answer
    · exact .inr ⟨_, sends_forgetPassword lawful plain accepted⟩
    · refine .inl ⟨.service .ANSWER_ERROR .BAD_REQUEST, ?_, ?_, .inl (Ne.symm accepted)⟩
      · simp [PasswordCall.update, forgetFind, lawful.mixedFilter_plain tid plain, accepted]
      · rw [PasswordCall.run, forgetPassword_eq (lawful.denotes plain), if_neg accepted]

theorem reports_iff_matched (lawful : env.driver.Lawful) (plain : call.tid.isContainer = false) :
    call.Reports env s ↔ call.Matched s := by
  rcases run_cases lawful plain s with ⟨e, fails, thrown, matched⟩ | ⟨p, sends⟩
  · refine iff_of_true ⟨?_, fun _ => ?_⟩ matched
    · rw [thrown]
      refine iff_of_false nofun ?_
      rintro ⟨_, _, _, _, done, -⟩
      cases fails.symm.trans done
    · rw [thrown]
      exact ⟨⟨e, rfl⟩, rfl, fun _ => rfl⟩
  · rw [sends.matched]
    unfold Reports
    rw [sends.run]
    constructor
    · intro reports
      obtain ⟨_, user, _, _, done, names, -⟩ := reports.1.mp rfl
      exact ⟨user, congrArg Prod.fst (Except.ok.inj (sends.update.symm.trans done)), names⟩
    · rintro ⟨user, found, names⟩
      refine ⟨iff_of_true rfl ?_, fun other => (other rfl).elim⟩
      obtain ⟨pre, post, whole, changed⟩ := Mongo.updateOne_of_some (f := setPassword (env.sha256 call.new_pwd)) found
      exact ⟨pre, user, post, _, sends.update.trans (by rw [found]), names, whole, changed⟩

theorem reports_sample : (PasswordCall.forgetPassword (.num 1) (some (.obj [("Q1", .str "A1")])) "newpwd").Reports
    (sampleEnv sampleSigner) (sampleRegistered 0) :=
  (reports_iff_matched Mongo.Driver.standard_lawful rfl).mpr (.inr ⟨_, rfl, rfl⟩)

/-- Who guesses the old password is told that he changed it. A reset for a tid that nobody has is a success
too. -/
theorem guess_reported : ∃ t,
    (PasswordCall.changePassWord (.num 1) "guess" "123456789Sd").run (sampleEnv sampleSigner) (sampleRegistered 0) =
      (.ok true, t) ∧
    t.users = (sampleRegistered 0).users ∧
    ¬ (PasswordCall.changePassWord (.num 1) "guess" "123456789Sd").Reports (sampleEnv sampleSigner)
      (sampleRegistered 0) ∧
    ¬ (PasswordCall.forgetPassword (.num 2) (some (.str "{}")) "newpwd").Reports (sampleEnv sampleSigner)
      (sampleRegistered 0) := by
  refine ⟨_, rfl, rfl, fun reports => ?_, fun reports => ?_⟩
  · obtain ⟨_, _, _, _, found, -⟩ := reports.1.mp rfl
    cases congrArg Prod.fst (Except.ok.inj found)
  · obtain ⟨_, _, _, _, found, -⟩ := reports.1.mp rfl
    cases congrArg Prod.fst (Except.ok.inj found)

end PasswordCall

end TacoBack.AccountService
