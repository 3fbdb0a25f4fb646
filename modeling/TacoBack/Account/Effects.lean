import TacoBack.Account.Service
import TacoBack.Lib.Counter

/-!
# What the account calls do

What each call does to users, questions and the pool, for strings as passwords and tids that find
what a value finds.
-/

namespace TacoBack.AccountService

variable {env : AccountEnv} {s t : AccountStore}

/-- The number of accounts handed out, `none` if the pool is unreadable. -/
def pool (s : AccountStore) : Option Int := Redis.counter s.redis ACCOUNT_POOL_NAMESPACE

/-- Nothing but the clock and tokens differs. -/
structure Untouched (s t : AccountStore) : Prop where
  users : t.users = s.users
  questions : t.questions = s.questions
  pool : pool t = pool s

theorem Untouched.refl (s : AccountStore) : Untouched s s := ⟨rfl, rfl, rfl⟩

theorem Untouched.trans {u : AccountStore} (first : Untouched s t) (second : Untouched t u) : Untouched s u :=
  ⟨second.users.trans first.users, second.questions.trans first.questions, second.pool.trans first.pool⟩

theorem token_ne_pool (rest : String) : "TOKEN:" ++ rest ≠ ACCOUNT_POOL_NAMESPACE := by
  intro same
  have characters := congrArg (fun key : String => key.toList.take 1) same
  simp [ACCOUNT_POOL_NAMESPACE] at characters

theorem pool_ne_token (tid : Option Json) : ACCOUNT_POOL_NAMESPACE ≠ TOKEN_NAMESPACE tid :=
  fun same => token_ne_pool _ same.symm

theorem REFRESH_TOKEN_NS_eq (tid : Option Json) :
    REFRESH_TOKEN_NS tid = "TOKEN:" ++ ("REFRESH:" ++ Json.template tid) := by
  rw [REFRESH_TOKEN_NS, ← String.append_assoc]
  rfl

theorem pool_ne_refresh (tid : Option Json) : ACCOUNT_POOL_NAMESPACE ≠ REFRESH_TOKEN_NS tid := by
  rw [REFRESH_TOKEN_NS_eq]
  exact fun same => token_ne_pool _ same.symm

/-- The key of the access token of a string. -/
def tokenKey (tid : String) : String := TOKEN_NAMESPACE (some (.str tid))

theorem tokenKey_eq_iff {tid : String} {owner : Option Json} :
    tokenKey tid = TOKEN_NAMESPACE owner ↔ Json.template owner = tid := by
  rw [eq_comm]
  simp [tokenKey, TOKEN_NAMESPACE, Json.template, Json.toText]

theorem tokenKey_eq_refresh_iff {tid : String} {owner : Option Json} :
    tokenKey tid = REFRESH_TOKEN_NS owner ↔ "REFRESH:" ++ Json.template owner = tid := by
  rw [REFRESH_TOKEN_NS_eq, eq_comm]
  simp [tokenKey, TOKEN_NAMESPACE, Json.template, Json.toText]

/-! ### Tokens -/

theorem storeToken_untouched {key : String} (other : ACCOUNT_POOL_NAMESPACE ≠ key) (token ms : String)
    (s : AccountStore) : Untouched s (storeToken key token ms s) := by
  refine ⟨rfl, rfl, Redis.counter_congr ?_⟩
  simp only [storeToken, Redis.setnx_set]
  exact Redis.set_of_ne _ _ other

theorem createAccessToken_untouched (tid : Option Json) (s : AccountStore) :
    Untouched s (createAccessToken env tid s).2 := by
  unfold createAccessToken
  split
  · exact .refl s
  · exact storeToken_untouched (pool_ne_token tid) _ _ s

theorem createRefreshToken_untouched (access_token : String) (tid : Option Json) (s : AccountStore) :
    Untouched s (createRefreshToken env access_token tid s).2 := by
  unfold createRefreshToken
  split
  · exact .refl s
  · exact storeToken_untouched (pool_ne_refresh tid) _ _ s

theorem createToken_untouched (tid : Option Json) (s : AccountStore) :
    Untouched s (createToken env tid s).2 := by
  have access := @createAccessToken_untouched env tid s
  unfold createToken
  split <;> rename_i made <;> rw [made] at access
  · exact access
  · exact access.trans (createRefreshToken_untouched _ tid _)

theorem login_untouched (tid password : Option Json) (s : AccountStore) :
    Untouched s (login env tid password s).2 := by
  unfold login
  split
  · exact .refl s
  · split
    · exact .refl s
    · exact createToken_untouched tid s

theorem refresh_untouched (refresh_token : String) (renew_refresh_token : Bool) (s : AccountStore) :
    Untouched s (refresh env refresh_token renew_refresh_token s).2 := by
  unfold refresh
  split
  · exact .refl s
  rename_i owner decoded
  have access := @createAccessToken_untouched env owner s
  split <;> rename_i made <;> rw [made] at access
  · exact access
  rename_i token t
  have renewed := @createRefreshToken_untouched env token owner t
  split
  · split <;> rename_i again <;> rw [again] at renewed <;> exact access.trans renewed
  · exact access

theorem createToken_ok {tid : Option Json} :
    (∃ tokens, (createToken env tid s).1 = .ok tokens) ↔ (env.jwt.sign tid env.access_token.expire s.now).isSome := by
  unfold createToken createAccessToken
  cases env.jwt.sign tid env.access_token.expire s.now <;> simp

/-! ### Passwords -/

/-- A user that the filter value `tid` finds has the password. -/
def Works (env : AccountEnv) (users : List Users) (tid : Json) (password : String) : Prop :=
  ∃ user ∈ users, Mongo.equals tid user.tid = true ∧ user.password = some (env.sha256 password)

/-- The tids are numbers, as those that `registe` gives. -/
def Numeric (users : List Users) : Prop := ∀ user ∈ users, ∃ n, user.tid = some (.num n)

theorem Numeric.equals {users : List Users} {user : Users} (numeric : Numeric users) (member : user ∈ users)
    (tid : Json) : Mongo.equals tid user.tid = decide (user.tid = some tid) := by
  obtain ⟨n, same⟩ := numeric user member
  simp [same]

theorem Numeric.works {users : List Users} (numeric : Numeric users) (tid : Json) (password : String) :
    Works env users tid password ↔
      ∃ user ∈ users, user.tid = some tid ∧ user.password = some (env.sha256 password) := by
  refine exists_congr fun user => and_congr_right fun member => ?_
  rw [numeric.equals member, decide_eq_true_eq]

theorem works_iff {users : List Users} {user : Users} {tid : Json} (numeric : Numeric users)
    (distinct : (users.map Users.tid).Nodup) (member : user ∈ users) (owner : user.tid = some tid) (password : String) :
    Works env users tid password ↔ user.password = some (env.sha256 password) := by
  rw [numeric.works]
  constructor
  · rintro ⟨other, present, same, stored⟩
    obtain rfl := List.inj_on_of_nodup_map distinct present member (same.trans owner.symm)
    exact stored
  · exact fun stored => ⟨user, member, owner, stored⟩

theorem loginFind_ok (lawful : env.driver.Lawful) {value tid : Json} (denotes : env.driver.Denotes value tid)
    {password : String} :
    loginFind env (some value) (env.sha256 password) s = .ok () ↔ Works env s.users tid password := by
  have filter : env.driver.mixedFilter value = some (Mongo.equals tid) := denotes
  simp [loginFind, filter, lawful.stringFilter_str, Works]

/-- A `login` that finds its user goes on to sign the tid as it came. -/
theorem login_ok (lawful : env.driver.Lawful) {value tid : Json} (denotes : env.driver.Denotes value tid)
    {password : String} :
    (∃ tokens, (login env (some value) (some (.str password)) s).1 = .ok tokens) ↔
      Works env s.users tid password ∧ (env.jwt.sign (some value) env.access_token.expire s.now).isSome := by
  rw [← loginFind_ok lawful denotes, login, digest]
  dsimp only
  cases loginFind env (some value) (env.sha256 password) s with
  | error e => simp
  | ok found => simp [createToken_ok]

theorem works_replaced (injective : Function.Injective env.sha256) {users : List Users} {p : Users → Bool}
    {user : Users} {new password : String} {tid : Json} (numeric : Numeric users)
    (distinct : (users.map Users.tid).Nodup) (found : users.find? p = some user) :
    Works env (Mongo.updateOne p (setPassword (env.sha256 new)) users) tid password ↔
      (user.tid = some tid ∧ password = new) ∨ (user.tid ≠ some tid ∧ Works env users tid password) := by
  have changed : ∀ d, d ∈ Mongo.updateOne p (setPassword (env.sha256 new)) users ↔
      d = setPassword (env.sha256 new) user ∨ (d ∈ users ∧ d.tid ≠ user.tid) := fun d =>
    Mongo.mem_updateOne_iff distinct found
  have kept : Numeric (Mongo.updateOne p (setPassword (env.sha256 new)) users) := by
    intro d member
    rcases (changed d).mp member with rfl | ⟨old, -⟩
    · exact numeric user (List.mem_of_find?_eq_some found)
    · exact numeric d old
  rw [kept.works, numeric.works]
  simp only [changed]
  constructor
  · rintro ⟨_, rfl | ⟨member, different⟩, owner, stored⟩
    · exact .inl ⟨owner, (injective (Option.some.inj stored)).symm⟩
    · exact .inr ⟨fun same => different (owner.trans same.symm), _, member, owner, stored⟩
  · rintro (⟨owner, rfl⟩ | ⟨different, other, member, owner, stored⟩)
    · exact ⟨_, .inl rfl, owner, rfl⟩
    · exact ⟨other, .inr ⟨member, fun same => different (same.symm.trans owner)⟩, owner, stored⟩

theorem works_added (injective : Function.Injective env.sha256) {users : List Users} {user : Users}
    {password text : String} {tid : Json} (stored : user.password = some (env.sha256 password)) :
    Works env (users ++ [user]) tid text ↔
      Works env users tid text ∨ (Mongo.equals tid user.tid = true ∧ text = password) := by
  constructor
  · rintro ⟨other, member, owner, held⟩
    rcases List.mem_append.mp member with old | new
    · exact .inl ⟨other, old, owner, held⟩
    · obtain rfl := List.mem_singleton.mp new
      exact .inr ⟨owner, injective (Option.some.inj (held.symm.trans stored))⟩
  · rintro (⟨other, member, owner, held⟩ | ⟨owner, rfl⟩)
    · exact ⟨other, List.mem_append_left _ member, owner, held⟩
    · exact ⟨user, by simp, owner, stored⟩

/-! ### registe -/

theorem registeGet_eq {v : Int} (counts : pool s = some v) (body : Json) :
    registeGet env body s = (digest env (body.get "password")).map fun hash => (.num (v + 1), hash) := by
  unfold pool Redis.counter at counts
  unfold registeGet
  split at counts
  · rename_i absent
    obtain rfl := Option.some.inj counts
    simp [absent, nextTid]
  · rename_i text read
    simp [read, nextTid, counts]
  · cases counts

/-- A tid that the body brings is the number `n`, or `null`, which is refused. -/
def Numbered (n : Int) (body : Json) : Prop := ∀ tid, body.get "tid" = some tid → tid = .num n ∨ tid = .null

theorem numbered_of_none {n : Int} {body : Json} (untold : body.get "tid" = none) : Numbered n body := by
  intro tid told
  cases untold.symm.trans told

theorem minimize_eq_num {value : Json} {n : Int} (stored : Mongo.minimize value = some (.num n)) : value = .num n := by
  cases value with
  | obj fields =>
    rw [Mongo.minimize] at stored
    split at stored <;> cases stored
  | arr items => cases stored
  | _ => exact Option.some.inj stored

/-- The stored tid is the number `n` for these bodies and no others. -/
theorem tidField_iff {n : Int} {body : Json} :
    (∀ stored, tidField (.num n) body = some stored → stored = some (.num n)) ↔ Numbered n body := by
  unfold tidField Numbered
  cases body.get "tid" with
  | none => simp [Mongo.minimize]
  | some value =>
    cases value with
    | null => simp
    | obj fields =>
      simp only [Option.getD_some, Option.some.injEq, forall_eq', reduceCtorEq, or_self, iff_false]
      exact fun same => nomatch minimize_eq_num same
    | _ => simp [Mongo.minimize]

/-- A stored number is the one given, or the body brings it. -/
theorem tidField_num {tid body : Json} {n : Int} (stored : tidField tid body = some (some (.num n))) :
    body.get "tid" = some (.num n) ∨ tid = .num n := by
  unfold tidField at stored
  split at stored
  · cases stored
  · have same := minimize_eq_num (Option.some.inj stored)
    cases brought : body.get "tid" with
    | none => exact .inr (by rw [brought] at same; exact same)
    | some value => exact .inl (by rw [brought] at same; exact congrArg some same)

theorem userDocument_cast {id hash : String} {body tid : Json} {user : Users}
    (built : userDocument env id tid hash body = some user) :
    tidField tid body = some user.tid ∧ user.password = some hash := by
  unfold userDocument at built
  split at built
  · rename_i field _ _ _ _
    obtain rfl := Option.some.inj built
    exact ⟨field, rfl⟩
  · cases built

theorem registeInsert_ok {n : Int} {id hash : String} {body : Json} (numbered : Numbered n body)
    (done : registeInsert env id (.num n) hash body s = .ok t) :
    ∃ user : Users, user.tid = some (.num n) ∧ user.password = some hash ∧ t = { s with users := s.users ++ [user] } := by
  unfold registeInsert at done
  split at done
  · cases done
  · rename_i user built
    obtain ⟨field, stored⟩ := userDocument_cast built
    exact ⟨user, tidField_iff.mpr numbered _ field, stored, (Except.ok.inj done).symm⟩

theorem registeIncrby_ok {v : Int} (counts : pool s = some v) :
    ∃ t, registeIncrby s = .ok t ∧ t.users = s.users ∧ t.questions = s.questions ∧ pool t = some (v + 1) := by
  obtain ⟨redis, incremented, counted, -⟩ := Redis.incrby_counter counts 1
  exact ⟨{ s with redis := redis }, by simp [registeIncrby, incremented], rfl, rfl, counted⟩

/-- Where the pool is readable and the body claims no other tid, `registe` rejects before it writes, or
inserts a user and a question with the next tid. -/
theorem registe_cases (env : AccountEnv) {v : Int} (counts : pool s = some v) {id questionId : String}
    {body : Json} {password : String} (numbered : Numbered (v + 1) body)
    (told : body.get "password" = some (.str password)) :
    (∃ e, registe env id questionId body s = (.error e, s)) ∨
    ∃ user question t, registe env id questionId body s = (.ok (.num (v + 1)), t) ∧
      user.tid = some (.num (v + 1)) ∧ user.password = some (env.sha256 password) ∧ t.users = s.users ++ [user] ∧
      question.uid = .num (v + 1) ∧ t.questions = s.questions ++ [question] ∧ pool t = some (v + 1) := by
  have next : registeGet env body s = .ok (.num (v + 1), env.sha256 password) := by
    simp [registeGet_eq counts, told, digest, Except.map]
  unfold registe
  rw [next]
  dsimp only
  cases registeFind env body s with
  | error e => exact .inl ⟨e, rfl⟩
  | ok =>
    cases inserted : registeInsert env id (.num (v + 1)) (env.sha256 password) body s with
    | error e => exact .inl ⟨e, rfl⟩
    | ok t =>
      obtain ⟨user, tid, stored, rfl⟩ := registeInsert_ok numbered inserted
      obtain ⟨u, incremented, users, questions, counted⟩ := registeIncrby_ok (s := registeSave questionId (.num (v + 1)) body
        { s with users := s.users ++ [user] }) counts
      dsimp only
      rw [incremented]
      exact .inr ⟨user, _, u, rfl, tid, stored, users, rfl, questions, counted⟩

/-- Where a `registe` ends: before it writes, after its question, or after the pool. -/
theorem registe_steps (env : AccountEnv) (id questionId : String) (body : Json) (s : AccountStore) :
    (∃ e, registe env id questionId body s = (.error e, s)) ∨
    ∃ tid hash inserted, registeGet env body s = .ok (tid, hash) ∧ registeFind env body s = .ok () ∧
      registeInsert env id tid hash body s = .ok inserted ∧
      ((∃ e, registe env id questionId body s = (.error e, registeSave questionId tid body inserted)) ∨
        ∃ counted, registeIncrby (registeSave questionId tid body inserted) = .ok counted ∧
          registe env id questionId body s = (.ok tid, counted)) := by
  unfold registe
  split
  · rename_i e _
    exact .inl ⟨e, rfl⟩
  rename_i tid hash read
  split
  · rename_i e _
    exact .inl ⟨e, rfl⟩
  rename_i new
  split
  · rename_i e _
    exact .inl ⟨e, rfl⟩
  rename_i inserted insert
  refine .inr ⟨tid, hash, inserted, read, new, insert, ?_⟩
  dsimp only
  split
  · rename_i e _
    exact .inl ⟨e, rfl⟩
  · rename_i counted incrby
    exact .inr ⟨counted, incrby, rfl⟩

theorem registeInsert_stores {id hash : String} {body tid : Json} (done : registeInsert env id tid hash body s = .ok t) :
    t.now = s.now ∧ t.redis = s.redis := by
  unfold registeInsert at done
  split at done
  · cases done
  · simp [← Except.ok.inj done]

theorem registeIncrby_stores (done : registeIncrby s = .ok t) :
    t.now = s.now ∧ ∀ key, key ≠ ACCOUNT_POOL_NAMESPACE → t.redis key = s.redis key := by
  unfold registeIncrby at done
  split at done
  · cases done
  · rename_i incremented
    obtain rfl := Except.ok.inj done
    exact ⟨rfl, fun _ other => Redis.incrby_of_ne incremented other⟩

/-- Of Redis, `registe` writes the pool alone. -/
theorem registe_frame (id questionId : String) (body : Json) (s : AccountStore) :
    (registe env id questionId body s).2.now = s.now ∧
      ∀ key, key ≠ ACCOUNT_POOL_NAMESPACE → (registe env id questionId body s).2.redis key = s.redis key := by
  rcases registe_steps env id questionId body s with ⟨e, failed⟩ | ⟨tid, hash, inserted, -, -, insert, rest⟩
  · rw [failed]
    exact ⟨rfl, fun _ _ => rfl⟩
  obtain ⟨clock, redis⟩ := registeInsert_stores insert
  rcases rest with ⟨e, failed⟩ | ⟨counted, incrby, done⟩
  · rw [failed]
    exact ⟨clock, fun _ _ => congrFun redis _⟩
  · obtain ⟨clock', redis'⟩ := registeIncrby_stores incrby
    rw [done]
    exact ⟨clock'.trans clock, fun key other => (redis' key other).trans (congrFun redis key)⟩

/-! ### changePassWord and forgetPassword -/

theorem changeUpdate_ok {tid old_pwd new_pwd : Option Json} {found : Option Users}
    (done : changeUpdate env tid old_pwd new_pwd s = .ok (found, t)) :
    ∃ p hash, found = s.users.find? p ∧ t = { s with users := Mongo.updateOne p (setPassword hash) s.users } := by
  unfold changeUpdate at done
  split at done
  · cases done
  split at done
  · obtain ⟨rfl, rfl⟩ := Prod.mk.inj (Except.ok.inj done)
    exact ⟨_, _, rfl, rfl⟩
  · cases done

theorem forgetUpdate_ok {tid new_pwd : Option Json} {found : Option Users}
    (done : forgetUpdate env tid new_pwd s = .ok (found, t)) :
    ∃ p hash, found = s.users.find? p ∧ t = { s with users := Mongo.updateOne p (setPassword hash) s.users } := by
  unfold forgetUpdate at done
  split at done
  · cases done
  split at done
  · obtain ⟨rfl, rfl⟩ := Prod.mk.inj (Except.ok.inj done)
    exact ⟨_, _, rfl, rfl⟩
  · cases done

theorem delToken_untouched (tid : Option Json) (s : AccountStore) : Untouched s (delToken tid s) :=
  ⟨rfl, rfl, Redis.counter_congr (Redis.del_of_ne _ (pool_ne_token tid))⟩

/-- Of users, a password call changes one password at most. -/
theorem changePassWord_keeps (tid old_pwd new_pwd : Option Json) (s : AccountStore) :
    (changePassWord env tid old_pwd new_pwd s).2.users.map Users.tid = s.users.map Users.tid ∧
      pool (changePassWord env tid old_pwd new_pwd s).2 = pool s := by
  unfold changePassWord
  split
  · exact ⟨rfl, rfl⟩
  · rename_i done
    obtain ⟨p, hash, -, rfl⟩ := changeUpdate_ok done
    exact ⟨Mongo.updateOne_map (by intro _; rfl) s.users, (delToken_untouched tid _).pool⟩

theorem forgetPassword_keeps (tid answer new_pwd : Option Json) (s : AccountStore) :
    (forgetPassword env tid answer new_pwd s).2.users.map Users.tid = s.users.map Users.tid ∧
      pool (forgetPassword env tid answer new_pwd s).2 = pool s := by
  unfold forgetPassword
  split
  · exact ⟨rfl, rfl⟩
  split
  · exact ⟨rfl, rfl⟩
  · rename_i done
    obtain ⟨p, hash, -, rfl⟩ := forgetUpdate_ok done
    exact ⟨Mongo.updateOne_map (by intro _; rfl) s.users, (delToken_untouched tid _).pool⟩

theorem changePassWord_eq (lawful : env.driver.Lawful) {value tid : Json} (denotes : env.driver.Denotes value tid)
    (old_pwd new_pwd : String) (s : AccountStore) :
    changePassWord env (some value) (some (.str old_pwd)) (some (.str new_pwd)) s =
      (.ok true, delToken (some value) { s with
        users := Mongo.updateOne (fun user => Mongo.equals tid user.tid && decide (user.password = some old_pwd))
          (setPassword (env.sha256 new_pwd)) s.users }) := by
  have filter : env.driver.mixedFilter value = some (Mongo.equals tid) := denotes
  simp [changePassWord, changeUpdate, digest, filter, lawful.stringFilter_str, replacePassword]

/-- `forgetPassword` returns `true` exactly when the answer is the stored question, and then replaces
the password of the user, if there is one. -/
theorem forgetPassword_eq {value tid : Json} (denotes : env.driver.Denotes value tid) (answer : Option Json)
    (new_pwd : String) (s : AccountStore) :
    forgetPassword env (some value) answer (some (.str new_pwd)) s =
      if some (questionOf (s.questions.find? fun info => Mongo.equals tid (some info.uid))) = answer then
        (.ok true, delToken (some value) { s with
          users := Mongo.updateOne (fun user => Mongo.equals tid user.tid) (setPassword (env.sha256 new_pwd)) s.users })
      else (.error (.service .ANSWER_ERROR .BAD_REQUEST), s) := by
  have filter : env.driver.mixedFilter value = some (Mongo.equals tid) := denotes
  simp only [forgetPassword, forgetFind, forgetUpdate, digest, Option.getD_some, filter, replacePassword]
  by_cases accepted : some (questionOf (s.questions.find? fun info => Mongo.equals tid (some info.uid))) = answer <;>
    simp only [accepted, if_true, if_false]

/-! ### A sample account -/

/-- SHA-256 at the two passwords of the account test, and an injection elsewhere. -/
def sampleSha256 (text : String) : String :=
  if text = "123456789Sd!" then "6e61a97b53c4893780076fdd5e6d981e55ed683a02f80e386ef93a9ccf7fb201"
  else if text = "123456789Sd" then "c9a2fbf963d50f4115a881eca23cd9ae50903810861ac83cff03b8675a51f0e4"
  else "sha256:" ++ text

theorem sampleSha256_injective : Function.Injective sampleSha256 := by
  have digest : ∀ text : String,
      "6e61a97b53c4893780076fdd5e6d981e55ed683a02f80e386ef93a9ccf7fb201" ≠ "sha256:" ++ text ∧
        "c9a2fbf963d50f4115a881eca23cd9ae50903810861ac83cff03b8675a51f0e4" ≠ "sha256:" ++ text := by
    intro text
    constructor <;> intro same <;>
      have characters := congrArg (fun key : String => key.toList.take 1) same <;> simp at characters
  intro a b same
  unfold sampleSha256 at same
  split_ifs at same with first second third fourth fifth sixth
  · exact first.trans second.symm
  · exact absurd same (by decide)
  · exact absurd same (digest b).1
  · exact absurd same (by decide)
  · exact fourth.trans sixth.symm
  · exact absurd same (digest b).2
  · exact absurd same.symm (digest a).1
  · exact absurd same.symm (digest a).2
  · simpa using same

/-- A library that signs objects alone, for calls that neither verify nor decode. -/
def sampleSigner : Jwt.Lib where
  sign
    | some (.obj _), _, now => some ("eyJhbGciOiJIUzI1NiJ9." ++ toString now ++ ".sig")
    | _, _, _ => none
  verify _ _ := .error .jsonWebTokenError
  decode _ := none
  exp _ := 0

def sampleEnv (jwt : Jwt.Lib) : AccountEnv where
  sha256 := sampleSha256
  jwt := jwt
  driver := .standard
  access_token := { expire := some "7d", ms := "604800000" }
  refresh_token := { expire := some "30d", ms := "2592000000" }

def sampleBody : Json :=
  .obj [("name", .str "Test"), ("password", .str "123456789Sd!"), ("email", .str "test@no-reply.com"),
    ("description", .str ""), ("sex", .str "Other"), ("question", .obj [("Q1", .str "A1")]),
    ("birthday", .str "1711929600000")]

def sampleRegistered (now : Int) : AccountStore where
  now := now
  redis := Redis.set (fun _ => none) ACCOUNT_POOL_NAMESPACE "1"
  users := [{ _id := "660a3b1e9c1f4e0012ab34cd", tid := some (.num 1), nick := none, description := some "",
              password := some (sampleSha256 "123456789Sd!"), email := some "test@no-reply.com", sex := some "Other" }]
  questions := [{ _id := "660a3b1e9c1f4e0012ab34ce", uid := .num 1, question := some (.obj [("Q1", .str "A1")]) }]

theorem registe_sample (jwt : Jwt.Lib) (now : Int) :
    registe (sampleEnv jwt) "660a3b1e9c1f4e0012ab34cd" "660a3b1e9c1f4e0012ab34ce" sampleBody
      { now := now, redis := fun _ => none, users := [], questions := [] } = (.ok (.num 1), sampleRegistered now) := by
  rfl

end TacoBack.AccountService
