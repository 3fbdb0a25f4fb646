import TacoBack.Lib.Jwt
import TacoBack.Lib.Mongo
import TacoBack.Request.Service
import TacoBack.Schemas

/-!
# AccountService

Each function between two awaited store commands, and each call as a whole when no other call runs.
A call that throws keeps what it wrote before. An argument is any JSON value, or `none` where the
body lacks it.
-/

namespace TacoBack

/-- A configured token lifetime: what `signObject` gets, and what `ms` makes of it, printed. -/
structure TokenExpire where
  expire : Option String
  ms : String

structure AccountEnv where
  sha256 : String → String
  jwt : Jwt.Lib
  driver : Mongo.Driver
  access_token : TokenExpire
  refresh_token : TokenExpire

structure AccountStore where
  now : Int
  redis : Redis.Db Stored
  users : List Users
  questions : List Questions

namespace AccountService

def ACCOUNT_POOL_NAMESPACE : String := "ACCOUNT:POOL"

def TOKEN_NAMESPACE (tid : Option Json) : String := "TOKEN:" ++ Json.template tid

def REFRESH_TOKEN_NS (tid : Option Json) : String := "TOKEN:REFRESH:" ++ Json.template tid

variable (env : AccountEnv)

def digest : Option Json → Except Failure String
  | some (.str text) => .ok (env.sha256 text)
  | _ => .error .typeError

/-! ### registe -/

/-- `Number(pool) + 1`, for a pool that only `INCRBY` writes. -/
def nextTid (pool : Option String) : Json :=
  match pool with
  | none => .num 1
  | some text =>
    match text.toInt? with
    | some n => .num (n + 1)
    | none => .float "NaN"

def registeGet (body : Json) (s : AccountStore) : Except Failure (Json × String) :=
  match Redis.get s.redis ACCOUNT_POOL_NAMESPACE with
  | .error e => .error (.redis e)
  | .ok pool => (digest env (body.get "password")).map fun hash => (nextTid pool, hash)

def registeFind (body : Json) (s : AccountStore) : Except Failure Unit :=
  match env.driver.stringFilter ((body.get "email").getD .null) with
  | none => .error .castError
  | some p =>
    if s.users.any fun user => p user.email then .error (.service .HAS_SAME_USER .BAD_REQUEST) else .ok ()

def castField (body : Json) (key : String) : Option (Option String) :=
  match body.get key with
  | none => some none
  | some value => env.driver.castString value

/-- The `tid` of `{ tid, ...createUserDto }`: one of the body comes last and wins. The field is required,
of mixed type, and stored as it came. -/
def tidField (tid body : Json) : Option (Option Json) :=
  match (body.get "tid").getD tid with
  | .null => none
  | value => some (Mongo.minimize value)

def userDocument (id : String) (tid : Json) (hash : String) (body : Json) : Option Users :=
  match tidField tid body, castField env body "nick", castField env body "description",
      castField env body "email", castField env body "sex" with
  | some tid, some nick, some description, some email, some sex =>
    some { _id := id, tid := tid, nick := nick, description := description, password := some hash,
           email := email, sex := sex }
  | _, _, _, _, _ => none

def registeInsert (id : String) (tid : Json) (hash : String) (body : Json) (s : AccountStore) :
    Except Failure AccountStore :=
  match userDocument env id tid hash body with
  | none => .error .castError
  | some user => .ok { s with users := s.users ++ [user] }

def registeSave (id : String) (tid : Json) (body : Json) (s : AccountStore) : AccountStore :=
  { s with
    questions := s.questions ++ [{ _id := id, uid := tid, question := (body.get "question").bind Mongo.minimize }] }

def registeIncrby (s : AccountStore) : Except Failure AccountStore :=
  match Redis.incrby s.redis ACCOUNT_POOL_NAMESPACE 1 with
  | .error e => .error (.redis e)
  | .ok redis => .ok { s with redis := redis }

/-- `id` and `questionId` are the `_id`s of the two new documents. -/
def registe (id questionId : String) (body : Json) (s : AccountStore) : Except Failure Json × AccountStore :=
  match registeGet env body s with
  | .error e => (.error e, s)
  | .ok (tid, hash) =>
    match registeFind env body s with
    | .error e => (.error e, s)
    | .ok () =>
      match registeInsert env id tid hash body s with
      | .error e => (.error e, s)
      | .ok inserted =>
        let saved := registeSave questionId tid body inserted
        match registeIncrby saved with
        | .error e => (.error e, saved)
        | .ok counted => (.ok tid, counted)

/-! ### Tokens -/

def refreshPayload (access_token : String) : Option Json :=
  some (.obj [("access_token", .str access_token)])

def storeToken (key token ms : String) (s : AccountStore) : AccountStore :=
  { s with redis := Redis.setnx (Redis.set s.redis key token) key ms }

def createAccessToken (tid : Option Json) (s : AccountStore) : Except Failure String × AccountStore :=
  match env.jwt.sign tid env.access_token.expire s.now with
  | none => (.error .sign, s)
  | some token => (.ok token, storeToken (TOKEN_NAMESPACE tid) token env.access_token.ms s)

def createRefreshToken (access_token : String) (tid : Option Json) (s : AccountStore) :
    Except Failure String × AccountStore :=
  match env.jwt.sign (refreshPayload access_token) env.refresh_token.expire s.now with
  | none => (.error .sign, s)
  | some token => (.ok token, storeToken (REFRESH_TOKEN_NS tid) token env.refresh_token.ms s)

/-- `refresh_token` is a promise, which the call does not await. -/
structure Tokens where
  access_token : String
  refresh_token : Except Failure String

def createToken (tid : Option Json) (s : AccountStore) : Except Failure Tokens × AccountStore :=
  match createAccessToken env tid s with
  | (.error e, t) => (.error e, t)
  | (.ok access_token, t) =>
    let (refresh_token, u) := createRefreshToken env access_token tid t
    (.ok { access_token := access_token, refresh_token := refresh_token }, u)

/-- `Boolean` of the stored token: neither `null` nor the empty string counts. -/
def alive (tid : Option Json) (s : AccountStore) : Except Failure Bool :=
  match Redis.get s.redis (TOKEN_NAMESPACE tid) with
  | .error e => .error (.redis e)
  | .ok none => .ok false
  | .ok (some token) => .ok (token != "")

/-! ### login -/

def loginFind (tid : Option Json) (hash : String) (s : AccountStore) : Except Failure Unit :=
  match env.driver.mixedFilter (tid.getD .null), env.driver.stringFilter (.str hash) with
  | some p, some q =>
    if s.users.any fun user => p user.tid && q user.password then .ok ()
    else .error (.service .TID_OR_PASSWORD_ERROR .BAD_REQUEST)
  | _, _ => .error .castError

def login (tid password : Option Json) (s : AccountStore) : Except Failure Tokens × AccountStore :=
  match digest env password with
  | .error e => (.error e, s)
  | .ok hash =>
    match loginFind env tid hash s with
    | .error e => (.error e, s)
    | .ok () => createToken env tid s

/-! ### refresh -/

/-- The access token inside a refresh token, and the `tid` property of its payload. Neither `null` nor
`undefined` can be destructured. -/
def refreshDecode (refresh_token : String) (now : Int) : Except Failure (String × Option Json) :=
  match env.jwt.decode refresh_token with
  | none | some .null => .error .typeError
  | some payload =>
    match payload.get "access_token" with
    | some (.str access_token) =>
      match env.jwt.verify access_token now with
      | .error .jsonWebTokenError => .error (.service .FAIL_TOKEN_INVALIDATE .BAD_REQUEST)
      | .error .tokenExpiredError | .ok _ =>
        match env.jwt.decode access_token with
        | none | some .null => .error .typeError
        | some payload => .ok (access_token, payload.get "tid")
    | _ => .error (.service .FAIL_TOKEN_INVALIDATE .BAD_REQUEST)

structure Refreshed where
  access_token : String
  refresh_token : String

def refresh (refresh_token : String) (renew_refresh_token : Bool) (s : AccountStore) :
    Except Failure Refreshed × AccountStore :=
  match refreshDecode env refresh_token s.now with
  | .error e => (.error e, s)
  | .ok (_, tid) =>
    match createAccessToken env tid s with
    | (.error e, t) => (.error e, t)
    | (.ok token, t) =>
      if renew_refresh_token then
        match createRefreshToken env token tid t with
        | (.error e, u) => (.error e, u)
        | (.ok renewed, u) => (.ok { access_token := token, refresh_token := renewed }, u)
      else (.ok { access_token := token, refresh_token := refresh_token }, t)

/-! ### changePassWord and forgetPassword -/

def setPassword (hash : String) (user : Users) : Users := { user with password := some hash }

def replacePassword (p : Users → Bool) (hash : String) (users : List Users) : Option Users × List Users :=
  (users.find? p, Mongo.updateOne p (setPassword hash) users)

def changeUpdate (tid old_pwd new_pwd : Option Json) (s : AccountStore) :
    Except Failure (Option Users × AccountStore) :=
  match digest env new_pwd with
  | .error e => .error e
  | .ok hash =>
    match env.driver.mixedFilter (tid.getD .null), env.driver.stringFilter (old_pwd.getD .null) with
    | some p, some q =>
      let (found, users) := replacePassword (fun user => p user.tid && q user.password) hash s.users
      .ok (found, { s with users := users })
    | _, _ => .error .castError

def delToken (tid : Option Json) (s : AccountStore) : AccountStore :=
  { s with redis := Redis.del s.redis (TOKEN_NAMESPACE tid) }

def changePassWord (tid old_pwd new_pwd : Option Json) (s : AccountStore) : Except Failure Bool × AccountStore :=
  match changeUpdate env tid old_pwd new_pwd s with
  | .error e => (.error e, s)
  | .ok (_, updated) => (.ok true, delToken tid updated)

def questionOf (info : Option Questions) : Json :=
  match info.bind Questions.question with
  | none | some .null => .str "{}"
  | some question => question

def forgetFind (tid answer : Option Json) (s : AccountStore) : Except Failure Unit :=
  match env.driver.mixedFilter (tid.getD .null) with
  | none => .error .castError
  | some p =>
    if some (questionOf (s.questions.find? fun info => p (some info.uid))) = answer then .ok ()
    else .error (.service .ANSWER_ERROR .BAD_REQUEST)

def forgetUpdate (tid new_pwd : Option Json) (s : AccountStore) : Except Failure (Option Users × AccountStore) :=
  match digest env new_pwd with
  | .error e => .error e
  | .ok hash =>
    match env.driver.mixedFilter (tid.getD .null) with
    | some p =>
      let (found, users) := replacePassword (fun user => p user.tid) hash s.users
      .ok (found, { s with users := users })
    | none => .error .castError

def forgetPassword (tid answer new_pwd : Option Json) (s : AccountStore) : Except Failure Bool × AccountStore :=
  match forgetFind env tid answer s with
  | .error e => (.error e, s)
  | .ok () =>
    match forgetUpdate env tid new_pwd s with
    | .error e => (.error e, s)
    | .ok (_, updated) => (.ok true, delToken tid updated)

end AccountService

end TacoBack
