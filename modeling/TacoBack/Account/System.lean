import TacoBack.Account.Service
import TacoBack.Lib.Transition

/-!
# The account service as a system

Any number of calls at once, cut at every awaited store command. What is left of a call waits as a
`Task`, and the tasks go on in any order.
-/

namespace TacoBack.AccountSystem

open AccountService

inductive Origin where
  | login (tid : Option Json)
  | refresh (access_token : String)

inductive Kind where
  | access
  | refresh (access_token : String)

/-- A token that was signed. `tid` is the argument of `createAccessToken` or `createRefreshToken`. -/
structure Issue where
  kind : Kind
  tid : Option Json
  origin : Origin
  token : String

def Kind.payload (tid : Option Json) : Kind → Option Json
  | .access => tid
  | .refresh access_token => refreshPayload access_token

def Kind.key (tid : Option Json) : Kind → String
  | .access => TOKEN_NAMESPACE tid
  | .refresh _ => REFRESH_TOKEN_NS tid

def Kind.expire (env : AccountEnv) : Kind → TokenExpire
  | .access => env.access_token
  | .refresh _ => env.refresh_token

inductive Stage where
  | find
  | insert
  | save
  | incrby
  deriving DecidableEq

/-- What is left of a call. In `sign`, `renew` says that a refresh token is to follow; `forgetPassword`
has had the right answer; `del` is the last command of both password calls. -/
inductive Task where
  | registe (tid : Json) (hash : String) (body : Json) (stage : Stage)
  | sign (kind : Kind) (tid : Option Json) (origin : Origin) (renew : Bool)
  | set (issue : Issue) (renew : Bool)
  | setnx (issue : Issue) (renew : Bool)
  | forgetPassword (tid new_pwd : Option Json)
  | del (tid : Option Json)

/-- What a step shows. A `registe` reads the pool, throws before it writes, or returns; `replaced`
carries the tid of the user found, if he has one; with `failed` a call is lost. -/
inductive Event where
  | internal
  | failed
  | registe (body : Json)
  | rejected
  | returned (tid : Json)
  | issued (issue : Issue)
  | replaced (tid : Option Json)

structure State where
  store : AccountStore
  tasks : List Task

def init (now : Int) : State where
  store := { now := now, redis := fun _ => none, users := [], questions := [] }
  tasks := []

inductive Effect (env : AccountEnv) (s : AccountStore) : Task → Event → AccountStore → List Task → Prop where
  | find {tid hash body} (new : registeFind env body s = .ok ()) :
      Effect env s (.registe tid hash body .find) .internal s [.registe tid hash body .insert]
  | known {tid hash body e} (thrown : registeFind env body s = .error e) :
      Effect env s (.registe tid hash body .find) .rejected s []
  | insert {tid hash body id inserted} (done : registeInsert env id tid hash body s = .ok inserted) :
      Effect env s (.registe tid hash body .insert) .internal inserted [.registe tid hash body .save]
  | invalid {tid hash body id e} (thrown : registeInsert env id tid hash body s = .error e) :
      Effect env s (.registe tid hash body .insert) .rejected s []
  | save {tid hash body} (id : String) :
      Effect env s (.registe tid hash body .save) .internal (registeSave id tid body s) [.registe tid hash body .incrby]
  | incrby {tid hash body counted} (done : registeIncrby s = .ok counted) :
      Effect env s (.registe tid hash body .incrby) (.returned tid) counted []
  | sign {kind : Kind} {tid origin renew token}
      (signed : env.jwt.sign (kind.payload tid) (kind.expire env).expire s.now = some token) :
      Effect env s (.sign kind tid origin renew) (.issued ⟨kind, tid, origin, token⟩) s
        [.set ⟨kind, tid, origin, token⟩ renew]
  | refuse {kind : Kind} {tid origin renew}
      (unsigned : env.jwt.sign (kind.payload tid) (kind.expire env).expire s.now = none) :
      Effect env s (.sign kind tid origin renew) .internal s []
  | set {issue : Issue} {renew} :
      Effect env s (.set issue renew) .internal
        { s with redis := Redis.set s.redis (issue.kind.key issue.tid) issue.token } [.setnx issue renew]
  | setnx {issue : Issue} {renew} :
      Effect env s (.setnx issue renew) .internal
        { s with redis := Redis.setnx s.redis (issue.kind.key issue.tid) (issue.kind.expire env).ms }
        (if renew then [.sign (.refresh issue.token) issue.tid issue.origin false] else [])
  | forgetPassword {tid new_pwd found updated} (done : forgetUpdate env tid new_pwd s = .ok (found, updated)) :
      Effect env s (.forgetPassword tid new_pwd) (.replaced (found.bind Users.tid)) updated [.del tid]
  | throw {tid new_pwd e} (thrown : forgetUpdate env tid new_pwd s = .error e) :
      Effect env s (.forgetPassword tid new_pwd) .internal s []
  | del {tid} : Effect env s (.del tid) .internal (delToken tid s) []
  | fail {task} : Effect env s task .failed s []

/-- One step of the system. A call that throws at its first command takes no step. -/
inductive Step (env : AccountEnv) (s : State) : Event → State → Prop where
  | tick {now} (later : s.store.now ≤ now) :
      Step env s .internal { s with store := { s.store with now := now } }
  | registe {body tid hash} (read : registeGet env body s.store = .ok (tid, hash)) :
      Step env s (.registe body) { s with tasks := s.tasks ++ [.registe tid hash body .find] }
  | login {tid password hash} (hashed : digest env password = .ok hash)
      (found : loginFind env tid hash s.store = .ok ()) :
      Step env s .internal { s with tasks := s.tasks ++ [.sign .access tid (.login tid) true] }
  | refresh {refresh_token renew access_token tid}
      (read : refreshDecode env refresh_token s.store.now = .ok (access_token, tid)) :
      Step env s .internal { s with tasks := s.tasks ++ [.sign .access tid (.refresh access_token) renew] }
  | changePassWord {tid old_pwd new_pwd found updated}
      (done : changeUpdate env tid old_pwd new_pwd s.store = .ok (found, updated)) :
      Step env s (.replaced (found.bind Users.tid)) { store := updated, tasks := s.tasks ++ [.del tid] }
  | forgetPassword {tid answer new_pwd} (accepted : forgetFind env tid answer s.store = .ok ()) :
      Step env s .internal { s with tasks := s.tasks ++ [.forgetPassword tid new_pwd] }
  | run {pre task post event store rest} (here : s.tasks = pre ++ task :: post)
      (effect : Effect env s.store task event store rest) :
      Step env s event { store := store, tasks := pre ++ rest ++ post }

abbrev History := List (State × Event)

abbrev Run (env : AccountEnv) (now : Int) : History → State → Prop :=
  Transition.Run (Step env) (init now)

variable {env : AccountEnv} {s : State} {task : Task} {rest : List Task} {event : Event} {store : AccountStore}

theorem Step.first {post : List Task} (here : s.tasks = task :: post)
    (effect : Effect env s.store task event store rest) :
    Step env s event { store := store, tasks := rest ++ post } := by
  simpa using @Step.run env s [] task post event store rest here effect

theorem Step.only (here : s.tasks = [task]) (effect : Effect env s.store task event store rest) :
    Step env s event { store := store, tasks := rest } := by
  simpa using Step.first here effect

end TacoBack.AccountSystem
