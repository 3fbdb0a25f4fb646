import TacoBack.Errors
import TacoBack.Factory.Request
import TacoBack.Lib.Double

/-!
# RequestService

Requests are kept in the hash `request:<tid>` of their recipient, under their `rid`.
-/

namespace TacoBack

/-- What a field of a request hash parses to: a record, or the bare number `HSETNX` may write. -/
inductive Stored where
  | record (request : Request)
  | number (n : Int)

inductive Status where
  | accept
  | refuse
  deriving DecidableEq

/-! ### Messages -/

inductive Payload where
  | request (request : Request)
  | args (fields : List (String × Json))

structure Message where
  exchange : String
  routingKey : String
  payload : Payload

inductive Handler where
  | addRequest
  | removeRequest
  | accept
  deriving DecidableEq

def handlerOf (message : Message) : Option Handler :=
  if message.exchange = "system.call" then
    if message.routingKey = "request.add" then some .addRequest
    else if message.routingKey = "request.remove" then some .removeRequest
    else if message.routingKey = "friend.add.accept" then some .accept
    else none
  else none

def ModuleKeys.toLowerCase : ModuleKeys → String
  | .FRIEND => "friend"
  | .GROUP => "group"

def Action.toLowerCase : Action → String
  | .ADD => "add"
  | .INVITE => "invite"
  | .JOIN => "join"

def Status.toLowerCase : Status → String
  | .accept => "accept"
  | .refuse => "refuse"

namespace RequestService

def REQUEST_NAMESPACE (tid : String) : String := "request:" ++ tid

def REQUEST_HASH_KEY_NAMESPACE (tid : String) : String := "request:split:" ++ tid

theorem requestNamespace_inj {a b : String} (same : REQUEST_NAMESPACE a = REQUEST_NAMESPACE b) : a = b := by
  simpa [REQUEST_NAMESPACE] using same

/-- The split key of a recipient is the hash key of another string. -/
theorem split_eq_namespace (tid : String) : REQUEST_HASH_KEY_NAMESPACE tid = REQUEST_NAMESPACE ("split:" ++ tid) := by
  rw [REQUEST_HASH_KEY_NAMESPACE, REQUEST_NAMESPACE, ← String.append_assoc]
  rfl

theorem splitNamespace_inj {a b : String}
    (same : REQUEST_HASH_KEY_NAMESPACE a = REQUEST_HASH_KEY_NAMESPACE b) : a = b := by
  simpa [REQUEST_HASH_KEY_NAMESPACE] using same

theorem split_append_ne (tid : String) : "split:" ++ tid ≠ tid := by
  intro same
  have lengths := congrArg String.length same
  have prefixes : "split:".length = 6 := by decide
  rw [String.length_append] at lengths
  omega

theorem split_ne_namespace (tid : String) : REQUEST_HASH_KEY_NAMESPACE tid ≠ REQUEST_NAMESPACE tid := by
  rw [split_eq_namespace]
  intro same
  exact split_append_ne tid (requestNamespace_inj same)

/-! ### addRequest, one command at a time -/

def ridOf (env : Env) (request : Request) : String :=
  match request.rid with
  | none => createRid env request
  | some rid => if rid = "" then createRid env request else rid

/-- `request.expire += expire`, by the configured lifetime. -/
def raisedExpire (env : Env) (request : Request) : Int := Double.add request.expire env.requestExpire

/-- The record is serialised before `expire` is raised. -/
def addHset (env : Env) (request : Request) (db : Redis.Db Stored) : Except Redis.ReplyError (Redis.Db Stored) :=
  Redis.hset db (REQUEST_NAMESPACE request.recive) (ridOf env request) (.record request)

def addHsetnx (env : Env) (request : Request) (db : Redis.Db Stored) : Except Redis.ReplyError (Redis.Db Stored) :=
  Redis.hsetnx db (REQUEST_NAMESPACE request.recive) (ridOf env request)
    (.number (raisedExpire env request))

def addZadd (env : Env) (request : Request) (db : Redis.Db Stored) : Except Redis.ReplyError (Redis.Db Stored) :=
  Redis.zadd db (REQUEST_HASH_KEY_NAMESPACE request.recive) (raisedExpire env request) (ridOf env request)

/-! ### removeRequest, getReuqest and call -/

def removeRequest (tid rid : String) (db : Redis.Db Stored) : Except Redis.ReplyError (Redis.Db Stored) :=
  Redis.hdel db (REQUEST_NAMESPACE tid) rid

/-- `removeRequest` as a message handler: the whole payload arrives as `tid`. -/
def removeRequestHandler (env : Env) (fields : List (String × Json)) (db : Redis.Db Stored) :
    Except Redis.ReplyError (Redis.Db Stored) :=
  removeRequest (Json.template (some (.obj fields))) env.rawMessage db

/-- An absent field reads as `{}`, here `none`. -/
def getReuqest (tid rid : String) (db : Redis.Db Stored) : Except Redis.ReplyError (Option Stored) :=
  Redis.hget db (REQUEST_NAMESPACE tid) rid

/-- The request `call` works on, or the error it throws after reading the store. To `isEmpty` a
number is as empty as `{}`. -/
def callRead (tid rid : String) (db : Redis.Db Stored) : Except Failure Request :=
  match getReuqest tid rid db with
  | .error e => .error (.redis e)
  | .ok (some (.record request)) => .ok request
  | .ok _ => .error (.service .NOT_FIND_REQUEST .BAD_REQUEST)

def callSend (now : Int) (request : Request) (status : Status) : Except Failure Message :=
  if isExpired request now then .error (.service .REQUEST_EXPIRED .BAD_REQUEST)
  else .ok {
    exchange := "system.call"
    routingKey := (getModule request).toLowerCase ++ "." ++ (getAction request).toLowerCase ++ "." ++
      status.toLowerCase
    payload := .request request }

theorem callRead_ok {tid rid : String} {db : Redis.Db Stored} {request : Request} :
    callRead tid rid db = .ok request ↔ Redis.Holds db (REQUEST_NAMESPACE tid) rid (.record request) := by
  unfold callRead Redis.Holds getReuqest
  split <;> rename_i read <;> simp_all

theorem callSend_handler {now : Int} {request : Request} {status : Status} {message : Message} {handler : Handler}
    (sent : callSend now request status = .ok message) (handled : handlerOf message = some handler) :
    handler = .accept ∧ status = .accept ∧ message.payload = .request request := by
  unfold callSend at sent
  split at sent
  · cases sent
  · obtain rfl := Except.ok.inj sent
    cases module : request.module <;> cases action : request.action <;> cases status <;>
      simp_all [handlerOf, getModule, getAction, ModuleKeys.toLowerCase, Action.toLowerCase, Status.toLowerCase]

/-- The environment of the samples: one worker, the lifetime of config.toml, and the digest of the
request that user 1 sends to user 2 at time 0 with the message "hi". -/
def sampleEnv : Env where
  workerId := "1"
  requestHash := fun _ => "9253d76ce549de18"
  requestExpire := 604800000
  rawMessage := "[object Object]"

end RequestService

end TacoBack
