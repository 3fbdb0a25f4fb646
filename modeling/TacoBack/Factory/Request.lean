import TacoBack.Lib.Json

namespace TacoBack

inductive ModuleKeys where
  | FRIEND
  | GROUP
  deriving DecidableEq

inductive Action where
  | ADD
  | INVITE
  | JOIN
  deriving DecidableEq

/-- `rid` is missing until it is assigned. `metadata` is the field `meta`. -/
structure Request where
  action : Action
  metadata : Option Json
  module : ModuleKeys
  rid : Option String
  sender : String
  expire : Int
  sign : Option String
  recive : String
  deriving DecidableEq

structure Env where
  -- `process.env.WORKER_ID ?? 1`, printed.
  workerId : String
  -- The first 16 hex digits of the MD5 digest of the request's JSON text.
  requestHash : Request → String
  -- `system.request.expire`, in milliseconds.
  requestExpire : Int
  -- The raw message a message handler gets after the payload, printed.
  rawMessage : String

def createRequest (now : Int) (action : Action) (sender : String) (module : ModuleKeys) (expire : Int)
    (recive : String) (metadata : Option Json) (autoFormatExpire : Bool) : Request where
  action := action
  sender := sender
  module := module
  metadata := metadata
  expire := if autoFormatExpire then now + expire else expire
  recive := recive
  rid := none
  sign := none

def getModule (request : Request) : ModuleKeys := request.module

def getAction (request : Request) : Action := request.action

def isExpired (request : Request) (time : Int) : Bool := request.expire < time

def createRid (env : Env) (request : Request) : String :=
  request.sender ++ "-" ++ request.recive ++ "-" ++ env.workerId ++ "-" ++ env.requestHash request

@[simp] theorem isExpired_eq_false {request : Request} {time : Int} :
    isExpired request time = false ↔ time ≤ request.expire := by
  simp [isExpired]

theorem dash_mem_createRid (env : Env) (request : Request) : '-' ∈ (createRid env request).toList := by
  simp [createRid]

end TacoBack
