import TacoBack.Lib.Jwt
import TacoBack.Lib.Redis

namespace TacoBack

inductive ServiceErrorEnum where
  | NOT_LOGIN
  | ACTION_REJECT
  | PERMISSION_DENIED
  | REQUEST_TIME_OUT
  | TID_OR_PASSWORD_ERROR
  | HAS_SAME_USER
  | UNKNOWN_ERROR
  | NOT_FIND_USER
  | ANSWER_ERROR
  | FAIL_TOKEN_INVALIDATE
  | NOT_FIND_REQUEST
  | REQUEST_EXPIRED
  | INVALIDATE_PAGE
  | IN_BLACK_LIST
  | NOT_IN_BLACK_LIST
  | HAS_FRIEND
  | NOT_HAS_FRIEND
  deriving DecidableEq

/-- The response codes of `HttpStatus` that the services throw. -/
inductive HttpStatus where
  | BAD_REQUEST
  | FORBIDDEN
  | INTERNAL_SERVER_ERROR
  deriving DecidableEq

/-- What a call of a service rejects with: an error it throws itself, or one of the language or of
a store or library it calls. -/
inductive Failure where
  | service (message : ServiceErrorEnum) (code : HttpStatus)
  | typeError
  | castError
  | redis (error : Redis.ReplyError)
  | jwt (error : Jwt.Error)
  | sign
  deriving DecidableEq

/-- A command that may reject. -/
def attempt {α : Type} (fault : Option Failure) (result : Except Failure α) : Except Failure α :=
  match fault with
  | some e => .error e
  | none => result

theorem attempt_ok {α : Type} {fault : Option Failure} {result : Except Failure α} {a : α} :
    attempt fault result = .ok a ↔ fault = none ∧ result = .ok a := by
  cases fault <;> simp [attempt]

end TacoBack
