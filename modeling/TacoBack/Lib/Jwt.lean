import TacoBack.Lib.Json

/-!
# Signed tokens

A token library under one secret. A payload is any JavaScript value: `none` is `undefined`.
-/

namespace Jwt

inductive Error where
  | jsonWebTokenError
  | tokenExpiredError
  deriving DecidableEq

/-- `sign payload expiresIn now` may refuse a payload. `exp token` is the end of the token's
lifetime. -/
structure Lib where
  sign : Option Json → Option String → Int → Option String
  verify : String → Int → Except Error (Option Json)
  decode : String → Option Json
  exp : String → Int

structure Lib.Lawful (lib : Lib) : Prop where
  nonempty : ∀ {payload expiresIn now token}, lib.sign payload expiresIn now = some token → token ≠ ""
  decode_sign : ∀ {payload expiresIn now token},
    lib.sign payload expiresIn now = some token → lib.decode token = payload
  verify_sign : ∀ {payload expiresIn now token}, lib.sign payload expiresIn now = some token → ∀ later,
    lib.verify token later = if later < lib.exp token then .ok payload else .error .tokenExpiredError

end Jwt
