import TacoBack.Errors

/-!
# AuthGuard and the Tid decorator
-/

namespace TacoBack

/-- `text.replace(pattern, '')`: the first occurrence goes. -/
def replaceFirst (pattern : List Char) : List Char → List Char
  | [] => []
  | c :: text =>
    if pattern.isPrefixOf (c :: text) then (c :: text).drop pattern.length
    else c :: replaceFirst pattern text

def bearer (authorization : String) : String :=
  String.ofList (replaceFirst "Bearer ".toList authorization.toList)

namespace AuthGuard

/-- `none` is a refusal; `some user` grants the request with `user` as `req.user`. -/
def canActivate (jwt : Jwt.Lib) (authorization : Option String) (now : Int) :
    Except Failure (Option (Option Json)) :=
  match authorization with
  | none => .error .typeError
  | some authorization =>
    let token := bearer authorization
    if token = "" then .ok none
    else
      match jwt.verify token now with
      | .ok _ => .ok (some (jwt.decode token))
      | .error _ => .ok none

end AuthGuard

def Tid : Option Json → Except Failure (Option Json)
  | none | some .null => .error .typeError
  | some user => .ok (user.get "tid")

theorem Tid_some {user : Option Json} {tid : Json} (yields : Tid user = .ok (some tid)) :
    ∃ value, user = some value ∧ value.get "tid" = some tid := by
  unfold Tid at yields
  split at yields
  · cases yields
  · cases yields
  · exact ⟨_, rfl, Except.ok.inj yields⟩

theorem bearer_append (token : String) : bearer ("Bearer " ++ token) = token := by
  have pieces : ("Bearer " ++ token).toList = 'B' :: ("earer ".toList ++ token.toList) := by simp
  rw [bearer, pieces, replaceFirst, if_pos (by simp)]
  simp

theorem canActivate_granted {jwt : Jwt.Lib} {authorization : Option String} {now : Int} {user : Option Json} :
    AuthGuard.canActivate jwt authorization now = .ok (some user) ↔
      ∃ text, authorization = some text ∧ bearer text ≠ "" ∧ (∃ payload, jwt.verify (bearer text) now = .ok payload) ∧
        jwt.decode (bearer text) = user := by
  rcases authorization with _ | text
  · simp [AuthGuard.canActivate]
  · simp only [AuthGuard.canActivate, Option.some.injEq, exists_eq_left']
    split
    · rename_i empty
      simp [empty]
    · rename_i nonempty
      cases jwt.verify (bearer text) now <;> simp [nonempty]

end TacoBack
