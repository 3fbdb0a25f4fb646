import TacoBack.Jwt.Guard

/-!
# The readers of the Authorization header

`AuthGuard` cuts the scheme out wherever it stands, the decorator `Token` cuts off six characters, and
`TokenValidityCheckMiddleware` takes what stands between the first two spaces. The characters of a header
are single bytes, which JavaScript counts as here.
-/

namespace TacoBack

/-- What `String.prototype.trim` takes off: white space and line terminators. -/
def isWhiteSpace (c : Char) : Bool :=
  let code := c.toNat
  (9 ≤ code && code ≤ 13) || (0x2000 ≤ code && code ≤ 0x200a) ||
    [0x20, 0xa0, 0x1680, 0x2028, 0x2029, 0x202f, 0x205f, 0x3000, 0xfeff].contains code

def trim (text : List Char) : List Char :=
  ((text.dropWhile isWhiteSpace).reverse.dropWhile isWhiteSpace).reverse

structure TokenOptions where
  raw : Bool := false
  field : String := "Bearer"

def Token (data : TokenOptions) (authorization : Option String) : Except Failure (Option String) :=
  if data.raw then .ok authorization
  else
    match authorization with
    | none => .error .typeError
    | some token => .ok (some (String.ofList (trim (token.toList.drop data.field.length))))

namespace TokenValidityCheckMiddleware

/-- `authorization.split(' ')[1]` -/
def token (authorization : String) : Option String :=
  (authorization.toList.splitOn ' ')[1]?.map String.ofList

/-- What `Reflect.set` puts under `user`: what was decoded, or the promise of it. -/
inductive ReqUser where
  | value (user : Option Json)
  | promise (user : Option Json)

/-- A result is what `next` is called with. A missing piece is sent as the empty text. The middleware does
not await `decode`. -/
def use {α : Type} (jwt : Jwt.Lib) (redis : Redis.Db α) (authorization : Option String) : Except Failure ReqUser :=
  match authorization with
  | none => .error .typeError
  | some authorization =>
    let token := (token authorization).getD ""
    match Redis.hexists redis "token:white-list" token with
    | .error e => .error (.redis e)
    | .ok false => .error (.service .FAIL_TOKEN_INVALIDATE .FORBIDDEN)
    | .ok true => .ok (.promise (jwt.decode token))

end TokenValidityCheckMiddleware

def SameToken (authorization : String) : Prop :=
  Token {} (some authorization) = .ok (some (bearer authorization)) ∧
    TokenValidityCheckMiddleware.token authorization = some (bearer authorization)

def OneToken (jwt : Jwt.Lib) (authorization : String) (now : Int) : Prop :=
  ∀ user, AuthGuard.canActivate jwt (some authorization) now = .ok (some user) → SameToken authorization

/-- The scheme, one space, and a token without spaces that white space neither begins nor ends. -/
def Schemed (authorization : String) : Prop :=
  ∃ token : List Char, authorization.toList = "Bearer ".toList ++ token ∧ ' ' ∉ token ∧ trim token = token

theorem replaceFirst_cases (pattern text : List Char) : replaceFirst pattern text = text ∨
    ∃ pre post, text = pre ++ pattern ++ post ∧ replaceFirst pattern text = pre ++ post := by
  induction text with
  | nil => exact .inl rfl
  | cons c text ih =>
    rw [replaceFirst]
    split
    · rename_i here
      obtain ⟨post, whole⟩ := List.isPrefixOf_iff_prefix.mp here
      refine .inr ⟨[], post, by rw [List.nil_append, whole], ?_⟩
      rw [← whole, List.drop_left, List.nil_append]
    · rcases ih with same | ⟨pre, post, whole, cut⟩
      · exact .inl (by rw [same])
      · refine .inr ⟨c :: pre, post, ?_, ?_⟩
        · rw [List.cons_append, List.cons_append, ← whole]
        · rw [cut, List.cons_append]

theorem splitOn_head {text piece : List Char} (first : (text.splitOn ' ')[0]? = some piece) : ' ' ∉ piece := by
  by_cases spaced : ' ' ∈ text
  · obtain ⟨front, back, rfl, clear⟩ := List.eq_append_cons_of_mem spaced
    rw [List.splitOn_append_cons_self_of_not_mem clear] at first
    obtain rfl := Option.some.inj first
    exact clear
  · rw [List.splitOn_eq_singleton spaced] at first
    obtain rfl := Option.some.inj first
    exact spaced

theorem splitOn_second {text piece : List Char} (second : (text.splitOn ' ')[1]? = some piece) :
    ' ' ∈ text ∧ ' ' ∉ piece := by
  by_cases spaced : ' ' ∈ text
  · refine ⟨spaced, ?_⟩
    obtain ⟨front, back, rfl, clear⟩ := List.eq_append_cons_of_mem spaced
    rw [List.splitOn_append_cons_self_of_not_mem clear] at second
    exact splitOn_head second
  · rw [List.splitOn_eq_singleton spaced] at second
    cases second

theorem trim_space (text : List Char) : trim (' ' :: text) = trim text := by
  rw [trim, List.dropWhile_cons_of_pos (by decide), trim]

theorem token_schemed {authorization : String} {token : List Char}
    (whole : authorization.toList = "Bearer ".toList ++ token) (clear : ' ' ∉ token) :
    TokenValidityCheckMiddleware.token authorization = some (String.ofList token) := by
  have scheme : ' ' ∉ "Bearer".toList := by decide
  have pieces : authorization.toList = "Bearer".toList ++ ' ' :: token := whole
  rw [TokenValidityCheckMiddleware.token, pieces, List.splitOn_append_cons_self_of_not_mem scheme,
    List.splitOn_eq_singleton clear]
  rfl

theorem Token_schemed {authorization : String} {token : List Char}
    (whole : authorization.toList = "Bearer ".toList ++ token) :
    Token {} (some authorization) = .ok (some (String.ofList (trim token))) := by
  have rest : authorization.toList.drop 6 = ' ' :: token := by rw [whole]; rfl
  have length : ({} : TokenOptions).field.length = 6 := rfl
  rw [Token, if_neg Bool.false_ne_true, length, rest, trim_space]

theorem bearer_schemed {authorization : String} {token : List Char}
    (whole : authorization.toList = "Bearer ".toList ++ token) : bearer authorization = String.ofList token := by
  have same : authorization = "Bearer " ++ String.ofList token := by
    apply String.toList_injective
    simpa using whole
  rw [same, bearer_append]

/-- The second piece has no space, so the scheme was cut out, and what came before it is empty. -/
theorem sameToken_iff (authorization : String) : SameToken authorization ↔ Schemed authorization := by
  constructor
  · rintro ⟨decorated, looked⟩
    obtain ⟨piece, second, same⟩ := Option.map_eq_some_iff.mp looked
    obtain ⟨spaced, clear⟩ := splitOn_second second
    have cut : piece = replaceFirst "Bearer ".toList authorization.toList := by
      rw [bearer] at same
      exact String.ofList_injective same
    rcases replaceFirst_cases "Bearer ".toList authorization.toList with kept | ⟨pre, post, whole, rest⟩
    · rw [cut, kept] at clear
      exact (clear spaced).elim
    rw [rest] at cut
    rw [cut, List.mem_append, not_or] at clear
    have scheme : ' ' ∉ pre ++ "Bearer".toList := by
      rw [List.mem_append, not_or]
      exact ⟨clear.1, by decide⟩
    have pieces : authorization.toList = (pre ++ "Bearer".toList) ++ ' ' :: post := by
      rw [whole]
      simp
    rw [pieces, List.splitOn_append_cons_self_of_not_mem scheme, List.splitOn_eq_singleton clear.2] at second
    have empty : pre = [] := by
      have alone : post = pre ++ post := (Option.some.inj second).trans cut
      exact List.self_eq_append_left.mp alone
    rw [empty, List.nil_append] at whole
    refine ⟨post, whole, clear.2, ?_⟩
    rw [Token_schemed whole, bearer_schemed whole] at decorated
    exact String.ofList_injective (Option.some.inj (Except.ok.inj decorated))
  · rintro ⟨token, whole, clear, trimmed⟩
    rw [SameToken, Token_schemed whole, token_schemed whole clear, bearer_schemed whole, trimmed]
    exact ⟨rfl, rfl⟩

theorem one_token_iff (jwt : Jwt.Lib) (authorization : String) (now : Int) : OneToken jwt authorization now ↔
    ∀ user, AuthGuard.canActivate jwt (some authorization) now = .ok (some user) → Schemed authorization := by
  simp only [OneToken, sameToken_iff]

def sampleToken : String := "eyJhbGciOiJIUzI1NiJ9.eyJ0aWQiOjF9.sig"

/-- The same token with the scheme inside. -/
def schemeInside : String := "eyJhbGciOiJIUzI1NiJ9.eyJ0aWQiBearer OjF9.sig"

/-- A library that signs and accepts one token, for the user 1. -/
def sampleVerifier : Jwt.Lib where
  sign payload _ _ := if payload = some (.obj [("tid", .num 1)]) then some sampleToken else none
  verify token _ := if token = sampleToken then .ok (some (.obj [("tid", .num 1)])) else .error .jsonWebTokenError
  decode _ := some (.obj [("tid", .num 1)])
  exp _ := 0

/-- The guard grants a bare token, and a scheme in the middle of one. The decorator cuts six characters
off both; the middleware finds no token, or the part after the scheme. -/
theorem readers_differ :
    AuthGuard.canActivate sampleVerifier (some sampleToken) 0 = .ok (some (some (.obj [("tid", .num 1)]))) ∧
    bearer sampleToken = sampleToken ∧ Token {} (some sampleToken) = .ok (some "ciOiJIUzI1NiJ9.eyJ0aWQiOjF9.sig") ∧
    TokenValidityCheckMiddleware.token sampleToken = none ∧
    AuthGuard.canActivate sampleVerifier (some schemeInside) 0 =
      .ok (some (some (.obj [("tid", .num 1)]))) ∧
    TokenValidityCheckMiddleware.token schemeInside = some "OjF9.sig" ∧
    ¬ OneToken sampleVerifier sampleToken 0 ∧ ¬ OneToken sampleVerifier schemeInside 0 := by
  refine ⟨by decide, by decide, by decide, by decide, by decide, by decide, fun one => ?_, fun one => ?_⟩
  · exact absurd (one (some (.obj [("tid", .num 1)])) (by decide)).2 (by decide)
  · exact absurd (one (some (.obj [("tid", .num 1)])) (by decide)).2 (by decide)

end TacoBack
