import TacoBack.Account.Alone
import TacoBack.Jwt.Guard

/-!
# Sessions

What every token in a run was signed for. An access token carries the bare tid, and what a refresh
signs next is the `tid` property of that, so no token of a session carries its tid as a property.
-/

namespace TacoBack.AccountSystem

open AccountService Transition

variable {env : AccountEnv} {past : List Event} {s s' : State}

/-- The tid of a token comes from the login, or is the `tid` property of the older access token. -/
def Derived (env : AccountEnv) (tid : Option Json) : Origin → Prop
  | .login claimed => tid = claimed
  | .refresh access_token => tid = (env.jwt.decode access_token).bind (·.get "tid")

def Backed (past : List Event) (tid : Option Json) : Kind → Prop
  | .access => True
  | .refresh access_token => ∃ origin, .issued ⟨.access, tid, origin, access_token⟩ ∈ past

/-- What a waiting task owes to the past. -/
def Justified (env : AccountEnv) (past : List Event) : Task → Prop
  | .sign kind tid origin renew => Derived env tid origin ∧ Backed past tid kind ∧ (renew = true → kind = .access)
  | .set issue renew | .setnx issue renew => .issued issue ∈ past ∧ (renew = true → issue.kind = .access)
  | _ => True

structure Sound (env : AccountEnv) (past : List Event) (s : State) : Prop where
  derived : ∀ issue, .issued issue ∈ past → Derived env issue.tid issue.origin
  backed : ∀ issue, .issued issue ∈ past → Backed past issue.tid issue.kind
  signed : ∀ issue, .issued issue ∈ past →
    ∃ expire now, env.jwt.sign (issue.kind.payload issue.tid) expire now = some issue.token
  tasks : ∀ task ∈ s.tasks, Justified env past task

theorem Backed.append {tid : Option Json} {kind : Kind} (backed : Backed past tid kind) (more : List Event) :
    Backed (past ++ more) tid kind := by
  cases kind with
  | access => trivial
  | refresh access_token =>
    obtain ⟨origin, member⟩ := backed
    exact ⟨origin, List.mem_append_left _ member⟩

theorem Justified.append {task : Task} (justified : Justified env past task) (more : List Event) :
    Justified env (past ++ more) task := by
  cases task with
  | sign => exact ⟨justified.1, justified.2.1.append more, justified.2.2⟩
  | set | setnx => exact ⟨List.mem_append_left _ justified.1, justified.2⟩
  | _ => trivial

theorem Effect.justified {store store' : AccountStore} {task : Task} {event : Event} {rest : List Task}
    (effect : Effect env store task event store' rest)
    (derived : ∀ issue, .issued issue ∈ past → Derived env issue.tid issue.origin)
    (justified : Justified env past task) : ∀ next ∈ rest, Justified env (past ++ [event]) next := by
  cases effect with
  | sign => simpa [Justified] using justified.2.2
  | set => simpa [Justified] using justified
  | @setnx issue renew =>
    intro next member
    split at member
    · rename_i renewed
      obtain rfl := List.mem_singleton.mp member
      obtain ⟨kind, tid, origin, token⟩ := issue
      obtain rfl : kind = .access := justified.2 renewed
      exact ⟨derived _ justified.1, ⟨origin, List.mem_append_left _ justified.1⟩, by simp⟩
    · cases member
  | _ => simp [Justified]

theorem Step.issued {issue : Issue} (taken : Step env s (.issued issue) s') :
    ∃ renew, .sign issue.kind issue.tid issue.origin renew ∈ s.tasks ∧
      env.jwt.sign (issue.kind.payload issue.tid) (issue.kind.expire env).expire s.store.now = some issue.token := by
  cases taken with
  | run here effect =>
    cases effect with
    | @sign _ _ _ renew _ signed => exact ⟨renew, by simp [here], signed⟩

theorem refreshDecode_ok {refresh_token access_token : String} {now : Int} {tid : Option Json} :
    refreshDecode env refresh_token now = .ok (access_token, tid) ↔
      ∃ outer inner, env.jwt.decode refresh_token = some outer ∧ outer.get "access_token" = some (.str access_token) ∧
        env.jwt.verify access_token now ≠ .error .jsonWebTokenError ∧
        env.jwt.decode access_token = some inner ∧ inner ≠ .null ∧ tid = inner.get "tid" := by
  unfold refreshDecode
  constructor
  · intro read
    split at read
    · cases read
    · cases read
    rename_i outer _ decoded
    split at read
    · rename_i inside token found
      split at read
      · cases read
      all_goals
        rename_i verdict verified
        split at read
        · cases read
        · cases read
        rename_i inner present opened
        obtain ⟨rfl, rfl⟩ := Prod.mk.inj (Except.ok.inj read)
        exact ⟨outer, inner, decoded, found, by simp [verified], opened, present, rfl⟩
    · cases read
  · rintro ⟨outer, inner, decoded, found, verified, opened, present, rfl⟩
    have object : outer ≠ .null := by
      rintro rfl
      cases found
    have accepted : ∀ e, env.jwt.verify access_token now = .error e → e = .tokenExpiredError := by
      rintro (_ | _) verdict
      · exact (verified verdict).elim
      · rfl
    cases verdict : env.jwt.verify access_token now with
    | error e =>
      obtain rfl := accepted e verdict
      simp [decoded, found, verdict, opened]
    | ok payload => simp [decoded, found, verdict, opened]

theorem Step.sound {event : Event} (taken : Step env s event s') (sound : Sound env past s) :
    Sound env (past ++ [event]) s' := by
  have issued : ∀ issue, .issued issue ∈ past ++ [event] → .issued issue ∈ past ∨
      ∃ renew, .sign issue.kind issue.tid issue.origin renew ∈ s.tasks ∧
        env.jwt.sign (issue.kind.payload issue.tid) (issue.kind.expire env).expire s.store.now = some issue.token := by
    intro issue member
    rcases List.mem_append.mp member with old | new
    · exact .inl old
    · obtain rfl := List.mem_singleton.mp new
      exact .inr taken.issued
  refine ⟨fun issue member => ?_, fun issue member => ?_, fun issue member => ?_, ?_⟩
  · rcases issued issue member with old | ⟨renew, waiting, -⟩
    · exact sound.derived issue old
    · exact (sound.tasks _ waiting).1
  · rcases issued issue member with old | ⟨renew, waiting, -⟩
    · exact (sound.backed issue old).append _
    · exact (sound.tasks _ waiting).2.1.append _
  · rcases issued issue member with old | ⟨renew, -, signed⟩
    · exact sound.signed issue old
    · exact ⟨_, _, signed⟩
  · cases taken with
    | tick => exact fun task member => (sound.tasks task member).append _
    | login => exact forall_spawned sound.tasks (fun _ held => held.append _) ⟨rfl, trivial, fun _ => rfl⟩
    | refresh read =>
      obtain ⟨outer, inner, -, -, -, opened, -, rfl⟩ := refreshDecode_ok.mp read
      exact forall_spawned sound.tasks (fun _ held => held.append _) ⟨by simp [Derived, opened], trivial, fun _ => rfl⟩
    | registe | changePassWord | forgetPassword =>
      exact forall_spawned sound.tasks (fun _ held => held.append _) trivial
    | @run pre task post event store rest here effect =>
      have justified := sound.tasks task (by simp [here])
      exact forall_replaced (here ▸ sound.tasks) (fun _ held => held.append _)
        (effect.justified sound.derived justified)

theorem run_sound {now : Int} {history : History} (run : Run env now history s) : Sound env (labels history) s :=
  Transition.Run.invariant (P := fun history s => Sound env (labels history) s)
    ⟨by simp, by simp, by simp, by simp [init]⟩
    (fun _ _ _ _ _ sound taken => by simpa using taken.sound sound) run

/-! ### A sample session -/

/-- A tid that the query for a login reads as an operator, and that the library signs as an object. -/
def sampleTid : Json := .obj [("$eq", .num 1)]

/-- A tid that is an object with another one inside. -/
def nestedTid : Json := .obj [("tid", .obj [("n", .num 1)])]

def sampleTokens : List (String × Json) :=
  [("jwt.1", sampleTid), ("jwt.refresh.1", .obj [("access_token", .str "jwt.1")]), ("jwt.nested", nestedTid),
    ("jwt.refresh.nested", .obj [("access_token", .str "jwt.nested")]), ("jwt.inner", .obj [("n", .num 1)])]

/-- A text without a signature, around a token. -/
def unsignedText (padding : Nat) (access_token : String) : String :=
  String.ofList (List.replicate (padding + 1) '(' ++ ')' :: access_token.toList)

def unsigned (text : String) : Option String :=
  match text.toList with
  | '(' :: rest =>
    match rest.dropWhile (· == '(') with
    | ')' :: access_token => some (String.ofList access_token)
    | _ => none
  | _ => none

/-- A library that signs a few objects and nothing else. It also decodes texts without a signature. -/
def sampleJwt : Jwt.Lib where
  sign payload _ _ := payload.bind fun value => (sampleTokens.find? fun pair => pair.2 = value).map Prod.fst
  verify token now :=
    match sampleTokens.lookup token with
    | none => .error .jsonWebTokenError
    | some payload => if now < 604800 then .ok (some payload) else .error .tokenExpiredError
  decode token :=
    match unsigned token with
    | some access_token => refreshPayload access_token
    | none => some ((sampleTokens.lookup token).getD .null)
  exp _ := 604800

theorem sampleJwt_signed {payload : Option Json} {expire : Option String} {now : Int} {token : String}
    (signed : sampleJwt.sign payload expire now = some token) :
    ∃ value, payload = some value ∧ (token, value) ∈ sampleTokens := by
  obtain ⟨value, rfl, found⟩ := Option.bind_eq_some_iff.mp signed
  obtain ⟨pair, first, rfl⟩ := Option.map_eq_some_iff.mp found
  have same : pair.2 = value := by simpa using List.find?_some first
  exact ⟨value, rfl, same ▸ List.mem_of_find?_eq_some first⟩

theorem sampleTokens_lookup {token : String} {value : Json} (listed : (token, value) ∈ sampleTokens) :
    sampleTokens.lookup token = some value ∧ unsigned token = none ∧ token ≠ "" := by
  simp only [sampleTokens, List.mem_cons, Prod.mk.injEq, List.not_mem_nil, or_false] at listed
  rcases listed with ⟨rfl, rfl⟩ | ⟨rfl, rfl⟩ | ⟨rfl, rfl⟩ | ⟨rfl, rfl⟩ | ⟨rfl, rfl⟩ <;>
    exact ⟨rfl, by decide, by decide⟩

theorem sampleJwt_lawful : sampleJwt.Lawful where
  nonempty signed := by
    obtain ⟨value, -, listed⟩ := sampleJwt_signed signed
    exact (sampleTokens_lookup listed).2.2
  decode_sign signed := by
    obtain ⟨value, rfl, listed⟩ := sampleJwt_signed signed
    obtain ⟨payload, signature, -⟩ := sampleTokens_lookup listed
    simp [sampleJwt, payload, signature]
  verify_sign signed later := by
    obtain ⟨value, rfl, listed⟩ := sampleJwt_signed signed
    simp only [sampleJwt, (sampleTokens_lookup listed).1]
    rfl

def sampleLoggedIn : AccountStore :=
  storeToken (REFRESH_TOKEN_NS (some sampleTid)) "jwt.refresh.1" "2592000000"
    (storeToken (TOKEN_NAMESPACE (some sampleTid)) "jwt.1" "604800000" (sampleRegistered 0))

theorem login_sample : login (sampleEnv sampleJwt) (some sampleTid) (some (.str "123456789Sd!")) (sampleRegistered 0) =
    (.ok ⟨"jwt.1", .ok "jwt.refresh.1"⟩, sampleLoggedIn) := by
  rfl

theorem session_run : ∃ history, Run (sampleEnv sampleJwt) 0 history ⟨sampleLoggedIn, []⟩ ∧
    labels history = [.registe sampleBody, .internal, .internal, .internal, .returned (.num 1), .internal,
      .issued ⟨.access, some sampleTid, .login (some sampleTid), "jwt.1"⟩, .internal, .internal,
      .issued ⟨.refresh "jwt.1", some sampleTid, .login (some sampleTid), "jwt.refresh.1"⟩, .internal, .internal] := by
  obtain ⟨registering, registers, first, -⟩ := registe_alone (s := init 0) rfl (registe_sample sampleJwt 0)
  obtain ⟨entering, enters, second⟩ := login_alone (s := ⟨sampleRegistered 0, []⟩) rfl login_sample
  refine ⟨_, registers.append enters, ?_⟩
  rw [labels_append, first, second]
  rfl

/-! ### The identity of a session -/

/-- The token belongs to the session that a login for `tid` opened. -/
inductive Session (past : List Event) (tid : Option Json) : String → Prop where
  | login {kind claimed token} (member : .issued ⟨kind, claimed, .login tid, token⟩ ∈ past) : Session past tid token
  | refresh {kind claimed access_token token} (member : .issued ⟨kind, claimed, .refresh access_token, token⟩ ∈ past)
      (older : Session past tid access_token) : Session past tid token

/-- Where `AuthGuard` grants the request, `Tid` yields the tid of the session, and the token is an
access token. -/
def RoundTrip (env : AccountEnv) (past : List Event) (s : AccountStore) (authorization : String) : Prop :=
  ∀ user, AuthGuard.canActivate env.jwt (some authorization) s.now = .ok (some user) →
    ∃ tid, Tid user = .ok (some tid) ∧ Session past (some tid) (bearer authorization) ∧
      ∃ claimed origin, .issued ⟨.access, claimed, origin, bearer authorization⟩ ∈ past

theorem Sound.decode {issue : Issue} (sound : Sound env past s) (lawful : env.jwt.Lawful)
    (member : .issued issue ∈ past) : env.jwt.decode issue.token = issue.kind.payload issue.tid := by
  obtain ⟨expire, now, signed⟩ := sound.signed issue member
  exact lawful.decode_sign signed

/-- Each refresh digs one property deeper, so a `tid` property is smaller than the tid of the login. -/
theorem Session.smaller (sound : Sound env past s) (lawful : env.jwt.Lawful) {tid value item : Json} {token : String}
    (session : Session past (some tid) token) (decoded : env.jwt.decode token = some value)
    (property : value.get "tid" = some item) : sizeOf item < sizeOf tid := by
  induction session generalizing value item with
  | @login kind claimed token member =>
    have payload := sound.decode lawful member
    have derived := sound.derived _ member
    cases kind with
    | access =>
      obtain rfl : claimed = some tid := derived
      obtain rfl := Option.some.inj (payload.symm.trans decoded)
      exact Json.get_sizeOf property
    | refresh access_token =>
      obtain rfl := Option.some.inj (payload.symm.trans decoded)
      cases property
  | @refresh kind claimed access_token token member older ih =>
    have payload := sound.decode lawful member
    have derived := sound.derived _ member
    cases kind with
    | access =>
      obtain rfl : claimed = some value := payload.symm.trans decoded
      obtain ⟨inner, opened, found⟩ := Option.bind_eq_some_iff.mp (Eq.symm derived)
      exact (Json.get_sizeOf property).trans (ih opened found)
    | refresh nested =>
      obtain rfl := Option.some.inj (payload.symm.trans decoded)
      cases property

/-- The identity makes the round trip for exactly the headers whose token the library does not
verify. -/
theorem roundTrip_iff {now : Int} {history : History} (lawful : env.jwt.Lawful) (run : Run env now history s)
    (authorization : String) :
    RoundTrip env (labels history) s.store authorization ↔
      bearer authorization = "" ∨ ∃ e, env.jwt.verify (bearer authorization) s.store.now = .error e := by
  have sound := run_sound run
  constructor
  · intro trip
    by_contra refused
    simp only [not_or, not_exists] at refused
    obtain ⟨payload, verified⟩ : ∃ payload, env.jwt.verify (bearer authorization) s.store.now = .ok payload := by
      cases verdict : env.jwt.verify (bearer authorization) s.store.now with
      | ok payload => exact ⟨payload, rfl⟩
      | error e => exact (refused.2 e verdict).elim
    obtain ⟨tid, yields, session, claimed, origin, member⟩ := trip _
      (canActivate_granted.mpr ⟨authorization, rfl, refused.1, ⟨payload, verified⟩, rfl⟩)
    obtain ⟨value, decoded, property⟩ := Tid_some yields
    exact Nat.lt_irrefl _ (session.smaller sound lawful decoded property)
  · rintro refused user granted
    obtain ⟨_, same, nonempty, ⟨payload, verified⟩, -⟩ := canActivate_granted.mp granted
    obtain rfl := Option.some.inj same
    rcases refused with empty | ⟨e, failed⟩
    · exact (nonempty empty).elim
    · rw [failed] at verified
      cases verified

theorem roundTrip_sample : ∃ history s, Run (sampleEnv sampleJwt) 0 history s ∧
    (RoundTrip (sampleEnv sampleJwt) (labels history) s.store "Bearer jwt.1" ↔
      bearer "Bearer jwt.1" = "" ∨
        ∃ e, (sampleEnv sampleJwt).jwt.verify (bearer "Bearer jwt.1") s.store.now = .error e) := by
  obtain ⟨history, run, -⟩ := session_run
  exact ⟨history, _, run, roundTrip_iff sampleJwt_lawful run _⟩

theorem tid_lost : ∃ history s, Run (sampleEnv sampleJwt) 0 history s ∧
    Session (labels history) (some sampleTid) "jwt.1" ∧
    (∃ user, AuthGuard.canActivate sampleJwt (some "Bearer jwt.1") s.store.now = .ok (some user) ∧
      Tid user = .ok none) ∧
    ¬ RoundTrip (sampleEnv sampleJwt) (labels history) s.store "Bearer jwt.1" := by
  obtain ⟨history, run, whole⟩ := session_run
  have token : bearer "Bearer jwt.1" = "jwt.1" := bearer_append "jwt.1"
  have granted : AuthGuard.canActivate sampleJwt (some "Bearer jwt.1") 0 = .ok (some (some sampleTid)) :=
    canActivate_granted.mpr ⟨_, rfl, by rw [token]; decide, by rw [token]; exact ⟨_, rfl⟩, by rw [token]; rfl⟩
  have session : Session (labels history) (some sampleTid) "jwt.1" :=
    @Session.login _ _ .access (some sampleTid) _ (by simp [whole])
  refine ⟨history, _, run, session, ⟨_, granted, rfl⟩, fun trip => ?_⟩
  obtain ⟨tid, yields, -⟩ := trip _ granted
  cases yields

/-! ### Refreshing -/

/-- The text is an unexpired refresh token that the service signed, and the one stored for `tid`. -/
def Genuine (env : AccountEnv) (past : List Event) (s : AccountStore) (refresh_token : String)
    (tid : Option Json) : Prop :=
  (∃ access_token claimed origin, .issued ⟨.refresh access_token, claimed, origin, refresh_token⟩ ∈ past) ∧
    s.now < env.jwt.exp refresh_token ∧ Redis.get s.redis (REFRESH_TOKEN_NS tid) = .ok (some refresh_token)

def Mints (env : AccountEnv) (s : AccountStore) (refresh_token : String) (tid : Option Json) : Prop :=
  ∃ access_token token, refreshDecode env refresh_token s.now = .ok (access_token, tid) ∧
    (createAccessToken env tid s).1 = .ok token

/-- `refresh` mints for genuine refresh tokens only; for any other it throws and changes nothing. -/
def RefreshSound (env : AccountEnv) (past : List Event) (s : AccountStore) (refresh_token : String)
    (renew_refresh_token : Bool) : Prop :=
  (∀ tid, Mints env s refresh_token tid → Genuine env past s refresh_token tid) ∧
    ((∀ tid, ¬ Genuine env past s refresh_token tid) →
      ∃ e, refresh env refresh_token renew_refresh_token s = (.error e, s))

/-- Inside the text stands a token that verifies or has merely expired, and the `tid` property of
its payload can be signed. -/
def Nests (env : AccountEnv) (s : AccountStore) (refresh_token : String) (tid : Option Json) : Prop :=
  (∃ outer inner access_token, env.jwt.decode refresh_token = some outer ∧
    outer.get "access_token" = some (.str access_token) ∧
    env.jwt.verify access_token s.now ≠ .error .jsonWebTokenError ∧
    env.jwt.decode access_token = some inner ∧ inner ≠ .null ∧ tid = inner.get "tid") ∧
  (env.jwt.sign tid env.access_token.expire s.now).isSome

theorem createAccessToken_ok {tid : Option Json} {s : AccountStore} :
    (∃ token, (createAccessToken env tid s).1 = .ok token) ↔
      (env.jwt.sign tid env.access_token.expire s.now).isSome := by
  unfold createAccessToken
  cases env.jwt.sign tid env.access_token.expire s.now <;> simp

theorem mints_iff_nests {s : AccountStore} {refresh_token : String} {tid : Option Json} :
    Mints env s refresh_token tid ↔ Nests env s refresh_token tid := by
  simp only [Mints, Nests, refreshDecode_ok, ← createAccessToken_ok]
  constructor
  · rintro ⟨access_token, token, ⟨outer, inner, inside⟩, made⟩
    exact ⟨⟨outer, inner, access_token, inside⟩, token, made⟩
  · rintro ⟨⟨outer, inner, access_token, inside⟩, token, made⟩
    exact ⟨access_token, token, ⟨outer, inner, inside⟩, made⟩

theorem refresh_of_not_mints {s : AccountStore} {refresh_token : String}
    (never : ∀ tid, ¬ Mints env s refresh_token tid) (renew_refresh_token : Bool) :
    ∃ e, refresh env refresh_token renew_refresh_token s = (.error e, s) := by
  unfold refresh
  cases read : refreshDecode env refresh_token s.now with
  | error e => exact ⟨e, rfl⟩
  | ok decoded =>
    obtain ⟨access_token, tid⟩ := decoded
    cases signed : env.jwt.sign tid env.access_token.expire s.now with
    | none => exact ⟨.sign, by simp [createAccessToken, signed]⟩
    | some token =>
      refine (never tid ?_).elim
      exact ⟨access_token, token, read, by simp [createAccessToken, signed]⟩

/-- `refresh` is sound for exactly the texts that nest no such token, or are genuine for each tid
they nest. -/
theorem refreshSound_iff_nests (env : AccountEnv) (past : List Event) (s : AccountStore) (refresh_token : String)
    (renew_refresh_token : Bool) :
    RefreshSound env past s refresh_token renew_refresh_token ↔
      ∀ tid, Nests env s refresh_token tid → Genuine env past s refresh_token tid := by
  simp only [← mints_iff_nests]
  constructor
  · exact fun sound => sound.1
  · intro genuine
    exact ⟨genuine, fun forged => refresh_of_not_mints (fun tid mints => forged tid (genuine tid mints)) _⟩

/-- The text is made of tokens of the run: one inside that the library takes for its own was issued. -/
def Crafted (env : AccountEnv) (past : List Event) (s : AccountStore) (refresh_token : String) : Prop :=
  ∀ outer access_token, env.jwt.decode refresh_token = some outer →
    outer.get "access_token" = some (.str access_token) →
    env.jwt.verify access_token s.now ≠ .error .jsonWebTokenError →
    ∃ issue, .issued issue ∈ past ∧ issue.token = access_token

/-- No token issued so far has a payload whose `tid` property the library signs. -/
def Sealed (env : AccountEnv) (past : List Event) (s : AccountStore) : Prop :=
  ∀ issue, .issued issue ∈ past → ∀ payload, issue.kind.payload issue.tid = some payload → payload ≠ .null →
    env.jwt.sign (payload.get "tid") env.access_token.expire s.now = none

/-- `decode` reads a text whatever its signature: of every payload there are texts besides any given. -/
def Forges (jwt : Jwt.Lib) : Prop :=
  ∀ (access_token : String) (seen : List String), ∃ text, text ∉ seen ∧ jwt.decode text = refreshPayload access_token

/-- The texts of the tokens issued so far. -/
def issuedTokens (past : List Event) : List String :=
  past.filterMap fun
    | .issued issue => some issue.token
    | _ => none

theorem mem_issuedTokens {issue : Issue} (member : .issued issue ∈ past) : issue.token ∈ issuedTokens past :=
  List.mem_filterMap.mpr ⟨_, member, rfl⟩

theorem Sound.nests_of_crafted (sound : Sound env past s) (lawful : env.jwt.Lawful) {refresh_token : String}
    {tid : Option Json} (crafted : Crafted env past s.store refresh_token) (nests : Nests env s.store refresh_token tid) :
    ∃ issue payload, .issued issue ∈ past ∧ issue.kind.payload issue.tid = some payload ∧ payload ≠ .null ∧
      (env.jwt.sign (payload.get "tid") env.access_token.expire s.store.now).isSome := by
  obtain ⟨⟨outer, inner, access_token, decoded, found, verified, opened, present, rfl⟩, signs⟩ := nests
  obtain ⟨issue, member, rfl⟩ := crafted outer access_token decoded found verified
  exact ⟨issue, inner, member, (sound.decode lawful member).symm.trans opened, present, signs⟩

/-- Around an issued token whose payload can be signed on, an unsigned text mints. -/
theorem Sound.forged (sound : Sound env past s) (lawful : env.jwt.Lawful) (forges : Forges env.jwt) {issue : Issue}
    {payload : Json} (member : .issued issue ∈ past) (carries : issue.kind.payload issue.tid = some payload)
    (present : payload ≠ .null)
    (signs : (env.jwt.sign (payload.get "tid") env.access_token.expire s.store.now).isSome) :
    ∃ text, text ∉ issuedTokens past ∧ Crafted env past s.store text ∧
      Nests env s.store text (payload.get "tid") := by
  obtain ⟨expire, now, signed⟩ := sound.signed issue member
  obtain ⟨text, unseen, decoded⟩ := forges issue.token (issuedTokens past)
  have verified : env.jwt.verify issue.token s.store.now ≠ .error .jsonWebTokenError := by
    rw [lawful.verify_sign signed]
    split <;> simp
  refine ⟨text, unseen, fun outer access_token opened found _ => ?_, ⟨_, payload, issue.token, decoded, rfl, verified,
    (sound.decode lawful member).trans carries, present, rfl⟩, signs⟩
  obtain rfl := Option.some.inj (decoded.symm.trans opened)
  exact ⟨issue, member, Json.str.inj (Option.some.inj found)⟩

/-- In every run, `refresh` is sound for all texts crafted from its tokens exactly where the tokens are
sealed. -/
theorem refreshSound_iff {now : Int} {history : History} (lawful : env.jwt.Lawful) (forges : Forges env.jwt)
    (run : Run env now history s) :
    (∀ refresh_token, Crafted env (labels history) s.store refresh_token → ∀ renew_refresh_token,
        RefreshSound env (labels history) s.store refresh_token renew_refresh_token) ↔
      Sealed env (labels history) s.store := by
  have sound := run_sound run
  constructor
  · intro safe issue member payload carries present
    by_contra signs
    obtain ⟨text, unseen, crafted, nests⟩ :=
      sound.forged lawful forges member carries present (Option.isSome_iff_ne_none.mpr signs)
    -- The text mints, and is no token of the run.
    obtain ⟨⟨access_token, claimed, origin, issued⟩, -⟩ :=
      (refreshSound_iff_nests _ _ _ _ _).mp (safe text crafted false) _ nests
    exact unseen (mem_issuedTokens issued)
  · intro sealed refresh_token crafted renew
    refine (refreshSound_iff_nests _ _ _ _ _).mpr fun tid nests => ?_
    obtain ⟨issue, payload, member, carries, present, signs⟩ := sound.nests_of_crafted lawful crafted nests
    rw [sealed issue member payload carries present] at signs
    cases signs

theorem unsigned_text (padding : Nat) (access_token : String) :
    unsigned (unsignedText padding access_token) = some access_token := by
  have skipped : (List.replicate padding '(' ++ ')' :: access_token.toList).dropWhile (· == '(') =
      ')' :: access_token.toList := by simp
  simp [unsigned, unsignedText, List.replicate_succ, skipped]

theorem sampleJwt_forges : Forges sampleJwt := by
  intro access_token seen
  have different : Function.Injective fun padding => unsignedText padding access_token := by
    intro a b same
    have lengths := congrArg String.length same
    simpa [unsignedText] using lengths
  obtain ⟨text, ⟨padding, rfl⟩, unseen⟩ :=
    (Set.infinite_range_of_injective different).exists_notMem_finset seen.toFinset
  exact ⟨_, by simpa using unseen, by simp [sampleJwt, unsigned_text]⟩

theorem refreshSound_sample : ∃ history s, Run (sampleEnv sampleJwt) 0 history s ∧
    (∀ refresh_token, Crafted (sampleEnv sampleJwt) (labels history) s.store refresh_token → ∀ renew_refresh_token,
      RefreshSound (sampleEnv sampleJwt) (labels history) s.store refresh_token renew_refresh_token) := by
  obtain ⟨history, run, whole⟩ := session_run
  refine ⟨history, _, run, (refreshSound_iff sampleJwt_lawful sampleJwt_forges run).mpr ?_⟩
  rw [whole]
  intro issue member payload carries _
  simp only [List.mem_cons, Event.issued.injEq, reduceCtorEq, List.not_mem_nil, or_false, false_or] at member
  rcases member with rfl | rfl <;> obtain rfl := Option.some.inj carries <;> rfl

/-- The registration of `nestedTid`. -/
def nestedBody : Json :=
  .obj [("tid", nestedTid), ("password", .str "123456789Sd"), ("email", .str "test2@no-reply.com")]

theorem nested_login : ∃ t u,
    registe (sampleEnv sampleJwt) "660a3b1e9c1f4e0012ab34cf" "660a3b1e9c1f4e0012ab34d0" nestedBody (init 0).store =
      (.ok (.num 1), t) ∧
    login (sampleEnv sampleJwt) (some nestedTid) (some (.str "123456789Sd")) t =
      (.ok ⟨"jwt.nested", .ok "jwt.refresh.nested"⟩, u) ∧ u.now = 0 ∧
    (refresh (sampleEnv sampleJwt) "jwt.refresh.nested" false u).1 = .ok ⟨"jwt.inner", "jwt.refresh.nested"⟩ :=
  ⟨_, _, rfl, rfl, rfl, rfl⟩

theorem nested_run : ∃ history s, Run (sampleEnv sampleJwt) 0 history s ∧ s.store.now = 0 ∧
    labels history = [.registe nestedBody, .internal, .internal, .internal, .returned (.num 1), .internal,
      .issued ⟨.access, some nestedTid, .login (some nestedTid), "jwt.nested"⟩, .internal, .internal,
      .issued ⟨.refresh "jwt.nested", some nestedTid, .login (some nestedTid), "jwt.refresh.nested"⟩, .internal,
      .internal] := by
  obtain ⟨registered, entered, done, login, clock, -⟩ := nested_login
  obtain ⟨registering, registers, first, -⟩ := registe_alone (s := init 0) rfl done
  obtain ⟨entering, enters, second⟩ := login_alone (s := ⟨registered, []⟩) rfl login
  refine ⟨_, _, registers.append enters, clock, ?_⟩
  rw [labels_append, first, second]
  rfl

/-- An unsigned text around the access token of a login mints a new one. -/
theorem forged_refresh : ∃ history s, Run (sampleEnv sampleJwt) 0 history s ∧
    Crafted (sampleEnv sampleJwt) (labels history) s.store "()jwt.nested" ∧
    (∃ refreshed, (refresh (sampleEnv sampleJwt) "()jwt.nested" false s.store).1 = .ok refreshed) ∧
    ¬ RefreshSound (sampleEnv sampleJwt) (labels history) s.store "()jwt.nested" false := by
  obtain ⟨history, s, run, clock, whole⟩ := nested_run
  have minted : (refresh (sampleEnv sampleJwt) "()jwt.nested" false s.store).1 =
      .ok ⟨"jwt.inner", "()jwt.nested"⟩ := by
    have read : refreshDecode (sampleEnv sampleJwt) "()jwt.nested" s.store.now =
        .ok ("jwt.nested", some (.obj [("n", .num 1)])) := by
      rw [clock]
      rfl
    rw [refresh, read]
    rfl
  refine ⟨history, s, run, fun outer access_token decoded found _ => ?_, ⟨_, minted⟩, fun sound => ?_⟩
  · obtain rfl := Option.some.inj ((show _ = refreshPayload "jwt.nested" from rfl).symm.trans decoded)
    exact ⟨⟨.access, some nestedTid, .login (some nestedTid), "jwt.nested"⟩, by simp [whole],
      Json.str.inj (Option.some.inj found)⟩
  · have forged : ∀ tid, ¬ Genuine (sampleEnv sampleJwt) (labels history) s.store "()jwt.nested" tid := by
      rintro tid ⟨⟨access_token, claimed, origin, issued⟩, -⟩
      simp [whole] at issued
    obtain ⟨e, thrown⟩ := sound.2 forged
    rw [thrown] at minted
    cases minted

/-! ### After a password change -/

/-- Once the password of a user was replaced, the tokens issued for him before are of no use. -/
def SessionsEnded (env : AccountEnv) (history : History) (s : AccountStore) : Prop :=
  ∀ before x tid after, history = before ++ (x, .replaced (some tid)) :: after →
    ∀ issue, .issued issue ∈ labels before → (∃ value, issue.tid = some value ∧ env.driver.Denotes value tid) →
      match issue.kind with
      | .access => ∀ authorization user, bearer authorization = issue.token →
          AuthGuard.canActivate env.jwt (some authorization) s.now ≠ .ok (some user)
      | .refresh _ => ∀ renew refreshed, (refresh env issue.token renew s).1 ≠ .ok refreshed

/-- Every access token issued for a user before his password was replaced has expired, and a refresh token
was issued only for a value that is `null` or whose `tid` property the library refuses to sign. -/
def Outlived (env : AccountEnv) (history : History) (s : AccountStore) : Prop :=
  ∀ before x tid after, history = before ++ (x, .replaced (some tid)) :: after →
    ∀ issue, .issued issue ∈ labels before → (∃ value, issue.tid = some value ∧ env.driver.Denotes value tid) →
      match issue.kind with
      | .access => env.jwt.exp issue.token ≤ s.now
      | .refresh _ => issue.tid = some .null ∨
          env.jwt.sign (issue.tid.bind (·.get "tid")) env.access_token.expire s.now = none

theorem granted_iff (lawful : env.jwt.Lawful) {issue : Issue} (sound : Sound env past s)
    (member : .issued issue ∈ past) (now : Int) :
    (∀ authorization user, bearer authorization = issue.token →
      AuthGuard.canActivate env.jwt (some authorization) now ≠ .ok (some user)) ↔ env.jwt.exp issue.token ≤ now := by
  obtain ⟨expire, clock, signed⟩ := sound.signed issue member
  constructor
  · intro never
    by_contra alive
    refine never _ _ (bearer_append issue.token) (canActivate_granted.mpr ⟨_, rfl, ?_, ?_, rfl⟩)
    · rw [bearer_append]
      exact lawful.nonempty signed
    · rw [bearer_append, lawful.verify_sign signed, if_pos (by omega)]
      exact ⟨_, rfl⟩
  · intro expired authorization user same granted
    obtain ⟨text, rfl', -, ⟨payload, verified⟩, -⟩ := canActivate_granted.mp granted
    obtain rfl := Option.some.inj rfl'
    rw [same, lawful.verify_sign signed, if_neg (by omega)] at verified
    cases verified

/-- A refresh goes on with the `tid` property of the value that the older tokens were issued for. -/
theorem Sound.refreshDecode_iff {issue : Issue} {access_token : String} {value : Json} (sound : Sound env past s)
    (lawful : env.jwt.Lawful) (member : .issued issue ∈ past) (kind : issue.kind = .refresh access_token)
    (claimed : issue.tid = some value) {now : Int} {read : String × Option Json} :
    refreshDecode env issue.token now = .ok read ↔ value ≠ .null ∧ read = (access_token, value.get "tid") := by
  have outer := sound.decode lawful member
  have backed := sound.backed issue member
  rw [kind] at outer backed
  obtain ⟨origin, older⟩ := backed
  obtain ⟨expire, clock, signed⟩ := sound.signed _ older
  have inner : env.jwt.decode access_token = some value := (sound.decode lawful older).trans claimed
  obtain ⟨inside, tid⟩ := read
  rw [refreshDecode_ok]
  constructor
  · rintro ⟨_, _, decoded, found, -, opened, present, rfl⟩
    obtain rfl := Option.some.inj (outer.symm.trans decoded)
    obtain rfl : access_token = inside := Json.str.inj (Option.some.inj found)
    obtain rfl := Option.some.inj (inner.symm.trans opened)
    exact ⟨present, rfl⟩
  · rintro ⟨present, same⟩
    obtain ⟨rfl, rfl⟩ := Prod.mk.inj same
    refine ⟨_, value, outer, rfl, ?_, inner, present, rfl⟩
    rw [lawful.verify_sign signed]
    split <;> simp

theorem refreshed_iff (lawful : env.jwt.Lawful) {issue : Issue} {access_token : String} {value : Json}
    (sound : Sound env past s) (member : .issued issue ∈ past) (kind : issue.kind = .refresh access_token)
    (claimed : issue.tid = some value) (store : AccountStore) :
    (∀ renew refreshed, (refresh env issue.token renew store).1 ≠ .ok refreshed) ↔
      issue.tid = some .null ∨
        env.jwt.sign (issue.tid.bind (·.get "tid")) env.access_token.expire store.now = none := by
  have reads : ∀ read, refreshDecode env issue.token store.now = .ok read ↔ _ := fun read =>
    sound.refreshDecode_iff lawful member kind claimed
  rw [claimed, Option.some.injEq, Option.bind_some]
  constructor
  · intro never
    by_contra useful
    obtain ⟨present, signs⟩ := not_or.mp useful
    obtain ⟨token, signed⟩ := Option.ne_none_iff_exists'.mp signs
    have read := (reads _).mpr ⟨present, rfl⟩
    exact never false ⟨token, issue.token⟩ (by simp [refresh, read, createAccessToken, signed])
  · intro useless renew refreshed result
    cases read : refreshDecode env issue.token store.now with
    | error e => simp [refresh, read] at result
    | ok decoded =>
      obtain ⟨present, rfl⟩ := (reads decoded).mp read
      simp [refresh, read, createAccessToken, useless.resolve_left present] at result

/-- A replaced password ends the earlier sessions in exactly the states that outlive them. -/
theorem sessionsEnded_iff {now : Int} {history : History} (lawful : env.jwt.Lawful) (run : Run env now history s) :
    SessionsEnded env history s.store ↔ Outlived env history s.store := by
  have sound := run_sound run
  refine forall_congr' fun before => forall_congr' fun x => forall_congr' fun tid => forall_congr' fun after =>
    forall_congr' fun whole => forall_congr' fun issue => forall_congr' fun issued => forall_congr' fun minted => ?_
  obtain ⟨value, claimed, -⟩ := minted
  have member : .issued issue ∈ labels history := by simp [whole, issued]
  cases kind : issue.kind with
  | access => exact granted_iff lawful sound member s.store.now
  | refresh access_token => exact refreshed_iff lawful sound member kind claimed s.store

theorem forgetPassword_sample : ∃ t, forgetPassword (sampleEnv sampleJwt) (some sampleTid)
    (some (.obj [("Q1", .str "A1")])) (some (.str "123456789Sd")) sampleLoggedIn = (.ok true, t) ∧ t.now = 0 :=
  ⟨_, rfl, rfl⟩

theorem reset_run : ∃ history s, Run (sampleEnv sampleJwt) 0 history s ∧ s.store.now = 0 ∧
    ∃ before x after, history = before ++ (x, .replaced (some (.num 1))) :: after ∧
      .issued ⟨.access, some sampleTid, .login (some sampleTid), "jwt.1"⟩ ∈ labels before := by
  obtain ⟨first, run, whole⟩ := session_run
  obtain ⟨t, done, clock⟩ := forgetPassword_sample
  obtain ⟨second, found, resets, replaced, updated, updates⟩ :=
    forgetPassword_alone (s := ⟨sampleLoggedIn, []⟩) rfl done
  have tid : found.bind Users.tid = some (.num 1) := by
    have same := congrArg (fun result => result.toOption.map fun pair => pair.1.bind Users.tid) updates
    exact (Option.some.inj same).symm
  rw [tid] at replaced
  obtain ⟨front, x, after, rfl, -, -⟩ := labels_split (a := [Event.internal]) (b := [Event.internal]) replaced
  refine ⟨_, _, run.append resets, clock, first ++ front, x, after, by simp, ?_⟩
  simp [whole]

theorem sessionsEnded_sample : ∃ history s, Run (sampleEnv sampleJwt) 0 history s ∧
    (∃ x, (x, .replaced (some (.num 1))) ∈ history) ∧
    (SessionsEnded (sampleEnv sampleJwt) history s.store ↔ Outlived (sampleEnv sampleJwt) history s.store) := by
  obtain ⟨history, s, run, -, before, x, after, whole, -⟩ := reset_run
  exact ⟨history, s, run, ⟨x, by simp [whole]⟩, sessionsEnded_iff sampleJwt_lawful run⟩

theorem session_survives : ∃ history s, Run (sampleEnv sampleJwt) 0 history s ∧
    ¬ SessionsEnded (sampleEnv sampleJwt) history s.store := by
  obtain ⟨history, s, run, clock, before, x, after, whole, issued⟩ := reset_run
  refine ⟨history, s, run, fun ended => ?_⟩
  have refused := ended before x (.num 1) after whole _ issued ⟨_, rfl, Mongo.Driver.standard_eq _⟩
  have token : bearer "Bearer jwt.1" = "jwt.1" := bearer_append "jwt.1"
  refine refused "Bearer jwt.1" (some sampleTid) token (canActivate_granted.mpr ⟨_, rfl, ?_, ?_, ?_⟩)
  · rw [token]
    decide
  · rw [token, clock]
    exact ⟨_, rfl⟩
  · rw [token]
    rfl

end TacoBack.AccountSystem
