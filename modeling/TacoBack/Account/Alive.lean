import TacoBack.Account.Records
import TacoBack.Account.Session

/-!
# Live sessions

What `alive` reports, beside a record of the tokens minted. The stored token has no lifetime, and
both password calls delete it whether or not they found a user.
-/

namespace TacoBack.AliveSystem

open AccountService Transition
open AccountSystem (sampleJwt sampleJwt_lawful sampleLoggedIn sampleTid)

inductive Call where
  | tick (now : Int)
  | registe (id questionId : String) (body : Json)
  | login (tid password : Option Json)
  | refresh (refresh_token : String) (renew_refresh_token : Bool)
  | changePassWord (tid old_pwd new_pwd : Option Json)
  | forgetPassword (tid answer new_pwd : Option Json)

/-- `live` has the time of the last access token minted for a tid whose password was not replaced
since. -/
structure State where
  store : AccountStore
  live : String → Option Int

def init (store : AccountStore) : State where
  store := store
  live := fun _ => none

variable (env : AccountEnv)

def perform (s : AccountStore) : Call → AccountStore
  | .tick now => { s with now := now }
  | .registe id questionId body => (registe env id questionId body s).2
  | .login tid password => (login env tid password s).2
  | .refresh refresh_token renew_refresh_token => (refresh env refresh_token renew_refresh_token s).2
  | .changePassWord tid old_pwd new_pwd => (changePassWord env tid old_pwd new_pwd s).2
  | .forgetPassword tid answer new_pwd => (forgetPassword env tid answer new_pwd s).2

/-- What a call does to the tokens. `renewed` says that a refresh token was stored as well, `replaced`
is the stored tid of the user whose password was replaced. -/
inductive Outcome where
  | nothing
  | minted (tid : Option Json) (renewed : Bool)
  | deleted (tid : Option Json) (replaced : Option Json)

def outcome (s : AccountStore) : Call → Outcome
  | .tick _ | .registe _ _ _ => .nothing
  | .login tid password =>
    match (login env tid password s).1 with
    | .error _ => .nothing
    | .ok tokens => .minted tid tokens.refresh_token.isOk
  | .refresh refresh_token renew_refresh_token =>
    match refreshDecode env refresh_token s.now with
    | .error _ => .nothing
    | .ok (_, tid) =>
      match (createAccessToken env tid s).1 with
      | .error _ => .nothing
      | .ok _ => .minted tid (renew_refresh_token && (refresh env refresh_token renew_refresh_token s).1.isOk)
  | .changePassWord tid old_pwd new_pwd =>
    match changeUpdate env tid old_pwd new_pwd s with
    | .error _ => .nothing
    | .ok (found, _) => .deleted tid (found.bind Users.tid)
  | .forgetPassword tid answer new_pwd =>
    match forgetFind env tid answer s, forgetUpdate env tid new_pwd s with
    | .ok (), .ok (found, _) => .deleted tid (found.bind Users.tid)
    | _, _ => .nothing

/-- The tid is the text of the stored one. -/
def Names (tid : String) (stored : Json) : Prop := Json.template (some stored) = tid

instance (tid : String) (stored : Json) : Decidable (Names tid stored) :=
  inferInstanceAs (Decidable (Json.template (some stored) = tid))

def record (now : Int) (live : String → Option Int) : Outcome → String → Option Int
  | .nothing => live
  | .minted tid _ => Function.update live (Json.template tid) (some now)
  | .deleted _ none => live
  | .deleted _ (some n) => fun tid => if Names tid n then none else live tid

/-- Time does not go back. -/
def Call.Forward (now : Int) : Call → Prop
  | .tick later => now ≤ later
  | _ => True

def Step (s : State) (call : Call) (after : State) : Prop :=
  call.Forward s.store.now ∧
    after = ⟨perform env s.store call, record s.store.now s.live (outcome env s.store call)⟩

abbrev History := List (State × Call)

abbrev Run (start : AccountStore) : History → State → Prop := Transition.Run (Step env) (init start)

/-- An access token was minted for `tid` less than `lifetime` ago, and his password was not replaced
since. -/
def Live (lifetime : Int) (tid : String) (s : State) : Prop :=
  ∃ minted, s.live tid = some minted ∧ s.store.now - minted < lifetime

def Reports (lifetime : Int) (tid : String) (s : State) : Prop :=
  alive (some (.str tid)) s.store = .ok true ↔ Live lifetime tid s

/-- No refresh token goes under the key of another tid, and a live token is deleted exactly when the
password of its tid is replaced. -/
def Permits (lifetime : Int) (tid : String) (s : State) : Outcome → Prop
  | .nothing => True
  | .minted owner renewed =>
    (Json.template owner = tid → 0 < lifetime) ∧
      (renewed = true → "REFRESH:" ++ Json.template owner = tid → Live lifetime tid s)
  | .deleted owner replaced =>
    Live lifetime tid s → (Json.template owner = tid ↔ ∃ n, replaced = some n ∧ Names tid n)

/-- Time passes only as long as the lifetime of a live token does not end. -/
def Exact (lifetime : Int) (tid : String) (s : State) : Call → Prop
  | .tick now => ∀ minted, s.live tid = some minted → s.store.now - minted < lifetime → now - minted < lifetime
  | call => Permits lifetime tid s (outcome env s.store call)

/-! ### The stored tokens -/

variable {env} {s t : AccountStore} {live : String → Option Int} {lifetime : Int} {tid : String}

/-- Under the key of `tid` is no string, or one that `Boolean` takes for true. -/
def Token (s : AccountStore) (tid : String) : Prop :=
  s.redis (tokenKey tid) = none ∨ ∃ token, token ≠ "" ∧ s.redis (tokenKey tid) = some (.string token)

theorem alive_iff (token : Token s tid) :
    alive (some (.str tid)) s = .ok true ↔ (s.redis (tokenKey tid)).isSome := by
  unfold alive Redis.get
  rw [← tokenKey]
  rcases token with absent | ⟨text, nonempty, stored⟩
  · simp [absent]
  · simp [stored, nonempty]

theorem storeToken_same (key token ms : String) (s : AccountStore) :
    (storeToken key token ms s).redis key = some (.string token) := by
  simp only [storeToken, Redis.setnx_set]
  exact Function.update_self _ _ _

theorem storeToken_other {key other : String} (different : other ≠ key) (token ms : String) (s : AccountStore) :
    (storeToken key token ms s).redis other = s.redis other := by
  simp only [storeToken, Redis.setnx_set]
  exact Redis.set_of_ne _ _ different

theorem createAccessToken_cases (lawful : env.jwt.Lawful) (owner : Option Json) (s : AccountStore) :
    (∃ e, createAccessToken env owner s = (.error e, s)) ∨
    ∃ token, token ≠ "" ∧
      createAccessToken env owner s = (.ok token, storeToken (TOKEN_NAMESPACE owner) token env.access_token.ms s) := by
  unfold createAccessToken
  cases signed : env.jwt.sign owner env.access_token.expire s.now with
  | none => exact .inl ⟨_, rfl⟩
  | some token => exact .inr ⟨token, lawful.nonempty signed, rfl⟩

theorem createRefreshToken_cases (lawful : env.jwt.Lawful) (access_token : String) (owner : Option Json)
    (s : AccountStore) :
    (∃ e, createRefreshToken env access_token owner s = (.error e, s)) ∨
    ∃ token, token ≠ "" ∧ createRefreshToken env access_token owner s =
      (.ok token, storeToken (REFRESH_TOKEN_NS owner) token env.refresh_token.ms s) := by
  unfold createRefreshToken
  cases signed : env.jwt.sign (refreshPayload access_token) env.refresh_token.expire s.now with
  | none => exact .inl ⟨_, rfl⟩
  | some token => exact .inr ⟨token, lawful.nonempty signed, rfl⟩

/-- What an outcome leaves under the key of `tid`, up to the text of the token. -/
def Leaves (s t : AccountStore) (tid : String) : Outcome → Prop
  | .nothing => t.redis (tokenKey tid) = s.redis (tokenKey tid)
  | .minted owner renewed =>
    if Json.template owner = tid ∨ (renewed = true ∧ "REFRESH:" ++ Json.template owner = tid) then
      ∃ token, token ≠ "" ∧ t.redis (tokenKey tid) = some (.string token)
    else t.redis (tokenKey tid) = s.redis (tokenKey tid)
  | .deleted owner _ =>
    t.redis (tokenKey tid) = if Json.template owner = tid then none else s.redis (tokenKey tid)

theorem minted_leaves {owner : Option Json} {access ms : String} (nonempty : access ≠ "") (s : AccountStore)
    (tid : String) : Leaves s (storeToken (TOKEN_NAMESPACE owner) access ms s) tid (.minted owner false) := by
  simp only [Leaves, Bool.false_eq_true, false_and, or_false, ← tokenKey_eq_iff]
  split <;> rename_i here
  · rw [here]
    exact ⟨access, nonempty, storeToken_same _ access ms s⟩
  · exact storeToken_other here access ms s

theorem renewed_leaves {owner : Option Json} {access renewed ms ms' : String} (nonempty : access ≠ "")
    (nonempty' : renewed ≠ "") (s : AccountStore) (tid : String) :
    Leaves s (storeToken (REFRESH_TOKEN_NS owner) renewed ms'
      (storeToken (TOKEN_NAMESPACE owner) access ms s)) tid (.minted owner true) := by
  simp only [Leaves, true_and, ← tokenKey_eq_iff, ← tokenKey_eq_refresh_iff]
  by_cases second : tokenKey tid = REFRESH_TOKEN_NS owner
  · rw [if_pos (.inr second), second]
    exact ⟨renewed, nonempty', storeToken_same _ _ _ _⟩
  · rw [storeToken_other second]
    by_cases first : tokenKey tid = TOKEN_NAMESPACE owner
    · rw [if_pos (.inl first), first]
      exact ⟨access, nonempty, storeToken_same _ _ _ _⟩
    · rw [if_neg (by tauto)]
      exact storeToken_other first _ _ _

theorem delToken_leaves (owner : Option Json) (replaced : Option Json) (tid : String)
    (same : t.redis = s.redis) : Leaves s (delToken owner t) tid (.deleted owner replaced) := by
  simp only [Leaves, delToken, Redis.del, same, ← tokenKey_eq_iff]
  split <;> rename_i here
  · rw [here, Function.update_self]
  · exact Function.update_of_ne here _ _

theorem createRefreshToken_leaves (lawful : env.jwt.Lawful) {access ms : String} (nonempty : access ≠ "")
    (owner : Option Json) (s : AccountStore) (tid : String) :
    let renewed := createRefreshToken env access owner (storeToken (TOKEN_NAMESPACE owner) access ms s)
    Leaves s renewed.2 tid (.minted owner renewed.1.isOk) := by
  intro renewed
  rcases createRefreshToken_cases lawful access owner (storeToken (TOKEN_NAMESPACE owner) access ms s) with
    ⟨e, refused⟩ | ⟨token, nonempty', made⟩
  · rw [show renewed = _ from refused]
    exact minted_leaves nonempty s tid
  · rw [show renewed = _ from made]
    exact renewed_leaves nonempty nonempty' s tid

theorem login_leaves (lawful : env.jwt.Lawful) (owner password : Option Json) (s : AccountStore) (tid : String) :
    Leaves s (perform env s (.login owner password)) tid (outcome env s (.login owner password)) := by
  simp only [perform, outcome, login]
  cases digest env password with
  | error e => rfl
  | ok hash =>
    dsimp only
    cases loginFind env owner hash s with
    | error e => rfl
    | ok =>
      dsimp only [createToken]
      rcases createAccessToken_cases lawful owner s with ⟨e, refused⟩ | ⟨access, nonempty, minted⟩
      · rw [refused]
        rfl
      · rw [minted]
        exact createRefreshToken_leaves lawful nonempty owner s tid

theorem refresh_leaves (lawful : env.jwt.Lawful) (refresh_token : String) (renew_refresh_token : Bool)
    (s : AccountStore) (tid : String) : Leaves s (perform env s (.refresh refresh_token renew_refresh_token)) tid
      (outcome env s (.refresh refresh_token renew_refresh_token)) := by
  simp only [perform, outcome, refresh]
  cases refreshDecode env refresh_token s.now with
  | error e => rfl
  | ok decoded =>
    obtain ⟨_, owner⟩ := decoded
    dsimp only
    rcases createAccessToken_cases lawful owner s with ⟨e, refused⟩ | ⟨access, nonempty, minted⟩
    · rw [refused]
      rfl
    · rw [minted]
      cases renew_refresh_token with
      | false => exact minted_leaves nonempty s tid
      | true =>
        have leaves := @createRefreshToken_leaves env lawful access env.access_token.ms nonempty owner s tid
        dsimp only at leaves ⊢
        cases made : createRefreshToken env access owner (storeToken (TOKEN_NAMESPACE owner) access
          env.access_token.ms s) with
        | mk result left =>
          rw [made] at leaves
          cases result <;> exact leaves

theorem perform_leaves (lawful : env.jwt.Lawful) (s : AccountStore) (call : Call) (tid : String) :
    Leaves s (perform env s call) tid (outcome env s call) := by
  cases call with
  | tick => rfl
  | registe id questionId body => exact (registe_frame id questionId body s).2 _ (token_ne_pool _)
  | login owner password => exact login_leaves lawful owner password s tid
  | refresh refresh_token renew_refresh_token => exact refresh_leaves lawful refresh_token renew_refresh_token s tid
  | changePassWord owner old_pwd new_pwd =>
    simp only [perform, outcome, changePassWord]
    cases done : changeUpdate env owner old_pwd new_pwd s with
    | error e => rfl
    | ok result =>
      obtain ⟨p, hash, -, updated⟩ := changeUpdate_ok done
      exact delToken_leaves owner _ tid (by rw [updated])
  | forgetPassword owner answer new_pwd =>
    simp only [perform, outcome, forgetPassword]
    cases forgetFind env owner answer s with
    | error e => rfl
    | ok =>
      cases done : forgetUpdate env owner new_pwd s with
      | error e => rfl
      | ok result =>
        obtain ⟨p, hash, -, updated⟩ := forgetUpdate_ok done
        exact delToken_leaves owner _ tid (by rw [updated])

/-! ### Runs -/

variable {a b : State} {call : Call}

theorem Leaves.token {t : AccountStore} {outcome : Outcome} (leaves : Leaves s t tid outcome) (token : Token s tid) :
    Token t tid := by
  cases outcome with
  | nothing => rwa [Token, show t.redis (tokenKey tid) = s.redis (tokenKey tid) from leaves]
  | minted owner renewed =>
    simp only [Leaves] at leaves
    split at leaves
    · exact .inr leaves
    · rwa [Token, leaves]
  | deleted owner replaced =>
    simp only [Leaves] at leaves
    split at leaves
    · exact .inl leaves
    · rwa [Token, leaves]

/-- Where no key of a token is set at the start, each one holds a token or nothing. -/
theorem run_token {start : AccountStore} {history : History} (lawful : env.jwt.Lawful)
    (blank : start.redis (tokenKey tid) = none) (run : Run env start history a) : Token a.store tid := by
  refine run.preserved (P := fun s => Token s.store tid) (.inl blank) ?_
  rintro s call _ token ⟨-, rfl⟩
  exact (perform_leaves lawful s.store call tid).token token

theorem createAccessToken_now (owner : Option Json) (s : AccountStore) :
    (createAccessToken env owner s).2.now = s.now := by
  unfold createAccessToken
  split <;> rfl

theorem createRefreshToken_now (access_token : String) (owner : Option Json) (s : AccountStore) :
    (createRefreshToken env access_token owner s).2.now = s.now := by
  unfold createRefreshToken
  split <;> rfl

theorem login_now (owner password : Option Json) (s : AccountStore) :
    (login env owner password s).2.now = s.now := by
  have first := @createAccessToken_now env owner s
  unfold login createToken
  split
  · rfl
  split
  · rfl
  split <;> rename_i made <;> rw [made] at first
  · exact first
  · exact (createRefreshToken_now _ _ _).trans first

theorem refresh_now (refresh_token : String) (renew : Bool) (s : AccountStore) :
    (refresh env refresh_token renew s).2.now = s.now := by
  unfold refresh
  split
  · rfl
  rename_i owner decoded
  have first := @createAccessToken_now env owner s
  split <;> rename_i made <;> rw [made] at first
  · exact first
  rename_i token t
  have second := @createRefreshToken_now env token owner t
  split
  · split <;> rename_i again <;> rw [again] at second <;> exact second.trans first
  · exact first

theorem perform_now (still : ∀ now, call ≠ .tick now) (s : AccountStore) : (perform env s call).now = s.now := by
  cases call with
  | tick now => exact (still now rfl).elim
  | registe id questionId body => exact (registe_frame id questionId body s).1
  | login owner password => exact login_now owner password s
  | refresh refresh_token renew => exact refresh_now refresh_token renew s
  | changePassWord owner old_pwd new_pwd =>
    unfold perform changePassWord
    dsimp only
    split
    · rfl
    · rename_i done
      obtain ⟨p, hash, -, rfl⟩ := changeUpdate_ok done
      rfl
  | forgetPassword owner answer new_pwd =>
    unfold perform forgetPassword
    dsimp only
    split
    · rfl
    split
    · rfl
    · rename_i done
      obtain ⟨p, hash, -, rfl⟩ := forgetUpdate_ok done
      rfl

theorem Leaves.reports_iff {outcome : Outcome} (leaves : Leaves s t tid outcome) (clock : t.now = s.now)
    (reports : (s.redis (tokenKey tid)).isSome ↔ Live lifetime tid ⟨s, live⟩) :
    ((t.redis (tokenKey tid)).isSome ↔ Live lifetime tid ⟨t, record s.now live outcome⟩) ↔
      Permits lifetime tid ⟨s, live⟩ outcome := by
  cases outcome with
  | nothing =>
    rw [show t.redis (tokenKey tid) = s.redis (tokenKey tid) from leaves]
    simpa [Permits, record, Live, clock] using reports
  | minted owner renewed =>
    simp only [Leaves] at leaves
    by_cases own : Json.template owner = tid
    · subst own
      rw [if_pos (.inl rfl)] at leaves
      obtain ⟨token, -, stored⟩ := leaves
      simp [stored, Live, record, clock, Permits]
    · have kept : Live lifetime tid ⟨t, record s.now live (.minted owner renewed)⟩ ↔ Live lifetime tid ⟨s, live⟩ := by
        simp [Live, record, clock, Function.update_of_ne (Ne.symm own)]
      rw [kept]
      simp only [Permits, own, false_or, false_implies, true_and] at leaves ⊢
      split at leaves <;> rename_i here
      · obtain ⟨token, -, stored⟩ := leaves
        simp [stored, here]
      · rw [leaves, reports]
        exact iff_of_true Iff.rfl fun renewed below => (here ⟨renewed, below⟩).elim
  | deleted owner replaced =>
    have kept : Live lifetime tid ⟨t, record s.now live (.deleted owner replaced)⟩ ↔
        Live lifetime tid ⟨s, live⟩ ∧ ¬ ∃ n, replaced = some n ∧ Names tid n := by
      cases replaced with
      | none => simp [Live, record, clock]
      | some n => by_cases named : Names tid n <;> simp [Live, record, clock, named]
    rw [kept, show t.redis (tokenKey tid) = _ from leaves]
    simp only [Permits, ← reports]
    split <;> rename_i own <;> simp [own]

theorem Step.reports_iff (lawful : env.jwt.Lawful) (taken : Step env a call b) (token : Token a.store tid)
    (reports : Reports lifetime tid a) : Reports lifetime tid b ↔ Exact env lifetime tid a call := by
  obtain ⟨forward, rfl⟩ := taken
  obtain ⟨s, live⟩ := a
  have leaves := perform_leaves lawful s call tid
  unfold Reports at reports ⊢
  rw [alive_iff token] at reports
  rw [alive_iff (leaves.token token)]
  cases call with
  | tick now =>
    show ((s.redis (tokenKey tid)).isSome ↔ Live lifetime tid ⟨{ s with now := now }, live⟩) ↔ _
    rw [reports]
    constructor
    · intro same minted recorded fresh
      obtain ⟨last, again, later⟩ := same.mp ⟨minted, recorded, fresh⟩
      obtain rfl := Option.some.inj (recorded.symm.trans again)
      exact later
    · intro lasts
      constructor
      · rintro ⟨minted, recorded, fresh⟩
        exact ⟨minted, recorded, lasts minted recorded fresh⟩
      · rintro ⟨minted, recorded, fresh⟩
        have forward : s.now ≤ now := forward
        dsimp only at fresh
        exact ⟨minted, recorded, by dsimp only; omega⟩
  | _ => exact leaves.reports_iff (perform_now (by simp) s) reports

/-- User 1 registers and logs in, and seven days pass. -/
theorem week_run : ∃ history, Run (sampleEnv sampleJwt) sampleStart history
      ⟨{ sampleLoggedIn with now := 604800 }, Function.update (fun _ => none) "[object Object]" (some 0)⟩ ∧
    labels history = [.registe "660a3b1e9c1f4e0012ab34cd" "660a3b1e9c1f4e0012ab34ce" sampleBody,
      .login (some sampleTid) (some (.str "123456789Sd!")), .tick 604800] := by
  have registers : Step (sampleEnv sampleJwt) (init sampleStart)
      (.registe "660a3b1e9c1f4e0012ab34cd" "660a3b1e9c1f4e0012ab34ce" sampleBody)
      ⟨sampleRegistered 0, fun _ => none⟩ := ⟨trivial, rfl⟩
  have enters : Step (sampleEnv sampleJwt) ⟨sampleRegistered 0, fun _ => none⟩
      (.login (some sampleTid) (some (.str "123456789Sd!")))
      ⟨sampleLoggedIn, Function.update (fun _ => none) "[object Object]" (some 0)⟩ := ⟨trivial, rfl⟩
  have passes : Step (sampleEnv sampleJwt)
      ⟨sampleLoggedIn, Function.update (fun _ => none) "[object Object]" (some 0)⟩ (.tick 604800)
      ⟨{ sampleLoggedIn with now := 604800 }, Function.update (fun _ => none) "[object Object]" (some 0)⟩ :=
    ⟨show (0 : Int) ≤ 604800 by decide, rfl⟩
  exact ⟨_, ((Transition.Run.nil.snoc registers).snoc enters).snoc passes, rfl⟩

end TacoBack.AliveSystem
