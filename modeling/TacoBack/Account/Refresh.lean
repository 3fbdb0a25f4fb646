import TacoBack.Account.Session

/-!
# Chains of refreshes

A session from its login on, refreshed with the token each call gives for the next. Anything may
happen to the store between two calls. A refresh signs the `tid` property of what the access token
was signed for, which is never the tid of the login.
-/

namespace TacoBack.AccountSystem

open AccountService

variable {env : AccountEnv}

structure RefreshCall where
  refresh_token : String
  renew_refresh_token : Bool
  store : AccountStore

def RefreshCall.perform (env : AccountEnv) (call : RefreshCall) : Except Failure Refreshed × AccountStore :=
  refresh env call.refresh_token call.renew_refresh_token call.store

/-- Calls of which each presents the refresh token of the result before. A call that throws is the
last. -/
inductive Chain (env : AccountEnv) : String → List RefreshCall → Prop where
  | nil {token} : Chain env token []
  | last {token renew store e} (failed : (refresh env token renew store).1 = .error e) :
      Chain env token [⟨token, renew, store⟩]
  | cons {token renew store refreshed calls} (done : (refresh env token renew store).1 = .ok refreshed)
      (next : Chain env refreshed.refresh_token calls) : Chain env token (⟨token, renew, store⟩ :: calls)

def MintedFor (env : AccountEnv) (tid : Option Json) (access_token : String) : Prop :=
  ∃ expire now, env.jwt.sign tid expire now = some access_token

/-- The call succeeds, unless its refresh token has expired, and what it returns is an access token for
`tid` that is stored for him. -/
def Keeps (env : AccountEnv) (tid : Option Json) (call : RefreshCall) : Prop :=
  match call.perform env with
  | (.error _, _) => env.jwt.exp call.refresh_token ≤ call.store.now
  | (.ok refreshed, after) => MintedFor env tid refreshed.access_token ∧
      Redis.get after.redis (TOKEN_NAMESPACE tid) = .ok (some refreshed.access_token)

/-- An access token for `claimed` cannot be refreshed: its payload has no properties, or the library
refuses to sign the `tid` property, or the new refresh token. -/
def Refused (env : AccountEnv) (claimed : Option Json) (renew : Bool) (now : Int) : Prop :=
  ∀ payload, claimed = some payload → payload ≠ .null →
    ∀ token, env.jwt.sign (payload.get "tid") env.access_token.expire now = some token →
      renew = true ∧ env.jwt.sign (refreshPayload token) env.refresh_token.expire now = none

/-- The text is a refresh token for an access token that was signed for `claimed`. -/
def Wraps (env : AccountEnv) (refresh_token : String) (claimed : Option Json) : Prop :=
  ∃ access_token, env.jwt.decode refresh_token = refreshPayload access_token ∧ MintedFor env claimed access_token

theorem sizeOf_property (value : Json) : sizeOf (value.get "tid") < sizeOf (some value) := by
  cases found : value.get "tid" with
  | none =>
    have positive : 0 < sizeOf value := by cases value <;> simp
    simp only [Option.none.sizeOf_spec, Option.some.sizeOf_spec]
    omega
  | some item =>
    have smaller := Json.get_sizeOf found
    simp only [Option.some.sizeOf_spec]
    omega

theorem MintedFor.unique (lawful : env.jwt.Lawful) {tid claimed : Option Json} {token : String}
    (minted : MintedFor env tid token) (minted' : MintedFor env claimed token) : tid = claimed := by
  obtain ⟨expire, now, signed⟩ := minted
  obtain ⟨expire', now', signed'⟩ := minted'
  rw [← lawful.decode_sign signed, ← lawful.decode_sign signed']

theorem Wraps.refuses (lawful : env.jwt.Lawful) {refresh_token : String} {claimed : Option Json}
    (wraps : Wraps env refresh_token claimed) (bare : ∀ payload, claimed = some payload → payload = .null) (now : Int) :
    ∃ e, refreshDecode env refresh_token now = .error e := by
  cases read : refreshDecode env refresh_token now with
  | error e => exact ⟨e, rfl⟩
  | ok decoded =>
    obtain ⟨access_token, outer, expire, clock, signed⟩ := wraps
    obtain ⟨_, payload, decodes, found, _, opened, present, _⟩ := refreshDecode_ok.mp read
    obtain rfl := Option.some.inj (outer.symm.trans decodes)
    obtain ⟨same⟩ := Json.str.inj (Option.some.inj found)
    exact (present (bare payload ((lawful.decode_sign signed).symm.trans opened))).elim

theorem Wraps.decode (lawful : env.jwt.Lawful) {refresh_token : String} {payload : Json}
    (wraps : Wraps env refresh_token (some payload)) (present : payload ≠ .null) (now : Int) :
    ∃ access_token, refreshDecode env refresh_token now = .ok (access_token, payload.get "tid") := by
  obtain ⟨access_token, outer, expire, clock, signed⟩ := wraps
  refine ⟨access_token, refreshDecode_ok.mpr ⟨_, payload, outer, rfl, ?_, lawful.decode_sign signed, present, rfl⟩⟩
  rw [lawful.verify_sign signed]
  split <;> simp

theorem refresh_decoded {refresh_token old : String} {tid : Option Json} {store : AccountStore}
    (read : refreshDecode env refresh_token store.now = .ok (old, tid)) (renew : Bool) :
    (refresh env refresh_token renew store).1 =
      match env.jwt.sign tid env.access_token.expire store.now with
      | none => .error .sign
      | some token =>
        if renew then
          match env.jwt.sign (refreshPayload token) env.refresh_token.expire store.now with
          | none => .error .sign
          | some renewed => .ok ⟨token, renewed⟩
        else .ok ⟨token, refresh_token⟩ := by
  rw [refresh, read]
  cases signed : env.jwt.sign tid env.access_token.expire store.now with
  | none => simp only [createAccessToken, signed]
  | some token =>
    simp only [createAccessToken, signed]
    split
    · cases signed' : env.jwt.sign (refreshPayload token) env.refresh_token.expire store.now with
      | none => simp only [createRefreshToken, storeToken, signed']
      | some renewed => simp only [createRefreshToken, storeToken, signed']
    · rfl

/-- A refresh fails in just these cases. Otherwise it mints for the `tid` property of the payload, and
what it returns wraps that token, or the old one. -/
theorem Wraps.refresh_cases (lawful : env.jwt.Lawful) {refresh_token : String} {claimed : Option Json}
    (wraps : Wraps env refresh_token claimed) (renew : Bool) (store : AccountStore) :
    (Refused env claimed renew store.now ∧ ∃ e, (refresh env refresh_token renew store).1 = .error e) ∨
    (¬ Refused env claimed renew store.now ∧ ∃ refreshed payload,
      (refresh env refresh_token renew store).1 = .ok refreshed ∧ claimed = some payload ∧
      MintedFor env (payload.get "tid") refreshed.access_token ∧
      (Wraps env refreshed.refresh_token claimed ∨ Wraps env refreshed.refresh_token (payload.get "tid"))) := by
  by_cases bare : ∀ payload, claimed = some payload → payload = .null
  · obtain ⟨e, read⟩ := wraps.refuses lawful bare store.now
    refine .inl ⟨fun payload same present => (present (bare payload same)).elim, e, ?_⟩
    rw [refresh, read]
  · obtain ⟨payload, different⟩ := not_forall.mp bare
    obtain ⟨rfl, present⟩ := Classical.not_imp.mp different
    obtain ⟨old, read⟩ := wraps.decode lawful present store.now
    have refused : Refused env (some payload) renew store.now ↔
        ∀ token, env.jwt.sign (payload.get "tid") env.access_token.expire store.now = some token →
          renew = true ∧ env.jwt.sign (refreshPayload token) env.refresh_token.expire store.now = none := by
      simp [Refused, present]
    rw [refresh_decoded read, refused]
    cases signed : env.jwt.sign (payload.get "tid") env.access_token.expire store.now with
    | none => exact .inl ⟨by simp, .sign, rfl⟩
    | some token =>
      have minted : MintedFor env (payload.get "tid") token := ⟨_, _, signed⟩
      cases renew with
      | false => exact .inr ⟨by simp, ⟨token, refresh_token⟩, payload, rfl, rfl, minted, .inl wraps⟩
      | true =>
        cases signed' : env.jwt.sign (refreshPayload token) env.refresh_token.expire store.now with
        | none => exact .inl ⟨by simp [signed'], .sign, by simp [signed']⟩
        | some renewed =>
          have again : Wraps env renewed (payload.get "tid") := ⟨token, lawful.decode_sign signed', minted⟩
          exact .inr ⟨by simp [signed'], ⟨token, renewed⟩, payload, by simp [signed'], rfl, minted, .inr again⟩

/-- Along a chain the access tokens are signed for ever smaller values. -/
theorem Wraps.next (lawful : env.jwt.Lawful) {refresh_token : String} {tid claimed : Option Json}
    (wraps : Wraps env refresh_token claimed) (below : sizeOf claimed ≤ sizeOf tid) {renew : Bool} {store : AccountStore}
    {refreshed : Refreshed} (done : (refresh env refresh_token renew store).1 = .ok refreshed) :
    ¬ MintedFor env tid refreshed.access_token ∧
      ∃ claimed', Wraps env refreshed.refresh_token claimed' ∧ sizeOf claimed' ≤ sizeOf tid := by
  rcases wraps.refresh_cases lawful renew store with ⟨_, e, failed⟩ | ⟨_, result, payload, succeeded, rfl, minted, again⟩
  · rw [failed] at done
    cases done
  · obtain rfl := Except.ok.inj (succeeded.symm.trans done)
    have smaller := sizeOf_property payload
    constructor
    · intro own
      obtain rfl := own.unique lawful minted
      omega
    · rcases again with same | digs
      · exact ⟨_, same, below⟩
      · exact ⟨_, digs, by omega⟩

theorem Chain.never_minted (lawful : env.jwt.Lawful) {refresh_token : String} {calls : List RefreshCall}
    (chain : Chain env refresh_token calls) {tid claimed : Option Json} (wraps : Wraps env refresh_token claimed)
    (below : sizeOf claimed ≤ sizeOf tid) :
    ∀ call ∈ calls, ∀ refreshed, (call.perform env).1 = .ok refreshed → ¬ MintedFor env tid refreshed.access_token := by
  induction chain generalizing claimed with
  | nil => exact fun call member => (List.not_mem_nil member).elim
  | last failed =>
    intro call member refreshed done
    obtain rfl := List.mem_singleton.mp member
    exact (wraps.next lawful below done).1
  | cons done rest ih =>
    obtain ⟨lost, claimed', wraps', below'⟩ := wraps.next lawful below done
    intro call member refreshed result
    rcases List.mem_cons.mp member with rfl | later
    · obtain rfl := Except.ok.inj (done.symm.trans result)
      exact lost
    · exact ih wraps' below' call later refreshed result

theorem login_wraps (lawful : env.jwt.Lawful) {tid password : Option Json} {s t : AccountStore}
    {access_token refresh_token : String}
    (entered : login env tid password s = (.ok ⟨access_token, .ok refresh_token⟩, t)) :
    Wraps env refresh_token tid := by
  unfold login at entered
  split at entered
  · cases entered
  split at entered
  · cases entered
  cases signed : env.jwt.sign tid env.access_token.expire s.now with
  | none =>
    simp only [createToken, createAccessToken, signed] at entered
    cases entered
  | some access =>
    cases signed' : env.jwt.sign (refreshPayload access) env.refresh_token.expire s.now with
    | none =>
      simp only [createToken, createAccessToken, signed, createRefreshToken, storeToken, signed'] at entered
      cases entered
    | some token =>
      simp only [createToken, createAccessToken, signed, createRefreshToken, storeToken, signed'] at entered
      cases entered
      exact ⟨access_token, lawful.decode_sign signed', _, _, signed⟩

/-- The first refresh after the login keeps the session only by failing, with an expired token. -/
theorem Wraps.keeps_iff (lawful : env.jwt.Lawful) {tid : Option Json} {call : RefreshCall}
    (wraps : Wraps env call.refresh_token tid) :
    Keeps env tid call ↔ env.jwt.exp call.refresh_token ≤ call.store.now ∧
      Refused env tid call.renew_refresh_token call.store.now := by
  have step := wraps.refresh_cases lawful call.renew_refresh_token call.store
  have lost := fun refreshed => @Wraps.next env lawful _ tid tid wraps (Nat.le_refl _) call.renew_refresh_token
    call.store refreshed
  unfold Keeps RefreshCall.perform
  rcases result : refresh env call.refresh_token call.renew_refresh_token call.store with ⟨answer, after⟩
  rw [result] at step lost
  rcases step with ⟨refused, e, rfl⟩ | ⟨proper, refreshed, _, rfl, _⟩
  · exact (and_iff_left refused).symm
  · exact iff_of_false (fun both => (lost refreshed rfl).1 both.1) (fun both => proper both.2)

/-- No refresh of a chain returns an access token for the tid of the login. So a chain keeps the
session in one case: its first call comes after the refresh token has expired, and cannot sign. -/
theorem chain_keeps_iff (lawful : env.jwt.Lawful) {tid password : Option Json} {s t : AccountStore}
    {access_token refresh_token : String} {calls : List RefreshCall}
    (entered : login env tid password s = (.ok ⟨access_token, .ok refresh_token⟩, t))
    (chain : Chain env refresh_token calls) :
    (∀ call ∈ calls, ∀ refreshed, (call.perform env).1 = .ok refreshed →
      ¬ MintedFor env tid refreshed.access_token) ∧
    ((∀ call ∈ calls, Keeps env tid call) ↔ ∀ first ∈ calls.head?,
      env.jwt.exp refresh_token ≤ first.store.now ∧ Refused env tid first.renew_refresh_token first.store.now) := by
  have wraps := login_wraps lawful entered
  refine ⟨chain.never_minted lawful wraps (Nat.le_refl _), ?_⟩
  cases chain with
  | nil => simp
  | @last _ renew store =>
    have first := @Wraps.keeps_iff env lawful tid ⟨refresh_token, renew, store⟩ wraps
    simpa using first
  | @cons _ renew store refreshed calls done next =>
    have first := @Wraps.keeps_iff env lawful tid ⟨refresh_token, renew, store⟩ wraps
    constructor
    · intro keeps call member
      obtain rfl := Option.some.inj member
      exact first.mp (keeps _ List.mem_cons_self)
    · intro expired
      have refused := (expired _ rfl).2
      rcases wraps.refresh_cases lawful renew store with ⟨_, e, failed⟩ | ⟨proper, _⟩
      · rw [failed] at done
        cases done
      · exact (proper refused).elim

/-- A session whose refresh succeeds, with a token for something else. -/
theorem chain_keeps_sample : ∃ s t, login (sampleEnv sampleJwt) (some nestedTid) (some (.str "123456789Sd")) s =
      (.ok ⟨"jwt.nested", .ok "jwt.refresh.nested"⟩, t) ∧
    Chain (sampleEnv sampleJwt) "jwt.refresh.nested" [⟨"jwt.refresh.nested", false, t⟩] ∧
    ¬ MintedFor (sampleEnv sampleJwt) (some nestedTid) "jwt.inner" ∧
    ¬ Keeps (sampleEnv sampleJwt) (some nestedTid) ⟨"jwt.refresh.nested", false, t⟩ := by
  obtain ⟨s, t, -, entered, clock, done⟩ := nested_login
  have chain : Chain (sampleEnv sampleJwt) "jwt.refresh.nested" [⟨"jwt.refresh.nested", false, t⟩] := .cons done .nil
  obtain ⟨never, exactly⟩ := chain_keeps_iff sampleJwt_lawful entered chain
  refine ⟨s, t, entered, chain, never _ List.mem_cons_self _ done, fun keeps => ?_⟩
  have expired : sampleJwt.exp "jwt.refresh.nested" ≤ t.now := (exactly.mp (by simpa using keeps) _ rfl).1
  rw [clock] at expired
  exact absurd expired (by decide)

/-- The first refresh after a login of user 1, in time, throws: it would sign `undefined`. -/
theorem refresh_loses_tid : ∃ s refresh_token call, login (sampleEnv sampleJwt) (some sampleTid)
      (some (.str "123456789Sd!")) (sampleRegistered 0) = (.ok ⟨"jwt.1", .ok refresh_token⟩, s) ∧
    Chain (sampleEnv sampleJwt) refresh_token [call] ∧ call.store.now < sampleJwt.exp refresh_token ∧
    refreshDecode (sampleEnv sampleJwt) refresh_token call.store.now = .ok ("jwt.1", none) ∧
    (call.perform (sampleEnv sampleJwt)).1 = .error .sign ∧ ¬ Keeps (sampleEnv sampleJwt) (some sampleTid) call := by
  have thrown : (refresh (sampleEnv sampleJwt) "jwt.refresh.1" false sampleLoggedIn).1 = .error .sign := rfl
  refine ⟨sampleLoggedIn, "jwt.refresh.1", ⟨"jwt.refresh.1", false, sampleLoggedIn⟩, login_sample, .last thrown,
    by decide, rfl, thrown, fun keeps => ?_⟩
  have expired : sampleJwt.exp "jwt.refresh.1" ≤ sampleLoggedIn.now := keeps
  exact absurd expired (by decide)

end TacoBack.AccountSystem
