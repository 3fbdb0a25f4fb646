import TacoBack.Account.System

/-!
# Calls one after the other

A call that is performed at once, whatever its outcome, is a run of the system in which no other call takes a
step. So is a sequence of calls, and what it hands out is issued or returned in that run.
-/

namespace TacoBack.AccountService

/-- What a caller is handed: the tid of a registration, or a new token. -/
inductive Given where
  | tid (tid : Json)
  | token (token : String)

inductive Call where
  | registe (id questionId : String) (body : Json)
  | login (tid password : Option Json)
  | refresh (refresh_token : String) (renew_refresh_token : Bool)
  | changePassWord (tid old_pwd new_pwd : Option Json)
  | forgetPassword (tid answer new_pwd : Option Json)
  | wait (now : Int)

def tidGiven : Except Failure Json → List Given
  | .ok tid => [.tid tid]
  | .error _ => []

def tokenGiven : Except Failure String → List Given
  | .ok token => [.token token]
  | .error _ => []

def tokensGiven : Except Failure Tokens → List Given
  | .ok tokens => .token tokens.access_token :: tokenGiven tokens.refresh_token
  | .error _ => []

/-- Without `renew_refresh_token` the caller gets back the refresh token he sent. -/
def refreshedGiven (renew_refresh_token : Bool) : Except Failure Refreshed → List Given
  | .ok tokens =>
    .token tokens.access_token :: if renew_refresh_token then [.token tokens.refresh_token] else []
  | .error _ => []

def perform (env : AccountEnv) : Call → AccountStore → List Given × AccountStore
  | .registe id questionId body, s =>
    let (result, t) := registe env id questionId body s
    (tidGiven result, t)
  | .login tid password, s =>
    let (result, t) := login env tid password s
    (tokensGiven result, t)
  | .refresh refresh_token renew_refresh_token, s =>
    let (result, t) := refresh env refresh_token renew_refresh_token s
    (refreshedGiven renew_refresh_token result, t)
  | .changePassWord tid old_pwd new_pwd, s => ([], (changePassWord env tid old_pwd new_pwd s).2)
  | .forgetPassword tid answer new_pwd, s => ([], (forgetPassword env tid answer new_pwd s).2)
  | .wait now, s => ([], { s with now := max s.now now })

def performAll (env : AccountEnv) : List Call → AccountStore → List Given × AccountStore
  | [], s => ([], s)
  | call :: calls, s =>
    let (first, t) := perform env call s
    let (rest, u) := performAll env calls t
    (first ++ rest, u)

end TacoBack.AccountService

namespace TacoBack.AccountSystem

open AccountService Transition

def Event.given : Event → List Given
  | .returned tid => [.tid tid]
  | .issued issue => [.token issue.token]
  | _ => []

variable {env : AccountEnv}

/-- A run between two states that hands out at least what is given. -/
def Reaches (env : AccountEnv) (s t : State) (given : List Given) : Prop :=
  ∃ history, Transition.Run (Step env) s history t ∧ List.Sublist given ((labels history).flatMap Event.given)

theorem Reaches.refl (s : State) : Reaches env s s [] := ⟨[], .nil, List.nil_sublist _⟩

theorem Reaches.trans {s t u : State} {given more : List Given} (first : Reaches env s t given)
    (second : Reaches env t u more) : Reaches env s u (given ++ more) := by
  obtain ⟨before, run, early⟩ := first
  obtain ⟨after, onward, late⟩ := second
  refine ⟨_, run.append onward, ?_⟩
  rw [labels_append, List.flatMap_append]
  exact early.append late

theorem Reaches.single {s t : State} {event : Event} (taken : Step env s event t) : Reaches env s t event.given :=
  ⟨_, .single taken, by simp⟩

theorem Reaches.fewer {s t : State} {given fewer : List Given} (reaches : Reaches env s t given)
    (less : List.Sublist fewer given) : Reaches env s t fewer := by
  obtain ⟨history, run, out⟩ := reaches
  exact ⟨history, run, less.trans out⟩

theorem Reaches.step {s t u : State} {event : Event} {given : List Given} (taken : Step env s event t)
    (onward : Reaches env t u given) : Reaches env s u given :=
  ((Reaches.single taken).trans onward).fewer (List.sublist_append_right _ _)

/-! ### What is left of a call -/

/-- The task goes on to the end of its call, behind whatever waits. -/
def Finishes (env : AccountEnv) (s : AccountStore) (task : Task) (t : AccountStore) (given : List Given) : Prop :=
  ∀ waiting, Reaches env ⟨s, waiting ++ [task]⟩ ⟨t, waiting⟩ given

section Tasks

variable {s t u : AccountStore} {task next : Task} {event : Event} {given : List Given}

theorem Effect.taken {rest : List Task} (effect : Effect env s task event t rest) (waiting : List Task) :
    Step env ⟨s, waiting ++ [task]⟩ event ⟨t, waiting ++ rest⟩ := by
  have taken := @Step.run env ⟨s, waiting ++ [task]⟩ waiting task [] event t rest rfl effect
  rwa [List.append_nil] at taken

theorem Finishes.last (effect : Effect env s task event t []) : Finishes env s task t event.given := by
  intro waiting
  have taken := effect.taken waiting
  rw [List.append_nil] at taken
  exact .single taken

theorem Finishes.onward (effect : Effect env s task event t [next]) (rest : Finishes env t next u given) :
    Finishes env s task u given :=
  fun waiting => .step (effect.taken waiting) (rest waiting)

theorem Finishes.refused {kind : Kind} {tid : Option Json} {origin : Origin} {renew : Bool}
    (unsigned : env.jwt.sign (kind.payload tid) (kind.expire env).expire s.now = none) :
    Finishes env s (.sign kind tid origin renew) s [] :=
  .last (.refuse unsigned)

/-- A token is signed, set and marked. -/
theorem Finishes.token {kind : Kind} {tid : Option Json} {origin : Origin} {token : String}
    (signed : env.jwt.sign (kind.payload tid) (kind.expire env).expire s.now = some token) :
    Finishes env s (.sign kind tid origin false) (storeToken (kind.key tid) token (kind.expire env).ms s)
      [.token token] := by
  intro waiting
  have stored : Finishes env s (.set ⟨kind, tid, origin, token⟩ false)
      (storeToken (kind.key tid) token (kind.expire env).ms s) [] :=
    .onward .set (.last (@Effect.setnx env _ ⟨kind, tid, origin, token⟩ false))
  exact (Reaches.single (Effect.taken (.sign signed) waiting)).trans (stored waiting)

/-- A token is signed, set and marked, and a refresh token for it follows. -/
theorem Finishes.renewed {kind : Kind} {tid : Option Json} {origin : Origin} {token : String}
    (signed : env.jwt.sign (kind.payload tid) (kind.expire env).expire s.now = some token)
    (rest : Finishes env (storeToken (kind.key tid) token (kind.expire env).ms s)
      (.sign (.refresh token) tid origin false) t given) :
    Finishes env s (.sign kind tid origin true) t (.token token :: given) := by
  intro waiting
  have stored : Finishes env s (.set ⟨kind, tid, origin, token⟩ true) t given := .onward .set (.onward .setnx rest)
  exact (Reaches.single (Effect.taken (.sign signed) waiting)).trans (stored waiting)

theorem createRefreshToken_finishes {access_token : String} {tid : Option Json} {origin : Origin} :
    Finishes env s (.sign (.refresh access_token) tid origin false) (createRefreshToken env access_token tid s).2
      (tokenGiven (createRefreshToken env access_token tid s).1) := by
  unfold createRefreshToken
  split
  · rename_i unsigned
    exact @Finishes.refused env s (.refresh access_token) tid origin false unsigned
  · rename_i token signed
    exact @Finishes.token env s (.refresh access_token) tid origin token signed

end Tasks

/-! ### The calls -/

theorem registe_reaches (id questionId : String) (body : Json) (s : State) :
    Reaches env s ⟨(registe env id questionId body s.store).2, s.tasks⟩
      (tidGiven (registe env id questionId body s.store).1) := by
  unfold registe
  split
  · exact .refl s
  rename_i tid hash read
  refine .step (.registe read) ((?_ : Finishes env s.store (.registe tid hash body .find) _ _) s.tasks)
  split
  · rename_i thrown
    exact .last (.known thrown)
  rename_i new
  refine .onward (.find new) ?_
  split
  · rename_i thrown
    exact .last (.invalid thrown)
  rename_i inserted done
  refine .onward (.insert done) (.onward (.save questionId) ?_)
  dsimp only
  split
  · exact .last .fail
  · rename_i counted raised
    exact .last (.incrby raised)

theorem login_reaches (tid password : Option Json) (s : State) :
    Reaches env s ⟨(login env tid password s.store).2, s.tasks⟩ (tokensGiven (login env tid password s.store).1) := by
  unfold login
  split
  · exact .refl s
  rename_i hash hashed
  split
  · exact .refl s
  rename_i found
  refine .step (.login hashed found) ((?_ : Finishes env s.store (.sign .access tid (.login tid) true) _ _) s.tasks)
  unfold createToken createAccessToken
  cases signed : env.jwt.sign tid env.access_token.expire s.store.now with
  | none => exact @Finishes.refused env s.store .access tid _ true signed
  | some token => exact @Finishes.renewed env s.store _ _ .access tid _ token signed createRefreshToken_finishes

theorem refresh_reaches (refresh_token : String) (renew : Bool) (s : State) :
    Reaches env s ⟨(refresh env refresh_token renew s.store).2, s.tasks⟩
      (refreshedGiven renew (refresh env refresh_token renew s.store).1) := by
  unfold refresh
  split
  · exact .refl s
  rename_i access_token tid read
  refine .step (@Step.refresh env s refresh_token renew access_token tid read)
    ((?_ : Finishes env s.store (.sign .access tid (.refresh access_token) renew) _ _) s.tasks)
  unfold createAccessToken
  cases signed : env.jwt.sign tid env.access_token.expire s.store.now with
  | none => exact @Finishes.refused env s.store .access tid _ renew signed
  | some token =>
    cases renew with
    | false => exact @Finishes.token env s.store .access tid _ token signed
    | true =>
      let stored := storeToken (TOKEN_NAMESPACE tid) token env.access_token.ms s.store
      have finishes : Finishes env s.store (.sign .access tid (.refresh access_token) true)
          (createRefreshToken env token tid stored).2
          (.token token :: tokenGiven (createRefreshToken env token tid stored).1) :=
        @Finishes.renewed env s.store _ _ .access tid _ token signed createRefreshToken_finishes
      simp only [if_true]
      split
      · rename_i e u failed
        rw [failed] at finishes
        exact fun waiting => (finishes waiting).fewer (List.nil_sublist _)
      · rename_i renewed u made
        rw [made] at finishes
        exact finishes

theorem changePassWord_reaches (tid old_pwd new_pwd : Option Json) (s : State) :
    Reaches env s ⟨(changePassWord env tid old_pwd new_pwd s.store).2, s.tasks⟩ [] := by
  unfold changePassWord
  split
  · exact .refl s
  · rename_i found updated done
    exact .step (.changePassWord done) (Finishes.last .del s.tasks)

theorem forgetPassword_reaches (tid answer new_pwd : Option Json) (s : State) :
    Reaches env s ⟨(forgetPassword env tid answer new_pwd s.store).2, s.tasks⟩ [] := by
  unfold forgetPassword
  split
  · exact .refl s
  rename_i accepted
  refine .step (@Step.forgetPassword env s tid answer new_pwd accepted)
    ((?_ : Finishes env s.store (.forgetPassword tid new_pwd) _ _) s.tasks)
  split
  · rename_i thrown
    exact .last (.throw thrown)
  · rename_i found updated done
    exact .onward (.forgetPassword done) (.last .del)

theorem perform_reaches (call : Call) (s : State) :
    Reaches env s ⟨(perform env call s.store).2, s.tasks⟩ (perform env call s.store).1 := by
  cases call with
  | registe id questionId body => exact registe_reaches id questionId body s
  | login tid password => exact login_reaches tid password s
  | refresh refresh_token renew => exact refresh_reaches refresh_token renew s
  | changePassWord tid old_pwd new_pwd => exact changePassWord_reaches tid old_pwd new_pwd s
  | forgetPassword tid answer new_pwd => exact forgetPassword_reaches tid answer new_pwd s
  | wait now => exact .single (.tick (le_max_left _ _))

theorem performAll_reaches (calls : List Call) (s : State) :
    Reaches env s ⟨(performAll env calls s.store).2, s.tasks⟩ (performAll env calls s.store).1 := by
  induction calls generalizing s with
  | nil => exact .refl s
  | cons call calls ih => exact (perform_reaches call s).trans (ih ⟨(perform env call s.store).2, s.tasks⟩)

/-- Any calls, performed one after the other while others wait, are a run of the system to the same store. What they
hand out is issued or returned in that run, in the same order. -/
theorem performAll_run (calls : List Call) (s : State) :
    ∃ history, Transition.Run (Step env) s history ⟨(performAll env calls s.store).2, s.tasks⟩ ∧
      List.Sublist (performAll env calls s.store).1 ((labels history).flatMap Event.given) :=
  performAll_reaches calls s

end TacoBack.AccountSystem
