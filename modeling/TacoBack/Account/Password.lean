import TacoBack.Account.Effects
import TacoBack.Lib.Transition

/-!
# The password of an account

The calls that set or check passwords, one after the other, beside a record of the password last
given for each tid.
-/

namespace TacoBack.PasswordSystem

open AccountService Transition

/-- The calls, with the arguments the password record depends on. -/
inductive Call where
  | tick (now : Int)
  | registe (id questionId : String) (body : Json) (password : String)
  | login (tid : Json) (password : String)
  | changePassWord (tid : Json) (old_pwd new_pwd : String)
  | forgetPassword (tid : Json) (answer : Option Json) (new_pwd : String)

structure State where
  store : AccountStore
  given : Json → Option String

def init (now : Int) : State where
  store := { now := now, redis := fun _ => none, users := [], questions := [] }
  given := fun _ => none

variable (env : AccountEnv)

def registered (result : Except Failure Json) (password : String) (given : Json → Option String) :
    Json → Option String :=
  match result with
  | .ok tid => Function.update given tid (some password)
  | .error _ => given

/-- The record after a `changePassWord`: the new password counts if the old one was right. -/
def changed (tid : Json) (old_pwd new_pwd : String) (given : Json → Option String) : Json → Option String :=
  if given tid = some old_pwd then Function.update given tid (some new_pwd) else given

def reset (result : Except Failure Bool) (tid : Json) (new_pwd : String) (given : Json → Option String) :
    Json → Option String :=
  match result with
  | .ok true => Function.update given tid (some new_pwd)
  | _ => given

inductive Step (s : State) : Call → State → Prop where
  | tick {now} : Step s (.tick now) { s with store := { s.store with now := now } }
  | registe {id questionId body password result store} (told : body.get "password" = some (.str password))
      (done : AccountService.registe env id questionId body s.store = (result, store)) :
      Step s (.registe id questionId body password)
        { store := store, given := registered result password s.given }
  | login {tid password result store}
      (done : AccountService.login env (some tid) (some (.str password)) s.store = (result, store)) :
      Step s (.login tid password) { s with store := store }
  | changePassWord {tid old_pwd new_pwd result store}
      (done : AccountService.changePassWord env (some tid) (some (.str old_pwd)) (some (.str new_pwd)) s.store =
        (result, store)) :
      Step s (.changePassWord tid old_pwd new_pwd)
        { store := store, given := changed tid old_pwd new_pwd s.given }
  | forgetPassword {tid answer new_pwd result store}
      (done : AccountService.forgetPassword env (some tid) answer (some (.str new_pwd)) s.store = (result, store)) :
      Step s (.forgetPassword tid answer new_pwd)
        { store := store, given := reset result tid new_pwd s.given }

abbrev History := List (State × Call)

abbrev Run (now : Int) : History → State → Prop := Transition.Run (Step env) (init now)

/-- `login` succeeds with the recorded password and no other. -/
def Agrees (s : State) : Prop :=
  ∀ tid password, tid.isContainer = false →
    ((∃ tokens, (AccountService.login env (some tid) (some (.str password)) s.store).1 = .ok tokens) ↔
      s.given tid = some password)

/-- The token library signs every tid that has a password. -/
def Signed (s : State) : Prop :=
  ∀ tid password, s.given tid = some password →
    (env.jwt.sign (some tid) env.access_token.expire s.store.now).isSome

/-- The tid of a password change or reset is a plain value, and one that a registration brings is the
one it is given. -/
def Plain (s : State) : Call → Prop
  | .registe _ _ body _ => ∀ v, pool s.store = some v → Numbered (v + 1) body
  | .changePassWord tid _ _ | .forgetPassword tid _ _ => tid.isContainer = false
  | _ => True

/-- A `changePassWord` takes the password and its stored digest for the same thing, or brings in the
password that works already. A `forgetPassword` does not send the text `{}` for an unknown tid. -/
def Faithful (s : State) : Call → Prop
  | .changePassWord tid old_pwd new_pwd =>
    ∀ user ∈ s.store.users, user.tid = some tid →
      (user.password = some (env.sha256 old_pwd) ↔ user.password = some old_pwd) ∨
        user.password = some (env.sha256 new_pwd)
  | .forgetPassword tid answer _ => answer = some (.str "{}") → ∃ user ∈ s.store.users, user.tid = some tid
  | _ => True

/-! ### Sound collections -/

/-- The tids up to the pool are handed out once each, and questions belong to users. -/
structure Clean (s : AccountStore) : Prop where
  pool : ∃ v, pool s = some v ∧ ∀ user ∈ s.users, ∃ n, user.tid = some (.num n) ∧ n ≤ v
  distinct : (s.users.map Users.tid).Nodup
  asked : ∀ info ∈ s.questions, some info.uid ∈ s.users.map Users.tid

variable {env} {s s' : State} {store t : AccountStore}

theorem Clean.numeric (clean : Clean store) : Numeric store.users := by
  obtain ⟨v, -, bounded⟩ := clean.pool
  intro user member
  obtain ⟨n, same, -⟩ := bounded user member
  exact ⟨n, same⟩

theorem Clean.untouched (clean : Clean store) (untouched : Untouched store t) : Clean t := by
  obtain ⟨pool, distinct, asked⟩ := clean
  exact ⟨by rwa [untouched.pool, untouched.users], by rwa [untouched.users],
    by rwa [untouched.questions, untouched.users]⟩

theorem Clean.replaced {p : Users → Bool} {hash : String} (clean : Clean store)
    (users : t.users = Mongo.updateOne p (setPassword hash) store.users) (questions : t.questions = store.questions)
    (counted : AccountService.pool t = AccountService.pool store) : Clean t := by
  have tids : t.users.map Users.tid = store.users.map Users.tid := by
    rw [users]
    exact Mongo.updateOne_map (by intro _; rfl) store.users
  obtain ⟨⟨v, counts, bounded⟩, distinct, asked⟩ := clean
  refine ⟨⟨v, counted.trans counts, ?_⟩, by rwa [tids], by rwa [questions, tids]⟩
  intro user member
  have listed : user.tid ∈ store.users.map Users.tid := tids ▸ List.mem_map_of_mem member
  obtain ⟨old, stored, same⟩ := List.mem_map.mp listed
  obtain ⟨n, number, below⟩ := bounded old stored
  exact ⟨n, same.symm.trans number, below⟩

/-- The next number belongs to no user. -/
theorem fresh_tid {v : Int} {users : List Users} (bounded : ∀ user ∈ users, ∃ n, user.tid = some (.num n) ∧ n ≤ v) :
    ∀ user ∈ users, user.tid ≠ some (.num (v + 1)) := by
  intro user member same
  obtain ⟨n, number, below⟩ := bounded user member
  obtain rfl := Json.num.inj (Option.some.inj (number.symm.trans same))
  omega

theorem Clean.added {v : Int} {user : Users} {question : Questions} (clean : Clean store)
    (counts : AccountService.pool store = some v) (tid : user.tid = some (.num (v + 1)))
    (users : t.users = store.users ++ [user]) (uid : question.uid = .num (v + 1))
    (questions : t.questions = store.questions ++ [question]) (counted : AccountService.pool t = some (v + 1)) :
    Clean t := by
  obtain ⟨⟨w, same, bounded⟩, distinct, asked⟩ := clean
  obtain rfl : v = w := Option.some.inj (counts.symm.trans same)
  refine ⟨⟨v + 1, counted, ?_⟩, ?_, ?_⟩
  · rw [users]
    intro other member
    rcases List.mem_append.mp member with old | new
    · obtain ⟨n, number, below⟩ := bounded other old
      exact ⟨n, number, by omega⟩
    · obtain rfl := List.mem_singleton.mp new
      exact ⟨v + 1, tid, le_refl _⟩
  · rw [users, List.map_append, List.nodup_append]
    refine ⟨distinct, by simp, ?_⟩
    simp only [List.map_cons, List.map_nil, List.mem_singleton, List.mem_map]
    rintro _ ⟨old, stored, rfl⟩ _ rfl
    exact tid ▸ fresh_tid bounded old stored
  · rw [questions, users]
    intro info member
    rcases List.mem_append.mp member with old | new
    · have belongs := asked info old
      simp [belongs]
    · obtain rfl := List.mem_singleton.mp new
      simp [uid, tid]

theorem Clean.unasked {tid : Json} (clean : Clean store) (unknown : ∀ user ∈ store.users, user.tid ≠ some tid) :
    store.questions.find? (fun info => Mongo.equals tid (some info.uid)) = none := by
  rw [List.find?_eq_none]
  intro info member hit
  obtain ⟨user, stored, owner⟩ := List.mem_map.mp (clean.asked info member)
  rw [← owner, clean.numeric.equals stored, decide_eq_true_eq] at hit
  exact unknown user stored hit

theorem Step.clean {call : Call} (lawful : env.driver.Lawful) (taken : Step env s call s') (plain : Plain s call)
    (clean : Clean s.store) : Clean s'.store := by
  cases taken with
  | tick => exact ⟨clean.pool, clean.distinct, clean.asked⟩
  | @registe id questionId body password result store told done =>
    obtain ⟨v, counts, -⟩ := clean.pool
    rcases registe_cases env counts (plain v counts) told with
      ⟨e, failed⟩ | ⟨user, question, t, added, tid, -, users, uid, questions, counted⟩
    · rw [failed] at done
      obtain ⟨-, rfl⟩ := Prod.mk.inj done
      exact clean
    · rw [added] at done
      obtain ⟨-, rfl⟩ := Prod.mk.inj done
      exact clean.added counts tid users uid questions counted
  | @login tid password result store done =>
    have untouched := @login_untouched env (some tid) (some (.str password)) s.store
    rw [done] at untouched
    exact clean.untouched untouched
  | @changePassWord tid old_pwd new_pwd result store done =>
    obtain rfl : store = _ := (congrArg Prod.snd done).symm
    rw [changePassWord_eq lawful (lawful.denotes plain)]
    exact clean.replaced rfl rfl (delToken_untouched _ _).pool
  | @forgetPassword tid answer new_pwd result store done =>
    obtain rfl : store = _ := (congrArg Prod.snd done).symm
    rw [forgetPassword_eq (lawful.denotes plain)]
    split
    · exact clean.replaced rfl rfl (delToken_untouched _ _).pool
    · exact clean

/-- Every registered tid has a password in the record, and plain values alone do. -/
structure Known (s : State) : Prop where
  registered : ∀ user ∈ s.store.users, ∀ tid, user.tid = some tid → (s.given tid).isSome
  plain : ∀ tid, (s.given tid).isSome → tid.isContainer = false

theorem isSome_update {given : Json → Option String} {tid owner : Json} {password : String} :
    (Function.update given tid (some password) owner).isSome ↔ owner = tid ∨ (given owner).isSome := by
  rw [Function.update_apply]
  split <;> simp_all

theorem Known.kept {t : State} (known : Known s)
    (users : t.store.users.map Users.tid = s.store.users.map Users.tid)
    (grows : ∀ tid, (s.given tid).isSome → (t.given tid).isSome)
    (plain : ∀ tid, (t.given tid).isSome → tid.isContainer = false) : Known t := by
  refine ⟨fun user member tid owner => ?_, plain⟩
  have listed : user.tid ∈ s.store.users.map Users.tid := users ▸ List.mem_map_of_mem member
  obtain ⟨old, stored, same⟩ := List.mem_map.mp listed
  exact grows tid (known.registered old stored tid (same.trans owner))

theorem changed_isSome {tid owner : Json} {old_pwd new_pwd : String} {given : Json → Option String} :
    (changed tid old_pwd new_pwd given owner).isSome ↔ (given owner).isSome := by
  unfold changed
  split
  · rename_i right
    rw [isSome_update, or_iff_right_iff_imp]
    rintro rfl
    exact Option.isSome_iff_exists.mpr ⟨old_pwd, right⟩
  · rfl

theorem Step.known {call : Call} (taken : Step env s call s') (plain : Plain s call) (clean : Clean s.store)
    (known : Known s) : Known s' := by
  cases taken with
  | tick => exact ⟨known.registered, known.plain⟩
  | @registe id questionId body password result store told done =>
    obtain ⟨v, counts, -⟩ := clean.pool
    rcases registe_cases env counts (plain v counts) told with
      ⟨e, failed⟩ | ⟨user, -, t, added, number, -, users, -, -, -⟩
    · obtain ⟨rfl, rfl⟩ := Prod.mk.inj (failed.symm.trans done)
      exact known
    · obtain ⟨rfl, rfl⟩ := Prod.mk.inj (added.symm.trans done)
      refine ⟨fun other member tid owner => isSome_update.mpr ?_, fun tid held => ?_⟩
      · dsimp only at member
        rw [users] at member
        rcases List.mem_append.mp member with old | new
        · exact .inr (known.registered other old tid owner)
        · obtain rfl := List.mem_singleton.mp new
          exact .inl (Option.some.inj (owner.symm.trans number))
      · rcases isSome_update.mp held with rfl | before
        · rfl
        · exact known.plain tid before
  | @login tid password result store done =>
    have untouched := @login_untouched env (some tid) (some (.str password)) s.store
    rw [done] at untouched
    exact known.kept (congrArg _ untouched.users) (fun _ => id) known.plain
  | @changePassWord tid old_pwd new_pwd result store done =>
    obtain rfl : store = _ := (congrArg Prod.snd done).symm
    exact known.kept (changePassWord_keeps _ _ _ _).1 (fun _ => changed_isSome.mpr) fun owner held =>
      known.plain owner (changed_isSome.mp held)
  | @forgetPassword tid answer new_pwd result store done =>
    obtain rfl : store = _ := (congrArg Prod.snd done).symm
    refine known.kept (forgetPassword_keeps _ _ _ _).1 (fun owner held => ?_) fun owner held => ?_ <;>
      dsimp only [reset] at * <;> split at *
    · exact isSome_update.mpr (.inr held)
    · exact held
    · rcases isSome_update.mp held with rfl | before
      · exact plain
      · exact known.plain owner before
    · exact known.plain owner held

abbrev PlainStep (env : AccountEnv) (s : State) (call : Call) (s' : State) : Prop :=
  Step env s call s' ∧ Plain s call

theorem run_clean {now : Int} {history : History} (lawful : env.driver.Lawful)
    (run : Transition.Run (PlainStep env) (init now) history s) : Clean s.store ∧ Known s := by
  refine run.preserved (P := fun s => Clean s.store ∧ Known s) ?_ fun _ _ _ held taken =>
    ⟨taken.1.clean lawful taken.2 held.1, taken.1.known taken.2 held.1 held.2⟩
  exact ⟨⟨⟨0, Redis.counter_empty, by simp [init]⟩, by simp [init], by simp [init]⟩,
    ⟨by simp [init], by simp [init]⟩⟩

/-! ### The record -/

def Recorded (env : AccountEnv) (s : State) : Prop :=
  ∀ tid password, Works env s.store.users tid password ↔ s.given tid = some password

theorem agrees_iff (lawful : env.driver.Lawful) (clean : Clean s.store) (known : Known s) :
    Agrees env s ↔ Signed env s ∧ Recorded env s := by
  have signs : Agrees env s → Signed env s := by
    intro agrees tid password given
    have plain := known.plain tid (Option.isSome_iff_exists.mpr ⟨password, given⟩)
    exact ((login_ok lawful (lawful.denotes plain)).mp ((agrees tid password plain).mpr given)).2
  constructor
  · refine fun agrees => ⟨signs agrees, fun tid password => ⟨fun works => ?_, fun given => ?_⟩⟩
    · -- the user has some password in the record, so the library signs his tid
      obtain ⟨user, member, owner, -⟩ := (clean.numeric.works tid password).mp works
      have held := known.registered user member tid owner
      obtain ⟨other, given⟩ := Option.isSome_iff_exists.mp held
      have plain := known.plain tid held
      exact (agrees tid password plain).mp
        ((login_ok lawful (lawful.denotes plain)).mpr ⟨works, signs agrees tid other given⟩)
    · have plain := known.plain tid (Option.isSome_iff_exists.mpr ⟨password, given⟩)
      exact ((login_ok lawful (lawful.denotes plain)).mp ((agrees tid password plain).mpr given)).1
  · rintro ⟨signed, recorded⟩ tid password plain
    rw [login_ok lawful (lawful.denotes plain), recorded tid password]
    exact and_iff_left_of_imp (signed tid password)

/-- With the users as they were, the record has to stay as well. -/
theorem recorded_kept_iff {t : State} (recorded : Recorded env s) (untouched : t.store.users = s.store.users) :
    Recorded env t ↔ t.given = s.given := by
  constructor
  · intro held
    refine funext fun tid => Option.ext fun password => ?_
    have before := recorded tid password
    rw [← untouched] at before
    exact (held tid password).symm.trans before
  · intro given tid password
    rw [untouched, given]
    exact recorded tid password

theorem recorded_of_untouched {t : State} (recorded : Recorded env s) (untouched : t.store.users = s.store.users)
    (given : t.given = s.given) : Recorded env t :=
  (recorded_kept_iff recorded untouched).mpr given

theorem Recorded.registered (injective : Function.Injective env.sha256) {v : Int} {user : Users} {password : String}
    (recorded : Recorded env s) (clean : Clean s.store)
    (bounded : ∀ other ∈ s.store.users, ∃ n, other.tid = some (.num n) ∧ n ≤ v)
    (number : user.tid = some (.num (v + 1))) (stored : user.password = some (env.sha256 password))
    (users : t.users = s.store.users ++ [user]) :
    Recorded env { store := t, given := Function.update s.given (.num (v + 1)) (some password) } := by
  intro tid text
  simp only [users, works_added injective stored, number, Mongo.equals_num, decide_eq_true_eq]
  by_cases new : tid = .num (v + 1)
  · subst new
    have unused : ¬ Works env s.store.users (.num (v + 1)) text := by
      rw [clean.numeric.works]
      rintro ⟨other, member, owner, -⟩
      exact fresh_tid bounded other member owner
    simp [unused, eq_comm]
  · simp [new, Ne.symm new, recorded tid text]

theorem recorded_replaced (injective : Function.Injective env.sha256) {t : State} {p : Users → Bool} {user : Users}
    {tid : Json} {new_pwd : String} (clean : Clean s.store) (recorded : Recorded env s)
    (found : s.store.users.find? p = some user) (owner : user.tid = some tid)
    (users : t.store.users = Mongo.updateOne p (setPassword (env.sha256 new_pwd)) s.store.users)
    (others : ∀ other, other ≠ tid → t.given other = s.given other) :
    Recorded env t ↔ t.given tid = some new_pwd := by
  have works := fun other text =>
    @works_replaced env injective _ p user new_pwd text other clean.numeric clean.distinct found
  constructor
  · intro held
    rw [← held, users, works]
    exact .inl ⟨owner, rfl⟩
  · intro given other text
    rw [users, works, owner, Option.some.injEq]
    by_cases same : tid = other
    · subst same
      simp [given, eq_comm]
    · simp [same, others other (Ne.symm same), recorded other text]

theorem faithful_change_iff {tid : Json} {old_pwd new_pwd : String} {user : Users} (clean : Clean s.store)
    (recorded : Recorded env s) (member : user ∈ s.store.users) (owner : user.tid = some tid) :
    Faithful env s (.changePassWord tid old_pwd new_pwd) ↔
      (s.given tid = some old_pwd ↔ user.password = some old_pwd) ∨ s.given tid = some new_pwd := by
  rw [← recorded tid old_pwd, ← recorded tid new_pwd, works_iff clean.numeric clean.distinct member owner,
    works_iff clean.numeric clean.distinct member owner]
  constructor
  · exact fun faithful => faithful user member owner
  · intro faithful other present same
    obtain rfl := List.inj_on_of_nodup_map clean.distinct member present (owner.trans same.symm)
    exact faithful

theorem change_recorded_iff (injective : Function.Injective env.sha256) {tid : Json} {old_pwd new_pwd : String}
    (clean : Clean s.store) (recorded : Recorded env s)
    (users : t.users = Mongo.updateOne (fun user => Mongo.equals tid user.tid && decide (user.password = some old_pwd))
      (setPassword (env.sha256 new_pwd)) s.store.users) :
    Recorded env { store := t, given := changed tid old_pwd new_pwd s.given } ↔
      Faithful env s (.changePassWord tid old_pwd new_pwd) := by
  cases found : s.store.users.find? fun user => Mongo.equals tid user.tid && decide (user.password = some old_pwd) with
  | some user =>
    have member := List.mem_of_find?_eq_some found
    have hit := List.find?_some found
    simp only [Bool.and_eq_true, clean.numeric.equals member, decide_eq_true_eq] at hit
    obtain ⟨owner, works⟩ := hit
    rw [faithful_change_iff clean recorded member owner, recorded_replaced injective clean recorded found owner users]
    · dsimp only [changed]
      split <;> rename_i right <;> simp [right, works]
    · intro other different
      dsimp only [changed]
      split
      · exact Function.update_of_ne different _ _
      · rfl
  | none =>
    rw [recorded_kept_iff recorded (users.trans (Mongo.updateOne_of_none found))]
    dsimp only [changed]
    by_cases known : ∃ user ∈ s.store.users, user.tid = some tid
    · obtain ⟨user, member, owner⟩ := known
      have missed : user.password ≠ some old_pwd := by
        simpa [owner] using List.find?_eq_none.mp found user member
      rw [faithful_change_iff clean recorded member owner]
      split <;> rename_i right
      · simp [right, missed, eq_comm]
      · simp [right, missed]
    · have wrong : s.given tid ≠ some old_pwd := by
        intro right
        obtain ⟨user, member, owner, -⟩ := (clean.numeric.works tid old_pwd).mp ((recorded tid old_pwd).mpr right)
        exact known ⟨user, member, owner⟩
      rw [if_neg wrong]
      exact iff_of_true rfl fun user member owner => (known ⟨user, member, owner⟩).elim

theorem reset_recorded_iff (injective : Function.Injective env.sha256) {tid : Json} {answer : Option Json}
    {new_pwd : String} (clean : Clean s.store) (recorded : Recorded env s)
    (accepted : some (questionOf (s.store.questions.find? fun info => Mongo.equals tid (some info.uid))) = answer)
    (users : t.users = Mongo.updateOne (fun user => Mongo.equals tid user.tid)
      (setPassword (env.sha256 new_pwd)) s.store.users) :
    Recorded env { store := t, given := reset (.ok true) tid new_pwd s.given } ↔
      Faithful env s (.forgetPassword tid answer new_pwd) := by
  dsimp only [reset]
  cases found : s.store.users.find? fun user => Mongo.equals tid user.tid with
  | some user =>
    have member := List.mem_of_find?_eq_some found
    have owner : user.tid = some tid := by
      simpa [clean.numeric.equals member] using List.find?_some found
    rw [recorded_replaced injective clean recorded found owner users fun other different =>
      Function.update_of_ne different _ _]
    exact iff_of_true (Function.update_self _ _ _) fun _ => ⟨user, member, owner⟩
  | none =>
    have unknown : ∀ user ∈ s.store.users, user.tid ≠ some tid := by
      intro user member owner
      simpa [owner] using List.find?_eq_none.mp found user member
    rw [clean.unasked unknown] at accepted
    refine iff_of_false (fun held => ?_) fun faithful => ?_
    · have works := (held tid new_pwd).mpr (Function.update_self _ _ _)
      dsimp only at works
      rw [users, Mongo.updateOne_of_none found, clean.numeric.works] at works
      obtain ⟨user, member, owner, -⟩ := works
      exact unknown user member owner
    · obtain ⟨user, member, owner⟩ := faithful accepted.symm
      exact unknown user member owner

theorem Step.recorded_iff {call : Call} (lawful : env.driver.Lawful) (injective : Function.Injective env.sha256)
    (taken : Step env s call s') (plain : Plain s call) (clean : Clean s.store) (recorded : Recorded env s) :
    Recorded env s' ↔ Faithful env s call := by
  cases taken with
  | tick => exact iff_of_true (recorded_of_untouched recorded rfl rfl) trivial
  | @registe id questionId body password result store told done =>
    refine iff_of_true ?_ trivial
    obtain ⟨v, counts, bounded⟩ := clean.pool
    rcases registe_cases env counts (plain v counts) told with
      ⟨e, failed⟩ | ⟨user, question, t, added, number, stored, users, -, -, -⟩
    · obtain ⟨rfl, rfl⟩ := Prod.mk.inj (failed.symm.trans done)
      exact recorded
    · obtain ⟨rfl, rfl⟩ := Prod.mk.inj (added.symm.trans done)
      exact recorded.registered injective clean bounded number stored users
  | @login tid password result store done =>
    have untouched := @login_untouched env (some tid) (some (.str password)) s.store
    rw [done] at untouched
    exact iff_of_true (recorded_of_untouched recorded untouched.users rfl) trivial
  | @changePassWord tid old_pwd new_pwd result store done =>
    obtain rfl : store = _ := (congrArg Prod.snd done).symm
    refine change_recorded_iff injective clean recorded ?_
    rw [changePassWord_eq lawful (lawful.denotes plain)]
    rfl
  | @forgetPassword tid answer new_pwd result store done =>
    rw [forgetPassword_eq (lawful.denotes plain)] at done
    split at done <;> rename_i accepted <;> obtain ⟨rfl, rfl⟩ := Prod.mk.inj done
    · exact reset_recorded_iff injective clean recorded accepted rfl
    · refine iff_of_true (recorded_of_untouched recorded rfl rfl) fun empty => ?_
      by_contra unknown
      refine accepted ?_
      rw [clean.unasked fun user member owner => unknown ⟨user, member, owner⟩, empty]
      rfl

theorem recorded_everywhere_iff {now : Int} {history : History} (lawful : env.driver.Lawful)
    (injective : Function.Injective env.sha256) (run : Transition.Run (PlainStep env) (init now) history s) :
    Everywhere (Recorded env) history s ↔ ∀ x ∈ history, Faithful env x.1 x.2 := by
  refine run.everywhere_iff ?_ fun history t call u before taken recorded => ?_
  · exact fun tid password => by simp [Works, init]
  · exact taken.1.recorded_iff lawful injective taken.2 (run_clean lawful before).1 recorded

/-- In a run of plain calls, `login` follows the passwords last given exactly when the library signs every
tid that has one, and the calls are faithful. -/
theorem everywhere_agrees_iff {now : Int} {history : History} (lawful : env.driver.Lawful)
    (injective : Function.Injective env.sha256) (run : Run env now history s)
    (plain : ∀ x ∈ history, Plain x.1 x.2) :
    Everywhere (Agrees env) history s ↔
      Everywhere (Signed env) history s ∧ ∀ x ∈ history, Faithful env x.1 x.2 := by
  have restricted := run.restrict plain
  have here : ∀ past t, Transition.Run (PlainStep env) (init now) past t →
      (Agrees env t ↔ Signed env t ∧ Recorded env t) := by
    intro past t before
    obtain ⟨clean, known⟩ := run_clean lawful before
    exact agrees_iff lawful clean known
  rw [← recorded_everywhere_iff lawful injective restricted]
  unfold Everywhere
  rw [here history s restricted, and_and_and_comm, ← forall₂_and]
  refine and_congr_left fun _ => forall₂_congr fun x member => ?_
  obtain ⟨past, -, before, -⟩ := restricted.reached member
  exact here past x.1 before

theorem registered_run : Run (sampleEnv sampleSigner) 0
    [(init 0, .registe "660a3b1e9c1f4e0012ab34cd" "660a3b1e9c1f4e0012ab34ce" sampleBody "123456789Sd!")]
    { store := sampleRegistered 0, given := Function.update (fun _ => none) (.num 1) (some "123456789Sd!") } := by
  have taken := @Step.registe (sampleEnv sampleSigner) (init 0) _ _ _ "123456789Sd!" _ _ rfl
    (registe_sample sampleSigner 0)
  exact Transition.Run.nil.snoc taken

/-- The account test changes the password: no document is found, and no error is thrown. -/
theorem changed_run : ∃ history s, Run (sampleEnv sampleSigner) 0 history s ∧
    history.map Prod.snd = [.registe "660a3b1e9c1f4e0012ab34cd" "660a3b1e9c1f4e0012ab34ce" sampleBody "123456789Sd!",
      .changePassWord (.num 1) "123456789Sd!" "123456789Sd"] ∧
    s.store.users = (sampleRegistered 0).users ∧ s.given (.num 1) = some "123456789Sd" := by
  have lawful : (sampleEnv sampleSigner).driver.Lawful := Mongo.Driver.standard_lawful
  have done := changePassWord_eq lawful (lawful.denotes_num 1) "123456789Sd!"
    "123456789Sd" (sampleRegistered 0)
  refine ⟨_, _, registered_run.snoc (.changePassWord done), rfl, ?_, ?_⟩
  · exact Mongo.updateOne_of_none (by decide)
  · simp [changed]

theorem everywhere_agrees_sample : ∃ history s, Run (sampleEnv sampleSigner) 0 history s ∧
    (∃ x ∈ history, x.2 = .changePassWord (.num 1) "123456789Sd!" "123456789Sd") ∧
    (Everywhere (Agrees (sampleEnv sampleSigner)) history s ↔
      Everywhere (Signed (sampleEnv sampleSigner)) history s ∧
        ∀ x ∈ history, Faithful (sampleEnv sampleSigner) x.1 x.2) ∧
    ¬ ∀ x ∈ history, Faithful (sampleEnv sampleSigner) x.1 x.2 := by
  have lawful : (sampleEnv sampleSigner).driver.Lawful := Mongo.Driver.standard_lawful
  have run := registered_run.snoc (.changePassWord (changePassWord_eq lawful (lawful.denotes_num 1) "123456789Sd!"
    "123456789Sd" (sampleRegistered 0)))
  refine ⟨_, _, run, ⟨_, List.mem_append_right _ (List.mem_singleton_self _), rfl⟩,
    everywhere_agrees_iff lawful sampleSha256_injective run ?_, ?_⟩
  · simp only [List.cons_append, List.nil_append, List.forall_mem_cons, List.not_mem_nil, false_implies,
      implies_true, and_true]
    exact ⟨fun _ _ => numbered_of_none (by decide), rfl⟩
  · intro faithful
    exact absurd (faithful _ (List.mem_append_right _ (List.mem_singleton_self _)) _ (List.mem_singleton_self _) rfl)
      (by decide)

/-- After the password change of the account test, the new password finds no user, and the old one does. -/
theorem new_password_refused : ∃ history s, Run (sampleEnv sampleSigner) 0 history s ∧
    s.given (.num 1) = some "123456789Sd" ∧ ¬ Everywhere (Agrees (sampleEnv sampleSigner)) history s ∧
    (AccountService.login (sampleEnv sampleSigner) (some (.num 1)) (some (.str "123456789Sd")) s.store).1 =
      .error (.service .TID_OR_PASSWORD_ERROR .BAD_REQUEST) ∧
    loginFind (sampleEnv sampleSigner) (some (.num 1)) (sampleSha256 "123456789Sd!") s.store = .ok () := by
  obtain ⟨history, s, run, -, users, given⟩ := changed_run
  have refused : loginFind (sampleEnv sampleSigner) (some (.num 1)) (sampleSha256 "123456789Sd") s.store =
      .error (.service .TID_OR_PASSWORD_ERROR .BAD_REQUEST) := by
    unfold loginFind
    rw [users]
    rfl
  have thrown : (AccountService.login (sampleEnv sampleSigner) (some (.num 1)) (some (.str "123456789Sd")) s.store).1 =
      .error (.service .TID_OR_PASSWORD_ERROR .BAD_REQUEST) := by
    have hash : (sampleEnv sampleSigner).sha256 "123456789Sd" = sampleSha256 "123456789Sd" := rfl
    rw [AccountService.login, digest]
    dsimp only
    rw [hash, refused]
  refine ⟨history, s, run, given, fun agrees => ?_, thrown, ?_⟩
  · obtain ⟨tokens, done⟩ := (agrees.2 (.num 1) "123456789Sd" rfl).mpr given
    cases thrown.symm.trans done
  · unfold loginFind
    rw [users]
    rfl

/-! ### Any request body -/

/-- A `changePassWord` that alters the password of a user was sent with his tid and his password. -/
def ChangeSound (env : AccountEnv) (tid old_pwd new_pwd : Option Json) (s : AccountStore) : Prop :=
  ∀ (i : Nat) (user user' : Users), s.users[i]? = some user →
    (AccountService.changePassWord env tid old_pwd new_pwd s).2.users[i]? = some user' →
    user'.password ≠ user.password →
      (∃ value, tid = some value ∧ value.isContainer = false ∧ user.tid = some value) ∧
        ∃ old, old_pwd = some (.str old) ∧ user.password = some (env.sha256 old)

/-- The query `{ tid, password: old_pwd }` finds no user whose password would change, unless `tid` and his
own tid are plain values, and `old_pwd` is a text that is its own digest. -/
def Owned (env : AccountEnv) (tid old_pwd new_pwd : Option Json) (s : AccountStore) : Prop :=
  ∀ new p q user, new_pwd = some (.str new) → env.driver.mixedFilter (tid.getD .null) = some p →
    env.driver.stringFilter (old_pwd.getD .null) = some q →
    s.users.find? (fun user => p user.tid && q user.password) = some user →
    user.password ≠ some (env.sha256 new) →
      ((∃ value, tid = some value ∧ value.isContainer = false) ∧
        ∃ field, user.tid = some field ∧ field.isContainer = false) ∧
        ∃ old, old_pwd = some (.str old) ∧ env.sha256 old = old

theorem changePassWord_updates {tid old_pwd : Option Json} {p : Option Json → Bool} {q : Option String → Bool}
    (first : env.driver.mixedFilter (tid.getD .null) = some p)
    (second : env.driver.stringFilter (old_pwd.getD .null) = some q) (new : String) (store : AccountStore) :
    (AccountService.changePassWord env tid old_pwd (some (.str new)) store).2.users =
      Mongo.updateOne (fun user => p user.tid && q user.password) (setPassword (env.sha256 new)) store.users := by
  simp [AccountService.changePassWord, changeUpdate, digest, first, second, replacePassword, delToken]

theorem changePassWord_users (tid old_pwd new_pwd : Option Json) (store : AccountStore) :
    (AccountService.changePassWord env tid old_pwd new_pwd store).2.users = store.users ∨
    ∃ new p q, new_pwd = some (.str new) ∧ env.driver.mixedFilter (tid.getD .null) = some p ∧
      env.driver.stringFilter (old_pwd.getD .null) = some q ∧
      ∃ user, store.users.find? (fun user => p user.tid && q user.password) = some user := by
  rcases new_pwd with _ | value
  · exact .inl rfl
  cases value with
  | str new =>
    cases first : env.driver.mixedFilter (tid.getD .null) with
    | none => exact .inl (by simp [AccountService.changePassWord, changeUpdate, digest, first])
    | some p =>
      cases second : env.driver.stringFilter (old_pwd.getD .null) with
      | none => exact .inl (by simp [AccountService.changePassWord, changeUpdate, digest, first, second])
      | some q =>
        cases found : store.users.find? fun user => p user.tid && q user.password with
        | none => exact .inl ((changePassWord_updates first second new store).trans (Mongo.updateOne_of_none found))
        | some user => exact .inr ⟨new, p, q, rfl, rfl, rfl, user, found⟩
  | _ => exact .inl rfl

/-- A `changePassWord` is sound for exactly the bodies and collections that are owned. -/
theorem changeSound_iff (lawful : env.driver.Lawful) (tid old_pwd new_pwd : Option Json) (store : AccountStore) :
    ChangeSound env tid old_pwd new_pwd store ↔ Owned env tid old_pwd new_pwd store := by
  constructor
  · rintro sound new p q user rfl first second found different
    have updated := changePassWord_updates first second new store
    obtain ⟨pre, post, whole, changed⟩ := Mongo.updateOne_of_some (f := setPassword (env.sha256 new)) found
    rw [changed] at updated
    obtain ⟨⟨value, rfl, plain, owner⟩, old, rfl, stored⟩ := sound pre.length user (setPassword (env.sha256 new) user)
      (by simp [whole]) (by simp [updated]) (by simpa [setPassword] using different.symm)
    refine ⟨⟨⟨value, rfl, plain⟩, value, owner, plain⟩, old, rfl, ?_⟩
    have hit := List.find?_some found
    obtain rfl := Option.some.inj ((lawful.stringFilter_str old).symm.trans second)
    simp only [Bool.and_eq_true, decide_eq_true_eq] at hit
    exact (Option.some.inj (hit.2.symm.trans stored)).symm
  · intro owned i user user' before after different
    rcases changePassWord_users tid old_pwd new_pwd store with same | ⟨new, p, q, rfl, first, second, other, found⟩
    · rw [same, before] at after
      obtain rfl := Option.some.inj after
      exact (different rfl).elim
    · rw [changePassWord_updates first second new store] at after
      obtain same | ⟨rfl, rfl⟩ := Mongo.updateOne_cases found before after
      · exact (different (congrArg Users.password same)).elim
      obtain ⟨⟨⟨value, rfl, plain⟩, field, owner, single⟩, old, rfl, digest⟩ :=
        owned new p q user rfl first second found different.symm
      have hit := List.find?_some found
      rw [Option.getD_some, lawful.mixedFilter_plain value plain] at first
      obtain rfl := Option.some.inj first
      obtain rfl := Option.some.inj ((lawful.stringFilter_str old).symm.trans second)
      simp only [owner, Mongo.equals_some single, Bool.and_eq_true, decide_eq_true_eq] at hit
      obtain ⟨rfl, stored⟩ := hit
      exact ⟨⟨field, rfl, plain, owner⟩, old, rfl, by rw [stored, digest]⟩

/-- At the stored digest, with which the password changes. -/
theorem changeSound_sample :
    ChangeSound (sampleEnv sampleSigner) (some (.num 1)) (some (.str (sampleSha256 "123456789Sd!")))
        (some (.str "123456789Sd")) (sampleRegistered 0) ↔
      Owned (sampleEnv sampleSigner) (some (.num 1)) (some (.str (sampleSha256 "123456789Sd!")))
        (some (.str "123456789Sd")) (sampleRegistered 0) :=
  changeSound_iff Mongo.Driver.standard_lawful _ _ _ _

theorem stored_digest_accepted : ∃ history s, Run (sampleEnv sampleSigner) 0 history s ∧
    ¬ ChangeSound (sampleEnv sampleSigner) (some (.num 1)) (some (.str (sampleSha256 "123456789Sd!")))
      (some (.str "123456789Sd")) s.store ∧
    ¬ ChangeSound (sampleEnv sampleSigner) (some (.num 1)) (some (.obj [("$ne", .str "")]))
      (some (.str "123456789Sd")) s.store := by
  refine ⟨_, _, registered_run, fun sound => ?_, fun sound => ?_⟩
  · obtain ⟨-, old, same, stored⟩ := sound 0 _ _ rfl rfl (by decide)
    obtain rfl := Json.str.inj (Option.some.inj same)
    exact absurd stored (by decide)
  · obtain ⟨-, old, same, -⟩ := sound 0 _ _ rfl rfl (by decide)
    cases same

end TacoBack.PasswordSystem
