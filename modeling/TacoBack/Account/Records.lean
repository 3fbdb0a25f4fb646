import TacoBack.Account.Effects
import TacoBack.Lib.Transition

/-!
# The records of a registration

A user, a question and the pool are written one after the other. A `tid` of the body ends up in the
user alone, and a write that fails leaves the earlier ones behind.
-/

namespace TacoBack.AccountService

open Transition

variable {env : AccountEnv} {s t : AccountStore} {id questionId hash : String} {body tid : Json}

/-! ### One identity -/

theorem registeInsert_users (done : registeInsert env id tid hash body s = .ok t) :
    ∃ user, tidField tid body = some user.tid ∧ t = { s with users := s.users ++ [user] } := by
  unfold registeInsert at done
  split at done
  · cases done
  · rename_i user built
    exact ⟨user, (userDocument_cast built).1, (Except.ok.inj done).symm⟩

theorem registeIncrby_counts (done : registeIncrby s = .ok t) :
    ∃ v, pool s = some v ∧ t.users = s.users ∧ t.questions = s.questions ∧ pool t = some (v + 1) := by
  unfold registeIncrby at done
  split at done
  · cases done
  rename_i redis incremented
  obtain ⟨v, counts⟩ := Redis.counter_of_incrby incremented
  obtain ⟨raised, again, counted, -⟩ := Redis.incrby_counter counts 1
  obtain rfl := Except.ok.inj (incremented.symm.trans again)
  obtain rfl := Except.ok.inj done
  exact ⟨v, counts, rfl, rfl, counted⟩

/-- What a `registe` that goes through has written. -/
theorem registe_ok (done : registe env id questionId body s = (.ok tid, t)) :
    ∃ v user question, pool s = some v ∧ tid = .num (v + 1) ∧
      tidField (.num (v + 1)) body = some user.tid ∧ question.uid = .num (v + 1) ∧
      t.users = s.users ++ [user] ∧ t.questions = s.questions ++ [question] ∧ pool t = some (v + 1) := by
  rcases registe_steps env id questionId body s with ⟨e, failed⟩ | ⟨next, hash, inserted, read, -, insert, rest⟩
  · cases failed.symm.trans done
  rcases rest with ⟨e, failed⟩ | ⟨counted, incrby, finished⟩
  · cases failed.symm.trans done
  obtain ⟨same, rfl⟩ := Prod.mk.inj (finished.symm.trans done)
  obtain rfl := Except.ok.inj same
  obtain ⟨user, told, rfl⟩ := registeInsert_users insert
  obtain ⟨v, counts, users, questions, raised⟩ := registeIncrby_counts incrby
  have counts : pool s = some v := counts
  rw [registeGet_eq counts] at read
  obtain ⟨digested, -, same⟩ := Redis.map_ok.mp read
  obtain ⟨rfl, -⟩ := Prod.mk.inj same
  exact ⟨v, user, _, counts, rfl, told, rfl, users, questions, raised⟩

/-- The user, the question and the tid returned have the number after the pool. -/
def Identified (s t : AccountStore) (tid : Json) : Prop :=
  ∃ v user question, pool s = some v ∧ t.users = s.users ++ [user] ∧ t.questions = s.questions ++ [question] ∧
    user.tid = some (.num (v + 1)) ∧ question.uid = .num (v + 1) ∧ tid = .num (v + 1)

/-- A `registe` that goes through gives its records one identity exactly if the body has no `tid`, or
the number after the pool. -/
theorem identified_iff (done : registe env id questionId body s = (.ok tid, t)) :
    Identified s t tid ↔
      ∀ value, body.get "tid" = some value → ∃ v, pool s = some v ∧ value = .num (v + 1) := by
  obtain ⟨v, user, question, counts, rfl, told, assigned, users, questions, -⟩ := registe_ok done
  have present : ∀ value, body.get "tid" = some value → value ≠ .null := by
    rintro _ brought rfl
    simp [tidField, brought] at told
  constructor
  · rintro ⟨w, other, _, counts', users', _, number, _, _⟩ value brought
    obtain rfl : v = w := Option.some.inj (counts.symm.trans counts')
    obtain rfl : user = other := List.singleton_inj.mp (List.append_cancel_left (users.symm.trans users'))
    have numbered : Numbered (v + 1) body := tidField_iff.mp fun stored field =>
      (Option.some.inj (field.symm.trans told)).trans number
    exact ⟨v, counts, (numbered value brought).resolve_right (present value brought)⟩
  · intro agrees
    refine ⟨v, user, question, counts, users, questions, tidField_iff.mpr (fun value brought => ?_) _ told, assigned, rfl⟩
    obtain ⟨w, counts', same⟩ := agrees value brought
    obtain rfl : v = w := Option.some.inj (counts.symm.trans counts')
    exact .inl same

/-- The first registration, with the tid of the second one in its body. -/
def impostorBody : Json :=
  .obj [("tid", .num 2), ("password", .str "123456789Sd"), ("email", .str "test2@no-reply.com")]

def sampleStart : AccountStore where
  now := 0
  redis := fun _ => none
  users := []
  questions := []

/-- A registration without a question. -/
def secondBody : Json :=
  .obj [("password", .str "123456789Sd"), ("email", .str "test2@no-reply.com")]

theorem impostor_registered : ∃ t, registe (sampleEnv sampleSigner) "660a3b1e9c1f4e0012ab34cf"
      "660a3b1e9c1f4e0012ab34d0" impostorBody sampleStart = (.ok (.num 1), t) ∧ t.users.map Users.tid = [some (.num 2)] ∧
      t.questions.map Questions.uid = [.num 1] := by
  refine ⟨_, rfl, ?_, ?_⟩ <;> rfl

theorem identified_sample : ∃ t, Identified sampleStart t (.num 1) ↔
    ∀ value, impostorBody.get "tid" = some value → ∃ v, pool sampleStart = some v ∧
      value = .num (v + 1) := by
  obtain ⟨t, done, -⟩ := impostor_registered
  exact ⟨t, identified_iff done⟩

theorem identity_chosen : ∃ t, registe (sampleEnv sampleSigner) "660a3b1e9c1f4e0012ab34cf"
      "660a3b1e9c1f4e0012ab34d0" impostorBody sampleStart = (.ok (.num 1), t) ∧ t.users.map Users.tid = [some (.num 2)] ∧
      t.questions.map Questions.uid = [.num 1] ∧ ¬ Identified sampleStart t (.num 1) := by
  obtain ⟨t, done, tids, uids⟩ := impostor_registered
  refine ⟨t, done, tids, uids, ?_⟩
  rintro ⟨v, user, question, -, users, -, number, -, same⟩
  have next : 1 = v + 1 := Json.num.inj same
  rw [users, List.map_append] at tids
  simp [sampleStart, number] at tids
  omega

/-! ### Failing commands -/

/-- The store commands of `registe`. -/
inductive Command where
  | get
  | find
  | insert
  | save
  | incrby
  deriving DecidableEq

/-- `registe` with commands that reject; one that does writes nothing. -/
def registeFaulty (env : AccountEnv) (faults : Command → Option Failure) (id questionId : String) (body : Json)
    (s : AccountStore) : Except Failure Json × AccountStore :=
  match attempt (faults .get) (registeGet env body s) with
  | .error e => (.error e, s)
  | .ok (tid, hash) =>
    match attempt (faults .find) (registeFind env body s) with
    | .error e => (.error e, s)
    | .ok () =>
      match attempt (faults .insert) (registeInsert env id tid hash body s) with
      | .error e => (.error e, s)
      | .ok inserted =>
        match attempt (faults .save) (.ok (registeSave questionId tid body inserted)) with
        | .error e => (.error e, inserted)
        | .ok saved =>
          match attempt (faults .incrby) (registeIncrby saved) with
          | .error e => (.error e, saved)
          | .ok counted => (.ok tid, counted)

theorem registeFaulty_none : registeFaulty env (fun _ => none) id questionId body s = registe env id questionId body s :=
  rfl

structure Traceless (s t : AccountStore) : Prop where
  users : t.users = s.users
  questions : t.questions = s.questions
  pool : t.redis ACCOUNT_POOL_NAMESPACE = s.redis ACCOUNT_POOL_NAMESPACE

/-- The email is new, and the call gets as far as its insertion. -/
def Inserts (env : AccountEnv) (faults : Command → Option Failure) (id : String) (body : Json) (s : AccountStore) :
    Prop :=
  faults .get = none ∧ faults .find = none ∧ faults .insert = none ∧
    ∃ tid hash inserted, registeGet env body s = .ok (tid, hash) ∧ registeFind env body s = .ok () ∧
      registeInsert env id tid hash body s = .ok inserted

/-- A user inserted for a call in `s`, with the tid of the body or else the number after the pool `v`. -/
def Inserted (v : Int) (body : Json) (s t : AccountStore) : Prop :=
  ∃ user, tidField (.num (v + 1)) body = some user.tid ∧ t.users = s.users ++ [user]

/-- A call that does not get as far as its insertion changes nothing; one that does has inserted its user,
and returns if neither of the two commands after that fails. -/
theorem registeFaulty_cases (env : AccountEnv) {v : Int} (counts : pool s = some v)
    (faults : Command → Option Failure) (id questionId : String) (body : Json) :
    (¬ Inserts env faults id body s ∧ ∃ e, registeFaulty env faults id questionId body s = (.error e, s)) ∨
    (Inserts env faults id body s ∧ ∃ t, Inserted v body s t ∧
      ((∃ e, registeFaulty env faults id questionId body s = (.error e, t) ∧ pool t = some v ∧
          (faults .save ≠ none ∨ faults .incrby ≠ none)) ∨
        (registeFaulty env faults id questionId body s = (.ok (.num (v + 1)), t) ∧ pool t = some (v + 1) ∧
          faults .save = none ∧ faults .incrby = none))) := by
  unfold registeFaulty
  cases got : attempt (faults .get) (registeGet env body s) with
  | error e =>
    refine .inl ⟨?_, e, rfl⟩
    rintro ⟨fine, -, -, tid, hash, -, read, -⟩
    cases (attempt_ok.mpr ⟨fine, read⟩).symm.trans got
  | ok read =>
    obtain ⟨tid, hash⟩ := read
    obtain ⟨fine, read⟩ := attempt_ok.mp got
    dsimp only
    cases asked : attempt (faults .find) (registeFind env body s) with
    | error e =>
      refine .inl ⟨?_, e, rfl⟩
      rintro ⟨-, fine, -, _, _, -, -, new, -⟩
      cases (attempt_ok.mpr ⟨fine, new⟩).symm.trans asked
    | ok =>
      obtain ⟨fine', new⟩ := attempt_ok.mp asked
      dsimp only
      cases put : attempt (faults .insert) (registeInsert env id tid hash body s) with
      | error e =>
        refine .inl ⟨?_, e, rfl⟩
        rintro ⟨-, -, fine, _, _, inserted, again, -, insert⟩
        obtain ⟨rfl, rfl⟩ := Prod.mk.inj (Except.ok.inj (again.symm.trans read))
        cases (attempt_ok.mpr ⟨fine, insert⟩).symm.trans put
      | ok inserted =>
        obtain ⟨fine'', insert⟩ := attempt_ok.mp put
        have inserts : Inserts env faults id body s := ⟨fine, fine', fine'', tid, hash, inserted, read, new, insert⟩
        rw [registeGet_eq counts] at read
        obtain ⟨_, -, same⟩ := Redis.map_ok.mp read
        obtain ⟨rfl, rfl⟩ := Prod.mk.inj same
        obtain ⟨user, told, rfl⟩ := registeInsert_users insert
        refine .inr ⟨inserts, ?_⟩
        cases saving : faults .save with
        | some e => exact ⟨_, ⟨user, told, rfl⟩, .inl ⟨e, rfl, counts, by simp⟩⟩
        | none =>
          dsimp only [attempt]
          cases raising : faults .incrby with
          | some e => exact ⟨_, ⟨user, told, rfl⟩, .inl ⟨e, rfl, counts, by simp⟩⟩
          | none =>
            dsimp only
            obtain ⟨t, incremented, users, -, raised⟩ := registeIncrby_ok (s := registeSave questionId
              (.num (v + 1)) body { s with users := s.users ++ [user] }) counts
            rw [incremented]
            exact ⟨t, ⟨user, told, users⟩, .inr ⟨rfl, raised, rfl, rfl⟩⟩

/-- A rejection leaves no trace unless the call has inserted its user and one of the two commands after
that fails. -/
theorem traceless_iff {v : Int} (counts : pool s = some v)
    (faults : Command → Option Failure) (id questionId : String) (body : Json) :
    (∀ e t, registeFaulty env faults id questionId body s = (.error e, t) → Traceless s t) ↔
      ¬ (Inserts env faults id body s ∧ (faults .save ≠ none ∨ faults .incrby ≠ none)) := by
  rcases registeFaulty_cases env counts faults id questionId body with
    ⟨early, e, failed⟩ | ⟨inserts, t, ⟨user, -, users⟩, ⟨e, failed, -, faulty⟩ | ⟨done, -, save, incrby⟩⟩
  · refine iff_of_true ?_ fun late => early late.1
    intro _ _ same
    obtain ⟨-, rfl⟩ := Prod.mk.inj (failed.symm.trans same)
    exact ⟨rfl, rfl, rfl⟩
  · refine iff_of_false (fun traceless => ?_) fun none => none ⟨inserts, faulty⟩
    have same := (traceless e t failed).users
    rw [users] at same
    simp at same
  · refine iff_of_true ?_ fun late => by simp [save, incrby] at late
    intro _ _ same
    cases done.symm.trans same

end TacoBack.AccountService

/-! ### Runs with failures -/

namespace TacoBack.RecordSystem

open AccountService Transition

inductive Call where
  | registe (faults : Command → Option Failure) (id questionId : String) (body : Json)
  | login (tid password : Option Json)
  | refresh (refresh_token : String) (renew_refresh_token : Bool)
  | changePassWord (tid old_pwd new_pwd : Option Json)
  | forgetPassword (tid answer new_pwd : Option Json)

def perform (env : AccountEnv) (s : AccountStore) : Call → AccountStore
  | .registe faults id questionId body => (registeFaulty env faults id questionId body s).2
  | .login tid password => (login env tid password s).2
  | .refresh refresh_token renew_refresh_token => (refresh env refresh_token renew_refresh_token s).2
  | .changePassWord tid old_pwd new_pwd => (changePassWord env tid old_pwd new_pwd s).2
  | .forgetPassword tid answer new_pwd => (forgetPassword env tid answer new_pwd s).2

def Step (env : AccountEnv) (s : AccountStore) (call : Call) (after : AccountStore) : Prop :=
  after = perform env s call

abbrev History := List (AccountStore × Call)

abbrev Run (env : AccountEnv) : History → AccountStore → Prop := Transition.Run (Step env) sampleStart

variable {env : AccountEnv} {s t : AccountStore} {call : Call}

/-- A `registe` that rejects leaves no trace. -/
def Clears (env : AccountEnv) (s : AccountStore) : Call → Prop
  | .registe faults id questionId body =>
    ∀ e t, registeFaulty env faults id questionId body s = (.error e, t) → Traceless s t
  | _ => True

/-- No later `registe` receives the tid of a user. -/
def Fresh (env : AccountEnv) (s : AccountStore) : Prop :=
  ∀ body tid hash, registeGet env body s = .ok (tid, hash) → ∀ user ∈ s.users, user.tid ≠ some tid

/-- A `registe` that inserts its user goes on to its end. -/
def Finishes (env : AccountEnv) (s : AccountStore) : Call → Prop
  | .registe faults id _ body => ¬ (Inserts env faults id body s ∧ (faults .save ≠ none ∨ faults .incrby ≠ none))
  | _ => True

/-- A tid that the body of a `registe` brings is not above the number after the pool. -/
def Modest (s : AccountStore) : Call → Prop
  | .registe _ _ _ body => ∀ v m, pool s = some v → body.get "tid" = some (.num m) → m ≤ v + 1
  | _ => True

def Bounded (s : AccountStore) : Prop := ∃ v, pool s = some v ∧ ∀ user ∈ s.users, ∀ n, user.tid = some (.num n) → n ≤ v

theorem Bounded.kept (bounded : Bounded s) (tids : t.users.map Users.tid = s.users.map Users.tid)
    (counted : pool t = pool s) : Bounded t := by
  obtain ⟨v, counts, below⟩ := bounded
  refine ⟨v, counted.trans counts, fun user member => ?_⟩
  have listed : user.tid ∈ s.users.map Users.tid := tids ▸ List.mem_map_of_mem member
  obtain ⟨old, stored, same⟩ := List.mem_map.mp listed
  exact fun n number => below old stored n (same.trans number)

theorem Bounded.fresh (bounded : Bounded s) : Fresh env s := by
  obtain ⟨v, counts, below⟩ := bounded
  intro body tid hash read user member same
  rw [registeGet_eq counts] at read
  obtain ⟨_, -, next⟩ := Redis.map_ok.mp read
  obtain ⟨rfl, -⟩ := Prod.mk.inj next
  have bound := below user member (v + 1) same
  omega

theorem perform_counts {v : Int} (counts : pool s = some v) (call : Call) :
    ∃ w, pool (perform env s call) = some w := by
  cases call with
  | registe faults id questionId body =>
    dsimp only [perform]
    rcases registeFaulty_cases env counts faults id questionId body with
      ⟨-, e, failed⟩ | ⟨-, t, -, ⟨e, failed, kept, -⟩ | ⟨done, raised, -⟩⟩
    · exact ⟨v, by rw [failed]; exact counts⟩
    · exact ⟨v, by rw [failed]; exact kept⟩
    · exact ⟨v + 1, by rw [done]; exact raised⟩
  | login tid password => exact ⟨v, (login_untouched tid password s).pool.trans counts⟩
  | refresh refresh_token renew => exact ⟨v, (refresh_untouched refresh_token renew s).pool.trans counts⟩
  | changePassWord tid old_pwd new_pwd => exact ⟨v, (changePassWord_keeps tid old_pwd new_pwd s).2.trans counts⟩
  | forgetPassword tid answer new_pwd => exact ⟨v, (forgetPassword_keeps tid answer new_pwd s).2.trans counts⟩

theorem Step.bounded (taken : Step env s call t) (finishes : Finishes env s call)
    (modest : Modest s call) (bounded : Bounded s) : Bounded t := by
  rw [Step] at taken
  subst taken
  cases call with
  | registe faults id questionId body =>
    obtain ⟨v, counts, below⟩ := bounded
    dsimp only [perform]
    rcases registeFaulty_cases env counts faults id questionId body with
      ⟨-, e, failed⟩ | ⟨inserts, t, ⟨user, told, users⟩, ⟨e, -, -, faulty⟩ | ⟨done, raised, -, -⟩⟩
    · rw [failed]
      exact ⟨v, counts, below⟩
    · exact (finishes ⟨inserts, faulty⟩).elim
    · rw [done]
      refine ⟨v + 1, raised, ?_⟩
      dsimp only
      rw [users, List.forall_mem_append, List.forall_mem_singleton]
      refine ⟨fun other member n number => ?_, fun n number => ?_⟩
      · have bound := below other member n number
        omega
      · rcases tidField_num (told.trans (congrArg some number)) with brought | same
        · exact modest v n counts brought
        · obtain rfl := Json.num.inj same
          exact le_refl _
  | login tid password =>
    have untouched := @login_untouched env tid password s
    exact bounded.kept (by rw [perform, untouched.users]) untouched.pool
  | refresh refresh_token renew =>
    have untouched := @refresh_untouched env refresh_token renew s
    exact bounded.kept (by rw [perform, untouched.users]) untouched.pool
  | changePassWord tid old_pwd new_pwd =>
    have kept := @changePassWord_keeps env tid old_pwd new_pwd s
    exact bounded.kept kept.1 kept.2
  | forgetPassword tid answer new_pwd =>
    have kept := @forgetPassword_keeps env tid answer new_pwd s
    exact bounded.kept kept.1 kept.2

theorem run_counts {history : History} (run : Run env history s) :
    ∃ v, pool s = some v := by
  refine run.preserved (P := fun s => ∃ v, pool s = some v) ⟨0, rfl⟩ ?_
  rintro s call _ ⟨v, counts⟩ rfl
  exact perform_counts counts call

theorem clears_iff {v : Int} (counts : pool s = some v) (call : Call) :
    Clears env s call ↔ Finishes env s call := by
  cases call with
  | registe faults id questionId body => exact traceless_iff counts faults id questionId body
  | _ => exact Iff.rfl

/-- The rejections of a run leave no trace exactly if every call that inserts its user finishes; and if
no body claims a later tid besides, no call ever receives a tid that a user has. -/
theorem rejections_traceless_iff {history : History} (run : Run env history s) :
    ((∀ x ∈ history, Clears env x.1 x.2) ↔ ∀ x ∈ history, Finishes env x.1 x.2) ∧
      ((∀ x ∈ history, Finishes env x.1 x.2 ∧ Modest x.1 x.2) → Everywhere (Fresh env) history s) := by
  constructor
  · refine forall_congr' fun x => forall_congr' fun member => ?_
    obtain ⟨_, _, before, -⟩ := run.reached member
    obtain ⟨v, counts⟩ := run_counts before
    exact clears_iff counts x.2
  · intro met
    have bounded : Always (fun _ => Bounded) history s := by
      refine run.always (C := fun s call => Finishes env s call ∧ Modest s call) ⟨0, rfl, by simp [sampleStart]⟩
        (fun _ s call t _ taken met bounded => ?_) met
      exact Step.bounded taken met.1 met.2 bounded
    obtain ⟨past, last⟩ := everywhere_iff_always.mpr bounded
    exact ⟨fun x member => (past x member).fresh, last.fresh⟩

/-- The faults of a Redis that fails at `INCRBY`. -/
def sampleFaults : Command → Option Failure
  | .incrby => some (.redis .notInteger)
  | _ => none

theorem faulty_run : ∃ s t, registeFaulty (sampleEnv sampleSigner) sampleFaults "660a3b1e9c1f4e0012ab34cd"
      "660a3b1e9c1f4e0012ab34ce" sampleBody sampleStart = (.error (.redis .notInteger), s) ∧
    registe (sampleEnv sampleSigner) "660a3b1e9c1f4e0012ab34cf" "660a3b1e9c1f4e0012ab34d0" secondBody s =
      (.ok (.num 1), t) ∧
    s.users.map Users.tid = [some (.num 1)] ∧ t.users.map Users.tid = [some (.num 1), some (.num 1)] := by
  refine ⟨_, _, rfl, rfl, ?_, ?_⟩ <;> rfl

theorem rejections_traceless_sample : ∃ history s, Run (sampleEnv sampleSigner) history s ∧
    ((∀ x ∈ history, Clears (sampleEnv sampleSigner) x.1 x.2) ↔
        ∀ x ∈ history, Finishes (sampleEnv sampleSigner) x.1 x.2) ∧
      ((∀ x ∈ history, Finishes (sampleEnv sampleSigner) x.1 x.2 ∧ Modest x.1 x.2) →
        Everywhere (Fresh (sampleEnv sampleSigner)) history s) := by
  have first : Step (sampleEnv sampleSigner) sampleStart
      (.registe sampleFaults "660a3b1e9c1f4e0012ab34cd" "660a3b1e9c1f4e0012ab34ce" sampleBody) _ := rfl
  have run := Transition.Run.nil.snoc first
  exact ⟨_, _, run, rejections_traceless_iff run⟩

/-- The first registration rejects at its last command, and its user stays; the second receives the same
tid. -/
theorem rejection_leaves_user : ∃ s t, registeFaulty (sampleEnv sampleSigner) sampleFaults "660a3b1e9c1f4e0012ab34cd"
      "660a3b1e9c1f4e0012ab34ce" sampleBody sampleStart = (.error (.redis .notInteger), s) ∧
    ¬ Traceless sampleStart s ∧ ¬ Fresh (sampleEnv sampleSigner) s ∧
    registe (sampleEnv sampleSigner) "660a3b1e9c1f4e0012ab34cf" "660a3b1e9c1f4e0012ab34d0" secondBody s =
      (.ok (.num 1), t) ∧
    t.users.map Users.tid = [some (.num 1), some (.num 1)] := by
  obtain ⟨s, t, failed, done, tids, twice⟩ := faulty_run
  refine ⟨s, t, failed, fun traceless => ?_, fun fresh => ?_, done, twice⟩
  · rw [traceless.users] at tids
    cases tids
  · obtain ⟨user, member, number⟩ := List.mem_map.mp
      (show some (.num 1) ∈ s.users.map Users.tid by simp [tids])
    obtain ⟨v, _, _, counts, next, -⟩ := registe_ok done
    have read : registeGet (sampleEnv sampleSigner) secondBody s = .ok (.num 1, sampleSha256 "123456789Sd") := by
      rw [registeGet_eq counts, next]
      rfl
    exact fresh _ _ _ read user member number

end TacoBack.RecordSystem
