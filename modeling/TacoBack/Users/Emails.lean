import TacoBack.Account.Records
import TacoBack.Users.Profile

/-!
# Emails

`registe` asks whether its email is taken, and `updateProfile` does not.
-/

namespace TacoBack

open Aggregate Transition

structure RegisterDto where
  name : String
  description : String
  email : String
  password : String
  sex : String
  question : List (String × String)
  birthday : String

def RegisterDto.toJson (dto : RegisterDto) : Json :=
  .obj [("name", .str dto.name), ("description", .str dto.description), ("email", .str dto.email),
    ("password", .str dto.password), ("sex", .str dto.sex),
    ("question", .obj (dto.question.map fun entry => (entry.1, .str entry.2))), ("birthday", .str dto.birthday)]

structure UserProfileDto where
  nick : Option String
  description : Option String
  birthday : Option String
  email : Option String

/-- The property `key`, if the body has it. -/
def property (key : String) (value : Option String) : List (String × Json) :=
  value.toList.map fun text => (key, .str text)

def UserProfileDto.fields (dto : UserProfileDto) : List (String × Json) :=
  property "nick" dto.nick ++ property "description" dto.description ++ property "birthday" dto.birthday ++
    property "email" dto.email

namespace UsersService

/-- A document of the collection, with `null` in the fields of text it lacks. -/
def toDocument (user : Users) : Document :=
  ("_id", .str user._id) :: (user.tid.toList.map fun tid => ("tid", tid)) ++
    [("nick", storedText user.nick), ("description", storedText user.description),
      ("password", storedText user.password), ("email", storedText user.email), ("sex", storedText user.sex),
      ("__v", .num 0)]

/-- A birthday is not in the schema. -/
def patched (dto : UserProfileDto) (user : Users) : Users :=
  { user with
    nick := dto.nick <|> user.nick
    description := dto.description <|> user.description
    email := dto.email <|> user.email }

/-- `updateProfile`, for a typed body and typed documents. -/
def updateProfileDto (driver : Mongo.Driver) (tid : Option Json) (dto : UserProfileDto) (users : List Users) :
    Except ProfileError (Option Users) × List Users :=
  match driver.mixedFilter (tid.getD .null) with
  | none => (.error .castError, users)
  | some p =>
    match users.find? fun user => p user.tid with
    | none => (.ok none, users)
    | some user => (.ok (some (patched dto user)), Mongo.updateOne (fun user => p user.tid) (patched dto) users)

variable {env : ProfileEnv} {driver : Mongo.Driver} {tid : Option Json} {dto : UserProfileDto} {users : List Users}

/-! ### Typed bodies -/

def dtoEdits (dto : UserProfileDto) : List Update.Edit :=
  (property "nick" dto.nick ++ property "description" dto.description ++ property "email" dto.email).map fun entry =>
    { field := entry.1, value := fun _ => some (some entry.2) }

theorem castUpdate_dto (lawful : env.driver.Lawful) (dto : UserProfileDto) :
    Update.castUpdate (usersDriver env) dto.fields = some (dtoEdits dto) := by
  have plain : ∀ entry ∈ dto.fields, Update.isOperator entry.1 = false := by
    rcases dto with ⟨_ | nick, _ | description, _ | birthday, _ | email⟩ <;>
      simp [UserProfileDto.fields, property, Update.isOperator]
  rw [Update.castUpdate_plain plain]
  rcases dto with ⟨_ | nick, _ | description, _ | birthday, _ | email⟩ <;>
    simp [UserProfileDto.fields, property, dtoEdits, usersDriver, usersSchema, Update.assign, lawful.castString_str,
      storedText]

theorem apply_dto (dto : UserProfileDto) (user : Users) :
    Update.apply "_id" (dtoEdits dto) (toDocument user) = some (toDocument (patched dto user)) := by
  rcases user with ⟨_, _ | tid, _, _, _, _, _⟩ <;>
  rcases dto with ⟨_ | nick, _ | description, _ | birthday, _ | email⟩ <;>
    simp [dtoEdits, property, patched, toDocument, Update.apply, Update.applyFrom, Update.put, setField, storedText,
      List.lookup_cons]

theorem lookup_tid (user : Users) : (toDocument user).lookup "tid" = user.tid := by
  rcases user with ⟨_, _ | tid, _, _, _, _, _⟩ <;> rfl

/-- On typed documents, a typed body does what `updateProfileDto` does. -/
theorem updateProfile_dto (lawful : env.driver.Lawful) (tid : Option Json) (dto : UserProfileDto) (users : List Users) :
    updateProfile env tid dto.fields (users.map toDocument) =
      ((updateProfileDto env.driver tid dto users).1.map fun found => found.map fun user =>
          projectDoc ["tid", "nick", "description", "birthday", "email"] [] (toDocument user),
        (updateProfileDto env.driver tid dto users).2.map toDocument) := by
  unfold updateProfile updateProfileDto tidFilter
  rw [castUpdate_dto lawful]
  cases env.driver.mixedFilter (tid.getD .null) with
  | none => rfl
  | some p =>
    simp only [Option.map_some, List.find?_map, Function.comp_def, lookup_tid]
    cases found : users.find? fun user => p user.tid with
    | none => rfl
    | some user =>
      have stored : users.find? (fun user => p ((toDocument user).lookup "tid")) = some user := by
        simpa only [lookup_tid] using found
      have mapped := Mongo.map_updateOne (p := fun doc : Document => p (doc.lookup "tid")) (f := patched dto)
        (g := toDocument) stored
      simp only [Option.map_some, apply_dto, mapped, Except.map, lookup_tid]

end UsersService

namespace AccountService

variable {env : AccountEnv} {s : AccountStore}

def registered (env : AccountEnv) (id : String) (tid : Int) (dto : RegisterDto) : Users where
  _id := id
  tid := some (.num tid)
  nick := none
  description := some dto.description
  password := some (env.sha256 dto.password)
  email := some dto.email
  sex := some dto.sex

theorem userDocument_dto (lawful : env.driver.Lawful) (id : String) (tid : Int) (dto : RegisterDto) :
    userDocument env id (.num tid) (env.sha256 dto.password) dto.toJson = some (registered env id tid dto) := by
  simp [userDocument, tidField, Mongo.minimize, castField, RegisterDto.toJson, Json.get, List.lookup_cons,
    lawful.castString_str, registered]

theorem registeFind_dto (lawful : env.driver.Lawful) (dto : RegisterDto) (s : AccountStore) :
    registeFind env dto.toJson s =
      if ∃ user ∈ s.users, user.email = some dto.email then .error (.service .HAS_SAME_USER .BAD_REQUEST)
      else .ok () := by
  have told : dto.toJson.get "email" = some (.str dto.email) := rfl
  simp [registeFind, told, lawful.stringFilter_str]

/-- For a typed body, `registe` rejects an email that is taken, and adds the user otherwise. -/
theorem registe_dto (lawful : env.driver.Lawful) {v : Int} (counts : pool s = some v) (id questionId : String)
    (dto : RegisterDto) :
    if ∃ user ∈ s.users, user.email = some dto.email then
      registe env id questionId dto.toJson s = (.error (.service .HAS_SAME_USER .BAD_REQUEST), s)
    else ∃ t, registe env id questionId dto.toJson s = (.ok (.num (v + 1)), t) ∧
      t.users = s.users ++ [registered env id (v + 1) dto] ∧ pool t = some (v + 1) := by
  have told : dto.toJson.get "password" = some (.str dto.password) := rfl
  unfold registe
  rw [registeGet_eq counts, told, registeFind_dto lawful]
  dsimp only [digest, Except.map]
  split
  · rfl
  simp only [registeInsert, userDocument_dto lawful, registeSave]
  obtain ⟨t, incremented, users, -, counted⟩ := registeIncrby_ok (s := { s with
    users := s.users ++ [registered env id (v + 1) dto]
    questions := s.questions ++ [⟨questionId, .num (v + 1), (dto.toJson.get "question").bind Mongo.minimize⟩] }) counts
  rw [incremented]
  exact ⟨t, rfl, users, counted⟩

end AccountService

/-! ### Runs -/

namespace EmailSystem

open AccountService UsersService

inductive Call where
  | registe (id questionId : String) (dto : RegisterDto)
  | updateProfile (tid : Option Json) (dto : UserProfileDto)

def perform (env : AccountEnv) (s : AccountStore) : Call → AccountStore
  | .registe id questionId dto => (registe env id questionId dto.toJson s).2
  | .updateProfile tid dto => { s with users := (updateProfileDto env.driver tid dto s.users).2 }

def Step (env : AccountEnv) (s : AccountStore) (call : Call) (after : AccountStore) : Prop :=
  after = perform env s call

abbrev History := List (AccountStore × Call)

abbrev Run (env : AccountEnv) : History → AccountStore → Prop := Transition.Run (Step env) sampleStart

variable {env : AccountEnv} {s t : AccountStore} {call : Call} {history : History}

/-- No two documents have the same email. -/
def Unique (s : AccountStore) : Prop := (s.users.map Users.email).Nodup

/-- A call that throws `HAS_SAME_USER` leaves the users as they are. -/
def Refuses (env : AccountEnv) (s : AccountStore) : Call → Prop
  | .registe id questionId dto =>
    (registe env id questionId dto.toJson s).1 = .error (.service .HAS_SAME_USER .BAD_REQUEST) →
      (registe env id questionId dto.toJson s).2.users = s.users
  | .updateProfile _ _ => True

/-- The email that an update brings is not that of a document other than the one it finds. -/
def Exact (env : AccountEnv) (s : AccountStore) : Call → Prop
  | .registe _ _ _ => True
  | .updateProfile tid dto =>
    ∀ p user email, env.driver.mixedFilter (tid.getD .null) = some p →
      (s.users.find? fun user => p user.tid) = some user → dto.email = some email →
        ∀ other ∈ Mongo.deleteOne (fun user => p user.tid) s.users, other.email ≠ some email

theorem perform_counts (lawful : env.driver.Lawful) {v : Int} (counts : pool s = some v) (call : Call) :
    ∃ w, pool (perform env s call) = some w := by
  cases call with
  | registe id questionId dto =>
    have done := registe_dto lawful counts id questionId dto
    dsimp only [perform]
    split at done
    · exact ⟨v, by rw [done]; exact counts⟩
    · obtain ⟨t, done, -, counted⟩ := done
      exact ⟨v + 1, by rw [done]; exact counted⟩
  | updateProfile tid dto => exact ⟨v, counts⟩

theorem run_counts (lawful : env.driver.Lawful) (run : Run env history s) : ∃ v, pool s = some v := by
  refine run.preserved (P := fun s => ∃ v, pool s = some v) ⟨0, rfl⟩ ?_
  rintro s call _ ⟨v, counts⟩ rfl
  exact perform_counts lawful counts call

theorem unique_patched {users : List Users} {p : Users → Bool} {user : Users} (distinct : (users.map Users.email).Nodup)
    (found : users.find? p = some user) (dto : UserProfileDto) :
    ((Mongo.updateOne p (patched dto) users).map Users.email).Nodup ↔
      ∀ email, dto.email = some email → ∀ other ∈ Mongo.deleteOne p users, other.email ≠ some email := by
  obtain ⟨pre, post, whole, changed, rest⟩ := Mongo.split_found found
  rw [whole] at distinct
  rw [changed, rest]
  rw [List.map_append, List.map_cons, List.nodup_middle, List.nodup_cons, ← List.map_append] at distinct ⊢
  rw [and_iff_left distinct.2]
  unfold patched
  dsimp only
  cases dto.email with
  | none => simpa using distinct.1
  | some email => simp [or_imp, forall_and]

theorem unique_iff (lawful : env.driver.Lawful) {v : Int} (counts : pool s = some v) (taken : Step env s call t)
    (distinct : Unique s) : Unique t ↔ Exact env s call := by
  rw [Step] at taken
  subst taken
  cases call with
  | registe id questionId dto =>
    have done := registe_dto lawful counts id questionId dto
    refine iff_of_true ?_ trivial
    dsimp only [perform]
    split at done
    · rw [done]
      exact distinct
    · rename_i new
      obtain ⟨t, done, users, -⟩ := done
      rw [done]
      unfold Unique
      dsimp only
      rw [users, List.map_append, List.map_singleton]
      refine List.Nodup.append distinct (List.nodup_singleton _) ?_
      rw [List.disjoint_singleton]
      intro listed
      obtain ⟨other, member, same⟩ := List.mem_map.mp listed
      exact new ⟨other, member, same⟩
  | updateProfile tid dto =>
    dsimp only [perform, Unique, Exact, updateProfileDto]
    cases env.driver.mixedFilter (tid.getD .null) with
    | none => exact iff_of_true distinct fun _ _ _ query => by cases query
    | some p =>
      dsimp only
      cases found : s.users.find? fun user => p user.tid with
      | none =>
        refine iff_of_true distinct fun q user _ query found' => ?_
        obtain rfl := Option.some.inj query
        cases found.symm.trans found'
      | some user =>
        refine (unique_patched distinct found dto).trans ⟨?_, fun apart email => apart p user email rfl found⟩
        intro apart q _ email query _ brought
        obtain rfl := Option.some.inj query
        exact apart email brought

theorem refuses_always (lawful : env.driver.Lawful) {v : Int} (counts : pool s = some v) (call : Call) :
    Refuses env s call := by
  cases call with
  | registe id questionId dto =>
    have done := registe_dto lawful counts id questionId dto
    intro threw
    split at done
    · rw [done]
    · obtain ⟨t, done, -, -⟩ := done
      rw [done] at threw
      cases threw
  | updateProfile tid dto => trivial

/-- Emails stay unique exactly in the runs where no update brings the email of another document. -/
theorem emails_unique_iff (lawful : env.driver.Lawful) (run : Run env history s) :
    (Everywhere Unique history s ↔ ∀ x ∈ history, Exact env x.1 x.2) ∧ ∀ x ∈ history, Refuses env x.1 x.2 := by
  constructor
  · refine run.everywhere_iff (show Unique sampleStart from List.nodup_nil) fun _ s call t before taken distinct => ?_
    obtain ⟨v, counts⟩ := run_counts lawful before
    exact unique_iff lawful counts taken distinct
  · intro x member
    obtain ⟨_, _, before, -⟩ := run.reached member
    obtain ⟨v, counts⟩ := run_counts lawful before
    exact refuses_always lawful counts x.2

/-- The dto of the account test, with another email. -/
def sampleDto (email : String) : RegisterDto where
  name := "Test"
  description := ""
  email := email
  password := "123456789Sd!"
  sex := "Other"
  question := [("Q1", "A1")]
  birthday := "1711929600000"

def takenDto : UserProfileDto where
  nick := none
  description := none
  birthday := none
  email := some "test@no-reply.com"

def firstCall : Call :=
  .registe "660a3b1e9c1f4e0012ab34cd" "660a3b1e9c1f4e0012ab34ce" (sampleDto "test@no-reply.com")

def secondCall : Call :=
  .registe "660a3b1e9c1f4e0012ab34cf" "660a3b1e9c1f4e0012ab34d0" (sampleDto "test2@no-reply.com")

/-- Two users register, and the second takes over the email of the first. -/
theorem taken_run : ∃ history s, Run (sampleEnv sampleSigner) history s ∧
    labels history = [firstCall, secondCall, .updateProfile (some (.num 2)) takenDto] ∧
    s.users.map Users.email = [some "test@no-reply.com", some "test@no-reply.com"] := by
  have lawful : (sampleEnv sampleSigner).driver.Lawful := Mongo.Driver.standard_lawful
  have first := registe_dto lawful (s := sampleStart) (v := 0) rfl "660a3b1e9c1f4e0012ab34cd"
    "660a3b1e9c1f4e0012ab34ce" (sampleDto "test@no-reply.com")
  rw [if_neg (by simp [sampleStart])] at first
  obtain ⟨s, done, users, counts⟩ := first
  have second := registe_dto lawful counts "660a3b1e9c1f4e0012ab34cf" "660a3b1e9c1f4e0012ab34d0"
    (sampleDto "test2@no-reply.com")
  rw [users, if_neg (by simp [sampleStart, registered, sampleDto])] at second
  obtain ⟨t, done', users', -⟩ := second
  have step : Step (sampleEnv sampleSigner) sampleStart firstCall s := by rw [Step, firstCall, perform, done]
  have step' : Step (sampleEnv sampleSigner) s secondCall t := by rw [Step, secondCall, perform, done']
  have run := (Transition.Run.nil.snoc step).snoc step'
  refine ⟨_, _, run.snoc (l := .updateProfile (some (.num 2)) takenDto) rfl, rfl, ?_⟩
  dsimp only [perform]
  rw [users']
  rfl

theorem emails_unique_sample : ∃ history s, Run (sampleEnv sampleSigner) history s ∧
    (Everywhere Unique history s ↔ ∀ x ∈ history, Exact (sampleEnv sampleSigner) x.1 x.2) ∧
      ∀ x ∈ history, Refuses (sampleEnv sampleSigner) x.1 x.2 := by
  obtain ⟨history, s, run, -, -⟩ := taken_run
  exact ⟨history, s, run, emails_unique_iff Mongo.Driver.standard_lawful run⟩

theorem email_taken_over : ∃ history s, Run (sampleEnv sampleSigner) history s ∧
    labels history = [firstCall, secondCall, .updateProfile (some (.num 2)) takenDto] ∧ ¬ Unique s := by
  obtain ⟨history, s, run, calls, emails⟩ := taken_run
  refine ⟨history, s, run, calls, ?_⟩
  rw [Unique, emails]
  decide

end EmailSystem

end TacoBack
