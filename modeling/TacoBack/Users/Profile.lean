import TacoBack.Lib.Update

/-!
# Profile updates

`updateProfile` hands the body of the request to `findOneAndUpdate` as it is.
-/

namespace TacoBack

open Aggregate

/-- `implicit` casts the fields that every schema has, `_id` and `__v`. -/
structure ProfileEnv where
  driver : Mongo.Driver
  implicit : String → Json → Option Json
  operator : String → String → Json → Option (List Update.Edit)

/-- A value or a query that cannot be cast, or an update that the database refuses. -/
inductive ProfileError where
  | castError
  | refused

namespace UsersService

def usersSchema : List String := ["_id", "__v", "tid", "nick", "description", "password", "email", "sex"]

def storedText : Option String → Json
  | none => .null
  | some text => .str text

variable (env : ProfileEnv)

/-- `tid` is of mixed type, and any value is one for it. -/
def usersDriver : Update.Driver where
  schema := usersSchema
  cast field value :=
    if field = "tid" then some value
    else if field = "_id" ∨ field = "__v" then env.implicit field value
    else (env.driver.castString value).map storedText
  operator := env.operator

def tidFilter (tid : Option Json) : Option (Document → Bool) :=
  (env.driver.mixedFilter (tid.getD .null)).map fun p doc => p (doc.lookup "tid")

/-- The document after the update, projected, or `none` for `null`. -/
def updateProfile (tid : Option Json) (newProfile : List (String × Json)) (users : List Document) :
    Except ProfileError (Option Document) × List Document :=
  match tidFilter env tid, Update.castUpdate (usersDriver env) newProfile with
  | some p, some edits =>
    match users.find? p with
    | none => (.ok none, users)
    | some doc =>
      match Update.apply "_id" edits doc with
      | none => (.error .refused, users)
      | some info =>
        (.ok (some (projectDoc ["tid", "nick", "description", "birthday", "email"] [] info)),
          Mongo.updateOne p (fun _ => info) users)
  | _, _ => (.error .castError, users)

def profileFields : List String := ["nick", "description", "birthday", "email"]

/-- The document of the user with that tid, which is a plain value. -/
def Owns (tid : Option Json) (doc : Document) : Prop :=
  (tid.getD .null).isContainer = false ∧ ∃ p, tidFilter env tid = some p ∧ p doc = true

/-- No document comes or goes, and only fields of the profile of the user with that tid change. -/
def Confined (tid : Option Json) (newProfile : List (String × Json)) (users : List Document) : Prop :=
  (updateProfile env tid newProfile users).2.length = users.length ∧
    ∀ (i : Nat) doc doc', users[i]? = some doc → (updateProfile env tid newProfile users).2[i]? = some doc' →
      ∀ field, doc'.lookup field ≠ doc.lookup field → field ∈ profileFields ∧ Owns env tid doc

/-- No user is found, or the update is refused, or each field it names is one of the profile of a plain
tid or gets the value it has. -/
def Harmless (tid : Option Json) (newProfile : List (String × Json)) (users : List Document) : Prop :=
  ∀ p edits doc, tidFilter env tid = some p → Update.castUpdate (usersDriver env) newProfile = some edits →
    users.find? p = some doc → (Update.apply "_id" edits doc).isSome →
      ∀ edit ∈ edits, (edit.field ∈ profileFields ∧ (tid.getD .null).isContainer = false) ∨
        edit.value doc = some (doc.lookup edit.field)

variable {env} {tid : Option Json} {newProfile : List (String × Json)} {users : List Document}

theorem updateProfile_cases (env : ProfileEnv) (tid : Option Json) (newProfile : List (String × Json))
    (users : List Document) :
    (updateProfile env tid newProfile users).2 = users ∨
    ∃ p edits doc info, tidFilter env tid = some p ∧ Update.castUpdate (usersDriver env) newProfile = some edits ∧
      users.find? p = some doc ∧ Update.apply "_id" edits doc = some info ∧
      (updateProfile env tid newProfile users).2 = Mongo.updateOne p (fun _ => info) users := by
  unfold updateProfile
  split
  · rename_i p edits query cast
    split
    · exact .inl rfl
    · rename_i doc found
      split
      · exact .inl rfl
      · rename_i info applied
        exact .inr ⟨p, edits, doc, info, query, cast, found, applied, rfl⟩
  · exact .inl rfl

theorem updateProfile_eq {p : Document → Bool} {edits : List Update.Edit} {doc info : Document}
    (query : tidFilter env tid = some p) (cast : Update.castUpdate (usersDriver env) newProfile = some edits)
    (found : users.find? p = some doc) (applied : Update.apply "_id" edits doc = some info) :
    (updateProfile env tid newProfile users).2 = Mongo.updateOne p (fun _ => info) users := by
  simp only [updateProfile, query, cast, found, applied]

/-- Without operators in the body, an update of a plain tid that goes through is harmless exactly if each
key of the body that is in the schema is one of the profile, or is set to the value it has. -/
theorem harmless_plain_iff {p : Document → Bool} {doc : Document} {edits : List Update.Edit}
    (plain : ∀ entry ∈ newProfile, Update.isOperator entry.1 = false) (own : (tid.getD .null).isContainer = false)
    (query : tidFilter env tid = some p) (cast : Update.castUpdate (usersDriver env) newProfile = some edits)
    (found : users.find? p = some doc) (applied : (Update.apply "_id" edits doc).isSome) :
    Harmless env tid newProfile users ↔
      ∀ entry ∈ newProfile, entry.1 ∈ usersSchema → entry.1 ∈ profileFields ∨
        ((usersDriver env).cast entry.1 entry.2).map some = some (doc.lookup entry.1) := by
  have each := @Update.forall_edits_iff _ doc _ _ plain cast fun field value =>
    (field ∈ profileFields ∧ (tid.getD .null).isContainer = false) ∨ value = some (doc.lookup field)
  constructor
  · intro harmless
    have kept := each.mp (harmless p edits doc query cast found applied)
    exact fun entry member known => (kept entry member known).imp_left And.left
  · intro kept p' edits' doc' query' cast' found' _
    obtain rfl := Option.some.inj (query.symm.trans query')
    obtain rfl := Option.some.inj (cast.symm.trans cast')
    obtain rfl := Option.some.inj (found.symm.trans found')
    exact each.mpr fun entry member known => (kept entry member known).imp_left fun listed => ⟨listed, own⟩

def sampleProfileEnv : ProfileEnv where
  driver := .standard
  implicit _ value := some value
  operator _ _ _ := none

def sampleUser : Document :=
  [("_id", .str "660a3b1e9c1f4e0012ab34cd"), ("tid", .num 1), ("password", .str "6e61a97b"),
    ("email", .str "test@no-reply.com"), ("__v", .num 0)]

end UsersService

end TacoBack
