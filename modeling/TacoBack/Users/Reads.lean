import TacoBack.Config.Service
import TacoBack.Errors
import TacoBack.Lib.Aggregate

/-!
# Reads

The four read operations, over documents as they are stored, and what they keep to themselves.
-/

namespace TacoBack

open Aggregate

/-- `findFilter` casts the value to the schema of a collection, `matchFilter` does not cast. `arith` is
`(page - 1) * size` where one of the two is no whole number. -/
structure ReadEnv where
  config : Json
  findFilter : String → String → Filter
  matchFilter : Filter
  arith : Json → Json → Json

/-- A text as a filter value is compared. -/
def ReadEnv.MatchesText (env : ReadEnv) : Prop :=
  ∀ text, env.matchFilter (some (.str text)) = some fun field => field == some (.str text)

/-- The fields of a user that a list of friends or of blocked users shows. -/
def listedFields : List String := ["tid", "nick", "description", "email", "sex"]

structure GetQuestionResponseData where
  id : Option Json
  question : Option String

namespace UsersService

def profile (env : ReadEnv) (db : Db) (tid : Option Json) : Except Failure Document :=
  match env.findFilter "users" "tid" tid with
  | none => .error .castError
  | some p =>
    match (findOne db "users" "tid" p).map (exclude ["friends", "password", "groups"]) with
    | none | some [] => .error (.service .NOT_FIND_USER .BAD_REQUEST)
    | some info => .ok info

end UsersService

namespace FriendsService

def size (env : ReadEnv) : Json := (ConfigService.get env.config "system.friends.size").getD (.num 10)

def start (env : ReadEnv) (page : Option Json) : Json :=
  match page.getD (.num 1), size env with
  | .num page, .num size => .num ((page - 1) * size)
  | page, size => env.arith page size

def getPipeline (env : ReadEnv) (tid page : Option Json) : List Stage :=
  [.limit (size env),
   .skip (start env page),
   .match "source" tid,
   .lookup "users" "target" "tid" "result",
   .unwind "result",
   .project ["tag"] [
     ("tid", ["result", "tid"]),
     ("nick", ["result", "nick"]),
     ("description", ["result", "description"]),
     ("email", ["result", "email"]),
     ("sex", ["result", "sex"])]]

def get (env : ReadEnv) (db : Db) (tid page : Option Json) : Except Aggregate.Error (List Document) :=
  aggregate env.matchFilter db (getPipeline env tid page) (db "friend")

end FriendsService

namespace BlackListService

/-- The users a join finds are put into a field whose name ends in a tab, so there is nothing to unwind. -/
def blockListPipeline (tid : Option Json) : List Stage :=
  [.match "source" tid,
   .lookup "users" "target" "tid" "result\t",
   .unwind "result",
   .project [] [
     ("tid", ["result", "tid"]),
     ("nick", ["result", "nick"]),
     ("description", ["result", "description"]),
     ("email", ["result", "email"]),
     ("sex", ["result", "sex"])]]

def getBlockList (env : ReadEnv) (db : Db) (tid : Option Json) : Except Aggregate.Error (List Document) :=
  aggregate env.matchFilter db (blockListPipeline tid) (db "black-list")

end BlackListService

namespace AccountService

/-- `Object.keys(value)[0]` -/
def firstKey : Option Json → Except Failure (Option String)
  | none | some .null => .error .typeError
  | some (.obj fields) => .ok (fields.head?.map Prod.fst)
  | some (.arr items) => .ok (if items.isEmpty then none else some "0")
  | some (.str text) => .ok (if text = "" then none else some "0")
  | some _ => .ok none

def getQuestion (env : ReadEnv) (db : Db) (tid : Option Json) : Except Failure GetQuestionResponseData :=
  match env.findFilter "questions" "uid" tid with
  | none => .error .castError
  | some p =>
    match findOne db "questions" "uid" p with
    | none => .error .typeError
    | some rawData =>
      (firstKey (rawData.lookup "question")).map fun question => { id := rawData.lookup "_id", question := question }

end AccountService

/-! ### Secrets -/

/-- The same questions, whatever their answers are. -/
def SameKeys : Json → Json → Prop
  | .obj fields, .obj fields' => fields.map Prod.fst = fields'.map Prod.fst
  | value, value' => value = value'

/-- The databases differ at most in the passwords and in the answers. -/
structure SameButSecrets (db other : Db) : Prop where
  users : List.Forall₂ (Apart "password") (db "users") (other "users")
  questions : List.Forall₂ (SameBut "question" SameKeys) (db "questions") (other "questions")
  others : ∀ collection, collection ≠ "users" → collection ≠ "questions" → db collection = other collection

variable {db other : Db} {env : ReadEnv}

theorem firstKey_congr {question question' : Option Json} (same : Option.Rel SameKeys question question') :
    AccountService.firstKey question = AccountService.firstKey question' := by
  cases same with
  | none => rfl
  | @some value value' keys =>
    cases value <;> cases value'
    case obj.obj fields fields' =>
      have heads := congrArg List.head? keys
      rw [List.head?_map, List.head?_map] at heads
      exact congrArg Except.ok heads
    all_goals
      first
      | cases keys
        rfl
      | cases keys

theorem profile_blind (same : SameButSecrets db other) (tid : Option Json) :
    UsersService.profile env db tid = UsersService.profile env other tid := by
  have found : ∀ p, (findOne db "users" "tid" p).map (exclude ["friends", "password", "groups"]) =
      (findOne other "users" "tid" p).map (exclude ["friends", "password", "groups"]) := by
    intro p
    have related : Option.Rel (Apart "password") (findOne db "users" "tid" p) (findOne other "users" "tid" p) :=
      find_related same.users fun doc doc' apart => by rw [apart.lookup (by decide)]
    exact map_related related fun doc doc' apart => apart.exclude (by decide)
  unfold UsersService.profile
  split
  · rfl
  · rw [found]

theorem get_blind (same : SameButSecrets db other) (tid page : Option Json) :
    FriendsService.get env db tid page = FriendsService.get env other tid page := by
  unfold FriendsService.get
  rw [same.others "friend" (by decide) (by decide)]
  exact @aggregate_blind ⟨"users", "password"⟩ _ _ _ _ same.users rfl _

theorem getBlockList_blind (same : SameButSecrets db other) (tid : Option Json) :
    BlackListService.getBlockList env db tid = BlackListService.getBlockList env other tid := by
  unfold BlackListService.getBlockList
  rw [same.others "black-list" (by decide) (by decide)]
  exact @aggregate_blind ⟨"users", "password"⟩ _ _ _ _ same.users rfl _

theorem getQuestion_blind (same : SameButSecrets db other) (tid : Option Json) :
    AccountService.getQuestion env db tid = AccountService.getQuestion env other tid := by
  unfold AccountService.getQuestion
  split
  · rfl
  rename_i p _
  have related : Option.Rel (SameBut "question" SameKeys) (findOne db "questions" "uid" p)
      (findOne other "questions" "uid" p) :=
    find_related same.questions fun doc doc' one => by rw [one.lookup.2 "uid" (by decide)]
  generalize findOne db "questions" "uid" p = found, findOne other "questions" "uid" p = found' at related
  cases related with
  | none => rfl
  | some one =>
    simp only
    rw [firstKey_congr one.lookup.1, one.lookup.2 "_id" (by decide)]

/-- No read operation shows a password or an answer. -/
theorem reads_blind (same : SameButSecrets db other) (env : ReadEnv) (tid page : Option Json) :
    UsersService.profile env db tid = UsersService.profile env other tid ∧
      FriendsService.get env db tid page = FriendsService.get env other tid page ∧
      BlackListService.getBlockList env db tid = BlackListService.getBlockList env other tid ∧
      AccountService.getQuestion env db tid = AccountService.getQuestion env other tid :=
  ⟨profile_blind same tid, get_blind same tid page, getBlockList_blind same tid, getQuestion_blind same tid⟩

def sampleReadEnv : ReadEnv where
  config := shippedConfig
  findFilter := fun _ _ value => some fun field => field == value
  matchFilter := fun value => some fun field => field == value
  arith := fun _ _ => .float "NaN"

/-- User 1 has user 2 as a friend. -/
def sampleDb (password answer : String) : Db
  | "users" => [
      [("_id", .str "u1"), ("tid", .num 1), ("nick", .str "one"), ("password", .str password)],
      [("_id", .str "u2"), ("tid", .num 2), ("nick", .str "two"), ("password", .str password)]]
  | "questions" => [[("_id", .str "q1"), ("uid", .num 1), ("question", .obj [("Q1", .str answer)])]]
  | "friend" => [[("_id", .str "f1"), ("source", .num 1), ("target", .num 2), ("tag", .str "school")]]
  | _ => []

theorem sampleDb_same (password password' answer answer' : String) :
    SameButSecrets (sampleDb password answer) (sampleDb password' answer') where
  users := .cons rfl (.cons rfl .nil)
  questions := by
    have question : SameKeys (.obj [("Q1", .str answer)]) (.obj [("Q1", .str answer')]) := rfl
    exact .cons ((sameBut_refl "question" [("_id", .str "q1"), ("uid", .num 1)]).setField_self question) .nil
  others := by
    intro collection users questions
    unfold sampleDb
    split <;> first | rfl | contradiction

theorem reads_blind_sample :
    UsersService.profile sampleReadEnv (sampleDb "old" "A1") (some (.num 1)) =
      UsersService.profile sampleReadEnv (sampleDb "new" "A2") (some (.num 1)) ∧
    FriendsService.get sampleReadEnv (sampleDb "old" "A1") (some (.num 1)) none =
      .ok [[("_id", .str "f1"), ("tag", .str "school"), ("tid", .num 2), ("nick", .str "two")]] := by
  obtain ⟨profiles, friends, _, _⟩ := reads_blind (sampleDb_same "old" "new" "A1" "A2") sampleReadEnv (some (.num 1)) none
  refine ⟨profiles, friends.trans ?_⟩
  rfl

end TacoBack
