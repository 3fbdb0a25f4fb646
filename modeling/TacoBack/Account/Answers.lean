import TacoBack.Account.Effects
import TacoBack.Lib.Properties
import TacoBack.Lib.Stringify

/-!
# Security answers

`checkAnswer` and `forgetPassword` both compare the text of the answer with the text of the stored question.
-/

namespace TacoBack.AccountService

variable (env : AccountEnv) (idFilter : Json → Option (String → Bool))

/-- The filter on `_id` is a parameter: it reads a value as an `ObjectId`, and `none` if it is not one. -/
def checkAnswer (tid question_id question : Option Json) (s : AccountStore) : Except Failure Bool :=
  match env.driver.mixedFilter (tid.getD .null), idFilter (question_id.getD .null) with
  | some p, some q =>
    match s.questions.find? fun info => p (some info.uid) && q info._id with
    | none => .error .typeError
    | some info =>
      if Json.stringify info.question ≠ Json.stringify question then .error (.service .ANSWER_ERROR .BAD_REQUEST)
      else .ok true
  | _, _ => .error .castError

/-- The text of an `_id` finds the document with that `_id`. -/
def FindsById (id : String) : Prop := idFilter (.str id) = some fun other => decide (other = id)

/-- The fields of an object, in property order. -/
def fields {V : Type} (object : AList fun _ : String => V) : List (String × V) :=
  object.entries.map fun entry => (entry.1, entry.2)

/-- The same keys with the same values. -/
def SameMap (question : AList fun _ : String => String) (answer : AList fun _ : String => Json) : Prop :=
  ∀ key, answer.lookup key = (question.lookup key).map Json.str

/-- Both calls accept an answer if and only if it is the question as a map. -/
def ComparesMaps (tid : Json) (id new_pwd : String) (question : AList fun _ : String => String)
    (answer : AList fun _ : String => Json) (s : AccountStore) : Prop :=
  (checkAnswer env idFilter (some tid) (some (.str id)) (some (.obj (fields answer))) s = .ok true ↔
    SameMap question answer) ∧
  ((forgetPassword env (some tid) (some (.obj (fields answer))) (some (.str new_pwd)) s).1 = .ok true ↔
    SameMap question answer)

variable {env idFilter} {s : AccountStore} {tid owner : Json} {info : Questions}
  {question : AList fun _ : String => String} {answer : AList fun _ : String => Json}

theorem fields_injective {V : Type} {first second : AList fun _ : String => V} (same : fields first = fields second) :
    first = second := by
  apply AList.ext
  refine List.map_injective_iff.mpr ?_ same
  rintro ⟨key, value⟩ ⟨other, stored⟩ pair
  obtain ⟨rfl, rfl⟩ := Prod.mk.inj pair
  rfl

theorem fields_strings (question : AList fun _ : String => String) :
    fields (question.mapValues Json.str) = Json.strings (fields question) := by
  simp only [fields, Json.strings, AList.mapValues, List.map_map, Function.comp_def]

/-- The comparison of the texts, as values. -/
theorem same_text_iff : Json.stringify (some (.obj (Json.strings (fields question)))) =
      Json.stringify (some (.obj (fields answer))) ↔ answer = question.mapValues Json.str := by
  rw [Json.stringify_eq_iff, ← fields_strings]
  constructor
  · intro same
    exact fields_injective (Json.obj.inj (Option.some.inj same))
  · rintro rfl
    rfl

theorem same_iff : answer = question.mapValues Json.str ↔ answer.keys = question.keys ∧ SameMap question answer := by
  constructor
  · rintro rfl
    exact ⟨AList.keys_mapValues .., fun key => AList.lookup_mapValues _ _ key⟩
  · rintro ⟨order, same⟩
    refine AList.eq_of_lookup (order.trans (AList.keys_mapValues ..).symm) fun key => ?_
    rw [same, AList.lookup_mapValues]

/-- A further condition on the element found does not change which one is found. -/
theorem find?_and {α : Type} {p q : α → Bool} {items : List α} {item : α} (found : items.find? p = some item)
    (also : q item = true) : (items.find? fun item => p item && q item) = some item := by
  obtain ⟨hit, before, after, split, missed⟩ := List.find?_eq_some_iff_append.mp found
  refine List.find?_eq_some_iff_append.mpr ⟨by rw [hit, also]; rfl, before, after, split, fun other member => ?_⟩
  have different : p other = false := by simpa using missed other member
  rw [different]
  rfl

section Verdicts

variable (denotes : env.driver.Denotes tid owner)
  (found : s.questions.find? (fun info => Mongo.equals owner (some info.uid)) = some info)
  (stored : info.question = some (.obj (Json.strings (fields question))))

include denotes found stored

theorem checkAnswer_ok_iff (ids : FindsById idFilter info._id) :
    checkAnswer env idFilter (some tid) (some (.str info._id)) (some (.obj (fields answer))) s = .ok true ↔
      answer = question.mapValues Json.str := by
  have first : (s.questions.find? fun other => Mongo.equals owner (some other.uid) && decide (other._id = info._id)) =
      some info :=
    find?_and (q := fun other => decide (other._id = info._id)) found (decide_eq_true rfl)
  have query : env.driver.mixedFilter tid = some (Mongo.equals owner) := denotes
  have filter : idFilter (.str info._id) = some fun other => decide (other = info._id) := ids
  rw [← same_text_iff, ← stored]
  simp only [checkAnswer, Option.getD_some, query, filter, first]
  split
  · rename_i different
    exact ⟨nofun, fun same => (different same).elim⟩
  · rename_i same
    exact ⟨fun _ => not_not.mp same, fun _ => rfl⟩

omit denotes found in
/-- The comparison of values in `forgetPassword` is the one of their texts. -/
theorem questionOf_text (given : Option Json) : some (questionOf (some info)) = given ↔
    Json.stringify (some (questionOf (some info))) = Json.stringify given := by
  rw [questionOf, Option.bind_some, stored]
  exact eq_comm.trans Json.stringify_eq_iff.symm

theorem forgetPassword_ok_iff (new_pwd : String) :
    (forgetPassword env (some tid) (some (.obj (fields answer))) (some (.str new_pwd)) s).1 = .ok true ↔
      answer = question.mapValues Json.str := by
  have compared : questionOf (some info) = .obj (Json.strings (fields question)) := by
    rw [questionOf, Option.bind_some, stored]
  rw [forgetPassword_eq denotes, found, ← same_text_iff, ← compared]
  split
  · rename_i same
    exact ⟨fun _ => (questionOf_text stored _).mp same, fun _ => rfl⟩
  · rename_i different
    exact ⟨nofun, fun same => (different ((questionOf_text stored _).mpr same)).elim⟩

theorem verdicts_agree (ids : FindsById idFilter info._id) (new_pwd : String) :
    checkAnswer env idFilter (some tid) (some (.str info._id)) (some (.obj (fields answer))) s = .ok true ↔
      (forgetPassword env (some tid) (some (.obj (fields answer))) (some (.str new_pwd)) s).1 = .ok true :=
  (checkAnswer_ok_iff denotes found stored ids).trans
    (forgetPassword_ok_iff denotes found stored new_pwd).symm

/-- Both compare maps for exactly the answers that are no reordering of the question. -/
theorem comparesMaps_iff (ids : FindsById idFilter info._id) (new_pwd : String)
    (answer : AList fun _ : String => Json) : ComparesMaps env idFilter tid info._id new_pwd question answer s ↔
      (SameMap question answer → answer.keys = question.keys) := by
  rw [ComparesMaps, checkAnswer_ok_iff denotes found stored ids,
    forgetPassword_ok_iff denotes found stored, same_iff]
  constructor
  · rintro ⟨property, -⟩ same
    exact (property.mpr same).1
  · intro order
    have both : answer.keys = question.keys ∧ SameMap question answer ↔ SameMap question answer :=
      ⟨And.right, fun same => ⟨order same, same⟩⟩
    exact ⟨both, both⟩

end Verdicts

/-! ### Two questions -/

/-- The filter for `_id`s in lower case. -/
def sampleIds : Json → Option (String → Bool)
  | .null => some fun _ => false
  | .str text =>
    if text.toList.length = 24 ∧ text.toList.all fun c => c.isDigit || c ∈ ['a', 'b', 'c', 'd', 'e', 'f'] then
      some fun other => decide (other = text)
    else none
  | _ => none

def sampleQuestion : AList fun _ : String => String := ⟨[⟨"Q1", "A1"⟩, ⟨"Q2", "A2"⟩], by simp⟩

def reordered : AList fun _ : String => Json := ⟨[⟨"Q2", .str "A2"⟩, ⟨"Q1", .str "A1"⟩], by simp⟩

def sampleInfo : Questions where
  _id := "660a3b1e9c1f4e0012ab34ce"
  uid := .num 1
  question := some (.obj [("Q1", .str "A1"), ("Q2", .str "A2")])

def sampleAsked : AccountStore := { sampleRegistered 0 with questions := [sampleInfo] }

theorem sampleIds_find : FindsById sampleIds sampleInfo._id := by
  rw [FindsById, sampleIds, if_pos (by decide)]

theorem comparesMaps_sample :
    ComparesMaps (sampleEnv sampleSigner) sampleIds (.num 1) sampleInfo._id "newpwd" sampleQuestion reordered
        sampleAsked ↔
      (SameMap sampleQuestion reordered → reordered.keys = sampleQuestion.keys) := by
  have found : sampleAsked.questions.find? (fun info => Mongo.equals (.num 1) (some info.uid)) = some sampleInfo := rfl
  exact comparesMaps_iff (Mongo.Driver.standard_lawful.denotes_num 1) found rfl
    sampleIds_find "newpwd" reordered

theorem sameMap_reordered : SameMap sampleQuestion reordered := by
  intro key
  by_cases first : key = "Q1"
  · subst first
    rfl
  · by_cases second : key = "Q2"
    · subst second
      rfl
    · simp [reordered, sampleQuestion, AList.lookup, first, second]

/-- The right answers in another order are refused by both calls. -/
theorem reordered_refused :
    checkAnswer (sampleEnv sampleSigner) sampleIds (some (.num 1)) (some (.str sampleInfo._id))
      (some (.obj (fields reordered))) sampleAsked = .error (.service .ANSWER_ERROR .BAD_REQUEST) ∧
    (forgetPassword (sampleEnv sampleSigner) (some (.num 1)) (some (.obj (fields reordered))) (some (.str "newpwd"))
      sampleAsked).1 = .error (.service .ANSWER_ERROR .BAD_REQUEST) ∧
    ¬ ComparesMaps (sampleEnv sampleSigner) sampleIds (.num 1) sampleInfo._id "newpwd" sampleQuestion reordered
      sampleAsked := by
  have refused : (forgetPassword (sampleEnv sampleSigner) (some (.num 1)) (some (.obj (fields reordered)))
      (some (.str "newpwd")) sampleAsked).1 = .error (.service .ANSWER_ERROR .BAD_REQUEST) := rfl
  refine ⟨rfl, refused, fun property => ?_⟩
  cases refused.symm.trans (property.2.mpr sameMap_reordered)

end TacoBack.AccountService
