import TacoBack.Account.Records

/-!
# Password resets

`forgetPassword` compares the answer with the stored question, and with the text `{}` where there is
none.
-/

namespace TacoBack.AccountService

variable {env : AccountEnv} {s : AccountStore} {tid answer new_pwd : Option Json}

/-- The tid, a plain value, has a question record with an object in it, and the answer is that object. -/
def Answered (tid answer : Option Json) (s : AccountStore) : Prop :=
  ∃ value info fields, tid = some value ∧ value.isContainer = false ∧ info ∈ s.questions ∧
    Mongo.equals value (some info.uid) = true ∧ info.question = some (.obj fields) ∧ answer = some (.obj fields)

/-- A reset replaces a password only if it is answered, and throws `ANSWER_ERROR` if it is not. -/
def ResetSound (env : AccountEnv) (tid answer new_pwd : Option Json) (s : AccountStore) : Prop :=
  ((forgetPassword env tid answer new_pwd s).2.users ≠ s.users → Answered tid answer s) ∧
    (¬ Answered tid answer s →
      forgetPassword env tid answer new_pwd s = (.error (.service .ANSWER_ERROR .BAD_REQUEST), s))

/-- The query for the question is valid, and the answer is neither the text `{}` where it finds no
question, nor a question that is no object, nor one that an operator finds. -/
def Checked (env : AccountEnv) (tid answer : Option Json) (s : AccountStore) : Prop :=
  ∃ p, env.driver.mixedFilter (tid.getD .null) = some p ∧
    match (s.questions.find? fun info => p (some info.uid)).bind Questions.question with
    | none | some .null => answer ≠ some (.str "{}")
    | some (.obj fields) => (∃ value, tid = some value ∧ value.isContainer = false) ∨ answer ≠ some (.obj fields)
    | some question => answer ≠ some question

theorem forgetUpdate_error {e : Failure} (thrown : forgetUpdate env tid new_pwd s = .error e) :
    e = .typeError ∨ e = .castError := by
  unfold forgetUpdate digest at thrown
  split at thrown
  · rename_i digested
    split at digested
    · cases digested
    · exact .inl ((Except.error.inj thrown).symm.trans (Except.error.inj digested).symm)
  · split at thrown
    · cases thrown
    · exact .inr (Except.error.inj thrown).symm

theorem refused_iff : forgetPassword env tid answer new_pwd s = (.error (.service .ANSWER_ERROR .BAD_REQUEST), s) ↔
    ∃ p, env.driver.mixedFilter (tid.getD .null) = some p ∧
      answer ≠ some (questionOf (s.questions.find? fun info => p (some info.uid))) := by
  unfold forgetPassword forgetFind
  cases query : env.driver.mixedFilter (tid.getD .null) with
  | none => simp
  | some p =>
    dsimp only
    by_cases same : some (questionOf (s.questions.find? fun info => p (some info.uid))) = answer
    · rw [if_pos same]
      refine iff_of_false (fun refused => ?_) fun ⟨_, same', different⟩ => ?_
      · dsimp only at refused
        split at refused
        · rename_i thrown
          obtain ⟨same', -⟩ := Prod.mk.inj refused
          obtain rfl := Except.error.inj same'
          rcases forgetUpdate_error thrown with other | other <;> cases other
        · cases refused
      · obtain rfl := Option.some.inj same'
        exact different same.symm
    · rw [if_neg same]
      exact iff_of_true rfl ⟨p, rfl, fun same' => same same'.symm⟩

theorem questionOf_eq {info : Option Questions} {question : Json} (found : info.bind Questions.question = some question)
    (present : question ≠ .null) : questionOf info = question := by
  unfold questionOf
  rw [found]
  cases question <;> first | rfl | exact (present rfl).elim

theorem answered_of_found {p : Option Json → Bool} {value : Json} {fields : List (String × Json)}
    (lawful : env.driver.Lawful) (query : env.driver.mixedFilter value = some p) (plain : value.isContainer = false)
    (found : (s.questions.find? fun info => p (some info.uid)).bind Questions.question = some (.obj fields)) :
    Answered (some value) (some (.obj fields)) s := by
  obtain ⟨info, first, question⟩ := Option.bind_eq_some_iff.mp found
  rw [lawful.mixedFilter_plain value plain] at query
  obtain rfl := Option.some.inj query
  have hit : Mongo.equals value (some info.uid) = true := by simpa using List.find?_some first
  exact ⟨value, info, fields, rfl, plain, List.mem_of_find?_eq_some first, hit, question, rfl⟩

theorem Answered.valid (lawful : env.driver.Lawful) (answered : Answered tid answer s) :
    ∃ p, env.driver.mixedFilter (tid.getD .null) = some p := by
  obtain ⟨value, _, _, rfl, plain, -⟩ := answered
  exact ⟨_, lawful.mixedFilter_plain value plain⟩

theorem checked_iff (lawful : env.driver.Lawful) : Checked env tid answer s ↔
    ∃ p, env.driver.mixedFilter (tid.getD .null) = some p ∧
      (Answered tid answer s ∨ answer ≠ some (questionOf (s.questions.find? fun info => p (some info.uid)))) := by
  refine exists_congr fun p => and_congr_right fun query => ?_
  -- Only an object answers, so the two other kinds of question leave the comparison alone.
  have text_unanswered : Answered tid answer s → answer ≠ some (.str "{}") := by
    rintro ⟨_, _, _, -, -, -, -, -, rfl⟩
    simp
  split
  · rename_i found
    rw [questionOf, found]
    exact ⟨.inr, fun either => either.elim text_unanswered id⟩
  · rename_i found
    rw [questionOf, found]
    exact ⟨.inr, fun either => either.elim text_unanswered id⟩
  · rename_i fields found
    rw [questionOf_eq found (by simp)]
    constructor
    · rintro (⟨value, rfl, plain⟩ | different)
      · by_cases same : answer = some (.obj fields)
        · exact .inl (same ▸ answered_of_found lawful query plain found)
        · exact .inr same
      · exact .inr different
    · rintro (answered | different)
      · obtain ⟨value, _, _, rfl, plain, -⟩ := answered
        exact .inl ⟨value, rfl, plain⟩
      · exact .inr different
  · rename_i question present noObject found
    rw [questionOf_eq found present]
    refine ⟨.inr, fun either => either.elim ?_ id⟩
    rintro ⟨_, _, fields, -, -, -, -, -, rfl⟩ same
    exact noObject fields (Option.some.inj same).symm

theorem resetSound_iff (lawful : env.driver.Lawful) (tid answer new_pwd : Option Json) (s : AccountStore) :
    ResetSound env tid answer new_pwd s ↔ Checked env tid answer s := by
  rw [checked_iff lawful]
  constructor
  · rintro ⟨-, refuses⟩
    by_cases answered : Answered tid answer s
    · obtain ⟨p, query⟩ := answered.valid lawful
      exact ⟨p, query, .inl answered⟩
    · obtain ⟨p, query, refused⟩ := refused_iff.mp (refuses answered)
      exact ⟨p, query, .inr refused⟩
  · rintro ⟨p, query, either⟩
    have refuses : ¬ Answered tid answer s →
        forgetPassword env tid answer new_pwd s = (.error (.service .ANSWER_ERROR .BAD_REQUEST), s) :=
      fun unanswered => refused_iff.mpr ⟨p, query, either.resolve_left unanswered⟩
    refine ⟨fun changed => ?_, refuses⟩
    by_contra unanswered
    exact changed (by rw [refuses unanswered])

theorem resetSound_sample :
    ResetSound (sampleEnv sampleSigner) (some (.num 1)) (some (.obj [("Q1", .str "A1")])) (some (.str "newpwd"))
        (sampleRegistered 0) ↔
      Checked (sampleEnv sampleSigner) (some (.num 1)) (some (.obj [("Q1", .str "A1")])) (sampleRegistered 0) :=
  resetSound_iff Mongo.Driver.standard_lawful _ _ _ _

/-- User 1 registers without a question, and anyone resets his password with the answer `{}`, a text. -/
theorem default_answer_resets : ∃ s t, registe (sampleEnv sampleSigner) "660a3b1e9c1f4e0012ab34cf"
      "660a3b1e9c1f4e0012ab34d0" secondBody sampleStart = (.ok (.num 1), s) ∧
    forgetPassword (sampleEnv sampleSigner) (some (.num 1)) (some (.str "{}")) (some (.str "newpwd")) s = (.ok true, t) ∧
    t.users ≠ s.users ∧ ¬ ResetSound (sampleEnv sampleSigner) (some (.num 1)) (some (.str "{}")) (some (.str "newpwd")) s := by
  have changed : ∀ t : AccountStore, t.users.map Users.password = [some (sampleSha256 "newpwd")] → ∀ s : AccountStore,
      s.users.map Users.password = [some (sampleSha256 "123456789Sd")] → t.users ≠ s.users := by
    intro t replaced s stored same
    rw [same, stored] at replaced
    exact absurd replaced (by decide)
  refine ⟨_, _, rfl, rfl, changed _ rfl _ rfl, fun sound => ?_⟩
  obtain ⟨_, _, _, -, -, -, -, -, text⟩ := sound.1 (changed _ rfl _ rfl)
  cases text

end TacoBack.AccountService
