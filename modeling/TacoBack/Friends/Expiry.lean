import TacoBack.Friends.Blocked

/-!
# The two expiries of a request

`createRequest` adds the lifetime to the clock. `addRequest` adds it once more, after it has serialised
the record, so only the score is raised.
-/

namespace TacoBack.ExpirySystem

open RequestService Transition

/-- A call of `FriendsService.add`, at the clock it reads, or of `addRequest` by another service. -/
inductive Call where
  | add (now : Int) (source : String) (dto : AddFriendDto)
  | addRequest (request : Request)

variable (env : Env) (unanswered : Redis.ReplyError → Failure) (friends : List Friend)

def perform (db : Redis.Db Stored) : Call → Redis.Db Stored
  | .add now source dto => (FriendsService.add env unanswered now friends source dto db).1
  | .addRequest request => (RequestService.addRequest env request db).1

def Step (db : Redis.Db Stored) (call : Call) (after : Redis.Db Stored) : Prop :=
  after = perform env unanswered friends db call

abbrev Run : List (Redis.Db Stored × Call) → Redis.Db Stored → Prop :=
  Transition.Run (Step env unanswered friends) fun _ => none

/-- The request that a call files, if it files one. -/
def filed : Call → Option Request
  | .add now source dto =>
    if FriendsService.hasFriend friends source dto.tid then none
    else some (FriendsService.addedRequest env now source dto)
  | .addRequest request => some request

/-- The score of a rid in `request:split:<tid>`. -/
def scoreOf (db : Redis.Db Stored) (tid rid : String) : Option Int :=
  match Redis.zsetAt db (REQUEST_HASH_KEY_NAMESPACE tid) with
  | .ok scores => scores.lookup rid
  | .error _ => none

/-- The score of each stored request is the expiry in its record. -/
def ExpiriesAgree (db : Redis.Db Stored) : Prop :=
  ∀ tid rid request, Redis.Holds db (REQUEST_NAMESPACE tid) rid (.record request) →
    scoreOf db tid rid = some request.expire

/-- A stored request that has a score has the expiry in its record, raised, as its score. -/
def Raised (db : Redis.Db Stored) : Prop :=
  ∀ tid rid request, Redis.Holds db (REQUEST_NAMESPACE tid) rid (.record request) →
    ∀ n, scoreOf db tid rid = some n → n = raisedExpire env request

/-- The call files no request, or one on whose expiry the lifetime is lost by rounding, and whose score can
be stored. -/
def Harmless (db : Redis.Db Stored) (call : Call) : Prop :=
  ∀ request, filed env friends call = some request →
    (∃ fields, Redis.hashAt db (REQUEST_NAMESPACE request.recive) = .ok fields) →
      raisedExpire env request = request.expire ∧
        ∃ scores, Redis.zsetAt db (REQUEST_HASH_KEY_NAMESPACE request.recive) = .ok scores

/-- The lifetime is added to the expiry of each request that is filed without rounding. -/
def Unrounded (calls : List Call) : Prop :=
  ∀ call ∈ calls, ∀ request, filed env friends call = some request →
    (request.expire + env.requestExpire).natAbs ≤ 2 ^ 53

def HasRequest (db : Redis.Db Stored) : Prop :=
  ∃ tid rid request, Redis.Holds db (REQUEST_NAMESPACE tid) rid (.record request)

variable {env unanswered friends} {db hashed after : Redis.Db Stored} {h : List (Redis.Db Stored × Call)}
  {request : Request} {tid rid : String}

theorem perform_eq (db : Redis.Db Stored) (call : Call) : perform env unanswered friends db call =
    match filed env friends call with
    | none => db
    | some request => (RequestService.addRequest env request db).1 := by
  cases call with
  | add now source dto =>
    rw [perform, FriendsService.add, filed]
    by_cases has : FriendsService.hasFriend friends source dto.tid
    · rw [if_pos has, if_pos has]
    · rw [if_neg has, if_neg has]
      dsimp only
      split <;> rename_i done <;> rw [done]
  | addRequest request => rfl

/-! ### Scores after an addRequest -/

theorem scoreOf_congr {db' : Redis.Db Stored} (rid : String)
    (same : db (REQUEST_HASH_KEY_NAMESPACE tid) = db' (REQUEST_HASH_KEY_NAMESPACE tid)) :
    scoreOf db tid rid = scoreOf db' tid rid := by
  rw [scoreOf, scoreOf, Redis.zsetAt_congr same]

/-- Where `HSET` writes the key of a sorted set, it is none. -/
theorem scoreOf_hset (wrote : addHset env request db = .ok hashed) (tid rid : String) :
    scoreOf hashed tid rid = none ∨ scoreOf hashed tid rid = scoreOf db tid rid := by
  by_cases same : REQUEST_HASH_KEY_NAMESPACE tid = REQUEST_NAMESPACE request.recive
  · left
    rw [scoreOf, same, Redis.zsetAt_of_holds (holds_addHset wrote)]
  · exact .inr (scoreOf_congr rid (Redis.hset_of_ne wrote same))

theorem scoreOf_hset_of_some (wrote : addHset env request db = .ok hashed) {n : Int}
    (scored : scoreOf db tid rid = some n) : scoreOf hashed tid rid = some n := by
  by_cases same : REQUEST_HASH_KEY_NAMESPACE tid = REQUEST_NAMESPACE request.recive
  · obtain ⟨fields, read, -⟩ := Redis.map_ok.mp wrote
    rw [scoreOf, same] at scored
    unfold Redis.hashAt at read
    unfold Redis.zsetAt at scored
    cases held : db (REQUEST_NAMESPACE request.recive) with
    | none => simp [held] at scored
    | some value => cases value <;> simp_all
  · exact (scoreOf_congr rid (Redis.hset_of_ne wrote same)).trans scored

theorem scoreOf_zadd (ranked : addZadd env request hashed = .ok after) (tid rid : String) :
    scoreOf after tid rid = if tid = request.recive ∧ rid = ridOf env request
      then some (raisedExpire env request) else scoreOf hashed tid rid := by
  by_cases own : tid = request.recive
  · subst own
    obtain ⟨scores, read, rfl⟩ := Redis.map_ok.mp ranked
    rw [scoreOf, scoreOf, read, Redis.zsetAt, Function.update_self]
    by_cases new : rid = ridOf env request
    · rw [if_pos ⟨rfl, new⟩, new]
      exact AList.lookup_insert scores
    · rw [if_neg fun both => new both.2]
      exact AList.lookup_insert_ne new
  · rw [if_neg fun both => own both.1]
    exact scoreOf_congr rid (Redis.zadd_of_ne ranked fun same => own (splitNamespace_inj same))

theorem scoreOf_of_zadd_error (refused : ∃ e, addZadd env request hashed = .error e) (rid : String) :
    scoreOf hashed request.recive rid = none := by
  obtain ⟨e, refused⟩ := refused
  unfold addZadd Redis.zadd at refused
  rw [scoreOf]
  cases read : Redis.zsetAt hashed (REQUEST_HASH_KEY_NAMESPACE request.recive) with
  | error e => rfl
  | ok scores =>
    rw [read] at refused
    cases refused

/-! ### Steps -/

/-- What is stored after an `addRequest`, besides the new record, was stored before. -/
theorem holds_addRequest_cases (wrote : addHset env request db = .ok hashed) {other : Request}
    (held : Redis.Holds (RequestService.addRequest env request db).1 (REQUEST_NAMESPACE tid) rid (.record other)) :
    (tid = request.recive ∧ rid = ridOf env request ∧ other = request) ∨
      (¬ (tid = request.recive ∧ rid = ridOf env request) ∧
        Redis.Holds db (REQUEST_NAMESPACE tid) rid (.record other)) := by
  by_cases own : tid = request.recive ∧ rid = ridOf env request
  · obtain ⟨rfl, rfl⟩ := own
    have same := Option.some.inj (Except.ok.inj (held.symm.trans (holds_added wrote)))
    exact .inl ⟨rfl, rfl, Stored.record.inj same⟩
  · rcases (Redis.holds_hset wrote).mp ((holds_addRequest wrote).mp held) with ⟨key, field, -⟩ | ⟨-, before⟩
    · exact (own ⟨requestNamespace_inj key, field⟩).elim
    · exact .inr ⟨own, before⟩

theorem ExpiriesAgree.addRequest_iff (agree : ExpiriesAgree db) (request : Request) :
    ExpiriesAgree (RequestService.addRequest env request db).1 ↔
      ((∃ fields, Redis.hashAt db (REQUEST_NAMESPACE request.recive) = .ok fields) →
        raisedExpire env request = request.expire ∧
          ∃ scores, Redis.zsetAt db (REQUEST_HASH_KEY_NAMESPACE request.recive) = .ok scores) := by
  rcases addRequest_cases env request db with ⟨⟨e, refused⟩, same⟩ | ⟨hashed, wrote, rest⟩
  · rw [same]
    refine iff_of_true agree ?_
    rintro ⟨fields, read⟩
    cases refused.symm.trans (Redis.hset_ok _ _ read)
  have kept : Redis.zsetAt hashed (REQUEST_HASH_KEY_NAMESPACE request.recive) =
      Redis.zsetAt db (REQUEST_HASH_KEY_NAMESPACE request.recive) :=
    Redis.zsetAt_congr (Redis.hset_of_ne wrote (split_ne_namespace _))
  constructor
  · intro after _
    have scored := after _ _ _ (holds_added wrote)
    rcases rest with ⟨refused, same⟩ | ranked
    · rw [same, scoreOf_of_zadd_error refused] at scored
      cases scored
    · rw [scoreOf_zadd ranked, if_pos ⟨rfl, rfl⟩] at scored
      obtain ⟨scores, read, -⟩ := Redis.map_ok.mp ranked
      exact ⟨Option.some.inj scored, scores, kept ▸ read⟩
  · intro harmless tid rid other held
    obtain ⟨fields, read, -⟩ := Redis.map_ok.mp wrote
    obtain ⟨lost, scores, zset⟩ := harmless ⟨fields, read⟩
    have ranked : addZadd env request hashed = .ok (RequestService.addRequest env request db).1 := by
      rcases rest with ⟨⟨e, refused⟩, -⟩ | ranked
      · cases refused.symm.trans (Redis.zadd_ok _ _ (kept.trans zset))
      · exact ranked
    rw [scoreOf_zadd ranked]
    rcases holds_addRequest_cases wrote held with ⟨rfl, rfl, rfl⟩ | ⟨different, before⟩
    · rw [if_pos ⟨rfl, rfl⟩, lost]
    · rw [if_neg different]
      exact scoreOf_hset_of_some wrote (agree tid rid other before)

theorem agree_iff_harmless (agree : ExpiriesAgree db) (call : Call) :
    ExpiriesAgree (perform env unanswered friends db call) ↔ Harmless env friends db call := by
  rw [perform_eq, Harmless]
  cases filed env friends call with
  | none => exact iff_of_true agree fun _ none => by cases none
  | some request => simpa using agree.addRequest_iff request

/-- A new record either gets its score or has none. -/
theorem Raised.addRequest (raised : Raised env db) (request : Request) :
    Raised env (RequestService.addRequest env request db).1 := by
  rcases addRequest_cases env request db with ⟨-, same⟩ | ⟨hashed, wrote, rest⟩
  · rwa [same]
  intro tid rid other held n scored
  rcases holds_addRequest_cases wrote held with ⟨rfl, rfl, rfl⟩ | ⟨different, before⟩
  · rcases rest with ⟨refused, same⟩ | ranked
    · rw [same, scoreOf_of_zadd_error refused] at scored
      cases scored
    · rw [scoreOf_zadd ranked, if_pos ⟨rfl, rfl⟩] at scored
      exact (Option.some.inj scored).symm
  · have kept : scoreOf hashed tid rid = some n := by
      rcases rest with ⟨-, same⟩ | ranked
      · rwa [same] at scored
      · rwa [scoreOf_zadd ranked, if_neg different] at scored
    rcases scoreOf_hset wrote tid rid with none | same
    · rw [none] at kept
      cases kept
    · exact raised tid rid other before n (same.symm.trans kept)

/-! ### Runs -/

theorem HasRequest.addRequest (has : HasRequest db) (request : Request) :
    HasRequest (RequestService.addRequest env request db).1 := by
  rcases addRequest_cases env request db with ⟨-, same⟩ | ⟨hashed, wrote, -⟩
  · rwa [same]
  · exact ⟨_, _, request, holds_added wrote⟩

theorem hasRequest_first (env : Env) (request : Request) :
    HasRequest (RequestService.addRequest env request fun _ => none).1 := by
  have wrote : addHset env request (fun _ => none) = .ok _ := Redis.hset_ok _ _ rfl
  exact ⟨_, _, request, holds_added wrote⟩

/-- A run has stored nothing, because all its calls were between friends, or it keeps a request. -/
theorem run_stores (run : Run env unanswered friends h db) :
    ((∀ call ∈ labels h, filed env friends call = none) ∧ db = fun _ => none) ∨
      ((∃ call ∈ labels h, filed env friends call ≠ none) ∧ HasRequest db) := by
  induction run with
  | nil => exact .inl ⟨by simp, rfl⟩
  | @snoc past state next call before taken ih =>
    obtain rfl := taken
    rw [labels_append, labels_cons, labels_nil, perform_eq]
    cases files : filed env friends call with
    | none =>
      refine ih.imp (fun nothing => ⟨?_, nothing.2⟩) fun some => ⟨?_, some.2⟩
      · rw [List.forall_mem_append, List.forall_mem_singleton]
        exact ⟨nothing.1, files⟩
      · obtain ⟨earlier, member, filing⟩ := some.1
        exact ⟨earlier, List.mem_append_left _ member, filing⟩
    | some request =>
      refine .inr ⟨⟨call, by simp, by simp [files]⟩, ?_⟩
      rcases ih with ⟨-, rfl⟩ | ⟨-, has⟩
      · exact hasRequest_first env request
      · exact has.addRequest request

theorem run_filed (run : Run env unanswered friends h db)
    (held : Redis.Holds db (REQUEST_NAMESPACE tid) rid (.record request)) :
    ∃ call ∈ labels h, filed env friends call = some request := by
  induction run with
  | nil => exact (Redis.holds_empty held).elim
  | @snoc past state next call before taken ih =>
    obtain rfl := taken
    rw [perform_eq] at held
    have earlier : Redis.Holds state (REQUEST_NAMESPACE tid) rid (.record request) →
        ∃ other ∈ labels (past ++ [(state, call)]), filed env friends other = some request := fun old => by
      obtain ⟨other, member, files⟩ := ih old
      exact ⟨other, by simp [member], files⟩
    cases files : filed env friends call with
    | none =>
      rw [files] at held
      exact earlier held
    | some added =>
      rw [files] at held
      rcases addRequest_cases env added state with ⟨-, same⟩ | ⟨hashed, wrote, -⟩
      · exact earlier (same ▸ held)
      · rcases holds_addRequest_cases wrote held with ⟨-, -, rfl⟩ | ⟨-, old⟩
        · exact ⟨call, by simp, files⟩
        · exact earlier old

theorem run_raised (run : Run env unanswered friends h db) : Raised env db := by
  refine run.preserved (fun _ _ _ held => (Redis.holds_empty held).elim) fun state call next raised taken => ?_
  obtain rfl := taken
  rw [perform_eq]
  cases filed env friends call with
  | none => exact raised
  | some request => exact raised.addRequest request

/-- Where no sum is rounded, the two expiries agree in just the states that have no request: those that
only an `add` between friends has led to. -/
theorem agree_iff_unfiled (run : Run env unanswered friends h db) (positive : 0 < env.requestExpire)
    (unrounded : Unrounded env friends (labels h)) :
    ExpiriesAgree db ↔ ∀ call ∈ labels h, filed env friends call = none := by
  rcases run_stores run with ⟨nothing, rfl⟩ | ⟨⟨call, member, filing⟩, tid, rid, request, held⟩
  · exact iff_of_true (fun _ _ _ held => (Redis.holds_empty held).elim) nothing
  · refine iff_of_false (fun agree => ?_) fun nothing => filing (nothing call member)
    have doubled := run_raised run tid rid request held _ (agree tid rid request held)
    obtain ⟨other, filed, files⟩ := run_filed run held
    rw [raisedExpire, Double.add, Double.round_of_le (unrounded other filed request files)] at doubled
    omega

/-- The two expiries agree everywhere in exactly the runs whose calls are harmless. A run without rounding
is one of these only if no call of it files a request. -/
theorem expiries_agree_iff (run : Run env unanswered friends h db) :
    (Everywhere ExpiriesAgree h db ↔ ∀ x ∈ h, Harmless env friends x.1 x.2) ∧
      (0 < env.requestExpire → Unrounded env friends (labels h) →
        (ExpiriesAgree db ↔ ∀ call ∈ labels h, filed env friends call = none)) := by
  refine ⟨run.everywhere_iff (fun _ _ _ held => (Redis.holds_empty held).elim) ?_, agree_iff_unfiled run⟩
  rintro past state call _ before rfl agree
  exact agree_iff_harmless agree call

theorem expiries_agree_sample : ∃ h db, Run sampleEnv Failure.redis [] h db ∧
    labels h = [.addRequest RequestSystem.sampleRequest] ∧
    (Everywhere ExpiriesAgree h db ↔ ∀ x ∈ h, Harmless sampleEnv [] x.1 x.2) ∧
    (ExpiriesAgree db ↔ ∀ call ∈ labels h, filed sampleEnv [] call = none) := by
  have run : Run sampleEnv Failure.redis [] [(fun _ => none, .addRequest RequestSystem.sampleRequest)] _ :=
    .snoc .nil rfl
  obtain ⟨everywhere, unrounded⟩ := expiries_agree_iff run
  refine ⟨_, _, run, rfl, everywhere, unrounded (by decide) fun call member request files => ?_⟩
  obtain rfl := List.mem_singleton.mp member
  obtain rfl := Option.some.inj files
  decide

/-- The request that user 1 sends user 2 at time 0 expires after a week, and has a score of two. -/
theorem expiry_doubled : ∃ h db, Run sampleEnv Failure.redis [] h db ∧
    labels h = [.add 0 "1" ⟨"2", .str "hi"⟩] ∧
    Redis.Holds db (REQUEST_NAMESPACE "2") "1-2-1-9253d76ce549de18" (.record RequestSystem.sampleRequest) ∧
    RequestSystem.sampleRequest.expire = 604800000 ∧
    scoreOf db "2" "1-2-1-9253d76ce549de18" = some 1209600000 ∧ ¬ ExpiriesAgree db := by
  have run : Run sampleEnv Failure.redis [] [(fun _ => none, .add 0 "1" ⟨"2", .str "hi"⟩)] _ := .snoc .nil rfl
  have held : Redis.Holds (perform sampleEnv Failure.redis [] (fun _ => none) (.add 0 "1" ⟨"2", .str "hi"⟩))
    (REQUEST_NAMESPACE "2") "1-2-1-9253d76ce549de18" (.record RequestSystem.sampleRequest) := rfl
  have scored : scoreOf (perform sampleEnv Failure.redis [] (fun _ => none) (.add 0 "1" ⟨"2", .str "hi"⟩)) "2"
    "1-2-1-9253d76ce549de18" = some 1209600000 := rfl
  refine ⟨_, _, run, rfl, held, rfl, scored, fun agree => ?_⟩
  have same := Option.some.inj (scored.symm.trans (agree _ _ _ held))
  cases same

end TacoBack.ExpirySystem
