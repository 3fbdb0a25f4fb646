import TacoBack.Request.Paging

/-!
# The rid of a stored request

A request is answered with the rid its listed record shows. A rid that `addRequest` makes up names the
field, but the record was serialised before.
-/

namespace TacoBack.RequestSystem

open RequestService Transition Traverse

variable {env : Env} {db after : Redis.Db Stored} {h : List (Redis.Db Stored × Call)} {request : Request}

/-- Each field of `request:<tid>` holds a record with that rid and recipient. -/
def Named (db : Redis.Db Stored) : Prop :=
  ∀ tid rid stored, Redis.Holds db (REQUEST_NAMESPACE tid) rid stored →
    ∃ request, stored = .record request ∧ request.rid = some rid ∧ request.recive = tid

/-- `call` with the rid of a listed record finds that record. -/
def Answerable (db : Redis.Db Stored) : Prop :=
  ∀ tid size page listed, getAllRequest size tid page db = .ok listed → ∀ entry ∈ listed,
    ∃ request rid, entry = some (.record request) ∧ request.rid = some rid ∧ callRead tid rid db = .ok request

structure OwnKeys (db : Redis.Db Stored) : Prop where
  named : Named db
  answerable : Answerable db

/-- The request brings a rid, or the key of its recipient is no hash and it is not stored. -/
def BringsRid (db : Redis.Db Stored) : Call → Prop
  | .add request => (∃ rid, request.rid = some rid ∧ rid ≠ "") ∨
      ∃ e, Redis.hashAt db (REQUEST_NAMESPACE request.recive) = .error e
  | .remove _ _ => True

theorem createRid_ne_empty (env : Env) (request : Request) : createRid env request ≠ "" := by
  intro empty
  have dash := dash_mem_createRid env request
  rw [empty] at dash
  cases dash

theorem rid_eq_ridOf_iff : request.rid = some (ridOf env request) ↔ ∃ rid, request.rid = some rid ∧ rid ≠ "" := by
  constructor
  · intro same
    refine ⟨_, same, fun empty => ?_⟩
    rw [empty] at same
    rw [ridOf, same] at empty
    exact createRid_ne_empty env request (by simpa using empty)
  · rintro ⟨rid, assigned, set⟩
    rw [assigned, ridOf, assigned]
    simp [set]

theorem addHset_error_iff : (∃ e, addHset env request db = .error e) ↔
    ∃ e, Redis.hashAt db (REQUEST_NAMESPACE request.recive) = .error e := by
  unfold addHset Redis.hset
  cases Redis.hashAt db (REQUEST_NAMESPACE request.recive) <;> simp [Except.map]

theorem Named.add_iff (named : Named db) :
    Named (perform env db (.add request)) ↔ BringsRid db (.add request) := by
  rw [perform, BringsRid, ← @addHset_error_iff env, ← @rid_eq_ridOf_iff env]
  rcases addRequest_cases env request db with ⟨refused, same⟩ | ⟨hashed, wrote, -⟩
  · rw [same]
    exact iff_of_true named (.inr refused)
  · have stored : ¬ ∃ e, addHset env request db = .error e := by simp [wrote]
    rw [or_iff_left stored]
    constructor
    · intro after
      obtain ⟨record, same, rid, -⟩ := after _ _ _ (holds_added wrote)
      obtain rfl := Stored.record.inj same
      exact rid
    · intro rid tid field stored held
      rcases (Redis.holds_hset wrote).mp ((holds_addRequest wrote).mp held) with ⟨key, rfl, rfl⟩ | ⟨-, old⟩
      · exact ⟨request, rfl, rid, (requestNamespace_inj key).symm⟩
      · exact named tid field stored old

/-- Where every rid of a sorted set is filed, the listings hold records read at those rids. -/
theorem Filed.listed {tid : String} {size : Int} {page : Option Int} {listed : List (Option Stored)}
    (filed : Filed env db) (read : getAllRequest size tid page db = .ok listed) :
    ∀ entry ∈ listed, ∃ rid request, entry = some (.record request) ∧
      Redis.Holds db (REQUEST_NAMESPACE tid) rid (.record request) := by
  unfold getAllRequest at read
  split at read
  · cases read
  rename_i keys found
  intro entry member
  obtain ⟨rid, key, held⟩ := mem_of_mapM read entry member
  cases zset : Redis.zsetAt db (REQUEST_HASH_KEY_NAMESPACE tid) with
  | error e =>
    unfold requestKeys Redis.zrange at found
    rw [zset] at found
    split at found <;> cases found
  | ok scores =>
    obtain ⟨keys', found', members⟩ := requestKeys_members size page zset
    obtain rfl := Except.ok.inj (found.symm.trans found')
    obtain ⟨request, stored, -⟩ := filed tid scores zset rid (members rid key)
    obtain rfl := Except.ok.inj (held.symm.trans stored)
    exact ⟨rid, request, rfl, stored⟩

theorem Named.answerable (named : Named db) (filed : Filed env db) : Answerable db := by
  intro tid size page listed read entry member
  obtain ⟨rid, request, rfl, held⟩ := filed.listed read entry member
  obtain ⟨record, same, own, -⟩ := named tid rid _ held
  obtain rfl := Stored.record.inj same
  exact ⟨request, rid, rfl, own, callRead_ok.mpr held⟩

theorem named_empty : Named fun _ => none := fun _ _ _ held => (Redis.holds_empty held).elim

/-- In runs of `addRequest`, stored requests name their own keys for just as long as each request that is
stored brings a rid. -/
theorem own_keys_iff (run : Run env h db) (adds : Adds h) :
    Everywhere OwnKeys h db ↔ ∀ x ∈ h, BringsRid x.1 x.2 := by
  have calls : ∀ x ∈ h, ∃ request, x.2 = .add request := fun x member => adds x.2 (List.mem_map_of_mem member)
  have start : OwnKeys fun _ => none := ⟨named_empty, named_empty.answerable (filed_empty env)⟩
  apply (run.restrict (C := fun _ call => ∃ request, call = .add request) calls).everywhere_iff start
  intro past state call next before taken now
  obtain ⟨taken, request, rfl⟩ := taken
  obtain rfl := taken
  have filed : Filed env state := before.preserved (filed_empty env) fun state call next filed taken => by
    obtain ⟨taken, request, rfl⟩ := taken
    obtain rfl := taken
    exact filed.add request
  rw [← @Named.add_iff env _ _ now.named]
  exact ⟨OwnKeys.named, fun named => ⟨named, named.answerable (filed.add request)⟩⟩

theorem own_keys_sample : ∃ h db, Run sampleEnv h db ∧
    labels h = [.add sampleRequest, .add laterRequest, .add renewedRequest] ∧ Everywhere OwnKeys h db := by
  have first : Run sampleEnv [(fun _ => none, .add sampleRequest)] _ := .snoc .nil rfl
  have run := (first.snoc (l := .add laterRequest) rfl).snoc (l := .add renewedRequest) rfl
  refine ⟨_, _, run, rfl, (own_keys_iff run (by simp [Adds])).mpr ?_⟩
  simp [BringsRid, sampleRequest, laterRequest, renewedRequest]

/-- A request without a rid. -/
def unnamedRequest : Request := { sampleRequest with rid := none }

/-- A request without a rid is listed without one, and what is stored cannot be found again with an empty
rid. -/
theorem unnamed_unanswerable : ∃ h db, Run sampleEnv h db ∧ labels h = [.add unnamedRequest] ∧
    getAllRequest 10 "2" none db = .ok [some (.record unnamedRequest)] ∧
    callRead "2" "" db = .error (.service .NOT_FIND_REQUEST .BAD_REQUEST) ∧ ¬ OwnKeys db := by
  have run : Run sampleEnv [(fun _ => none, .add unnamedRequest)] _ := .snoc .nil rfl
  have listed : getAllRequest 10 "2" none (perform sampleEnv (fun _ => none) (.add unnamedRequest)) =
    .ok [some (.record unnamedRequest)] := rfl
  refine ⟨_, _, run, rfl, listed, rfl, fun own => ?_⟩
  obtain ⟨request, rid, same, assigned, -⟩ := own.answerable "2" 10 none _ listed _ (List.mem_singleton.mpr rfl)
  obtain rfl := Stored.record.inj (Option.some.inj same)
  cases assigned

end TacoBack.RequestSystem
