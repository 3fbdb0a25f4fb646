import TacoBack.Lib.Transition
import TacoBack.Request.Service

/-!
# The request store

`addRequest` and `removeRequest` called to their ends, one after the other. `addRequest` writes a
hash and a sorted set; `removeRequest` deletes from the hash alone.
-/

namespace TacoBack.RequestService

/-- What was written before a command fails stays written. -/
def addRequest (env : Env) (request : Request) (db : Redis.Db Stored) :
    Redis.Db Stored × Except Redis.ReplyError String :=
  match addHset env request db with
  | .error e => (db, .error e)
  | .ok hashed =>
    match addHsetnx env request hashed with
    | .error e => (hashed, .error e)
    | .ok marked =>
      match addZadd env request marked with
      | .error e => (marked, .error e)
      | .ok filed => (filed, .ok (ridOf env request))

/-- The rids `getAllRequest` reads. `page - 1 * size` is what the source computes. -/
def requestKeys (size : Int) (tid : String) (page : Option Int) (db : Redis.Db Stored) :
    Except Redis.ReplyError (List String) :=
  match page with
  | none | some 0 => Redis.zrange db (REQUEST_HASH_KEY_NAMESPACE tid) 0 9007199254740991
  | some page => Redis.zrange db (REQUEST_HASH_KEY_NAMESPACE tid) (page - 1 * size) (page * size)

/-- `size` is `system.request.size`, or else `system.size`. A field that is gone parses to `null`,
here `none`. -/
def getAllRequest (size : Int) (tid : String) (page : Option Int) (db : Redis.Db Stored) :
    Except Redis.ReplyError (List (Option Stored)) :=
  match requestKeys size tid page db with
  | .error e => .error e
  | .ok keys => keys.mapM fun key => Redis.hget db (REQUEST_NAMESPACE tid) key

variable {env : Env} {request : Request} {db : Redis.Db Stored} {fields : AList fun _ : String => Stored}
  {scores : AList fun _ : String => Int} {tid : String}

theorem requestKeys_congr {db' : Redis.Db Stored} {size : Int} {page : Option Int}
    (same : db (REQUEST_HASH_KEY_NAMESPACE tid) = db' (REQUEST_HASH_KEY_NAMESPACE tid)) :
    requestKeys size tid page db = requestKeys size tid page db' := by
  unfold requestKeys
  split <;> exact Redis.zrange_congr same

/-! ### addRequest on keys of the right types -/

/-- The store after an `addRequest` that goes through, where the keys of the recipient held `fields`
and `scores`. -/
def filing (env : Env) (request : Request) (fields : AList fun _ : String => Stored)
    (scores : AList fun _ : String => Int) (db : Redis.Db Stored) : Redis.Db Stored :=
  Function.update
    (Redis.putHash db (REQUEST_NAMESPACE request.recive) (fields.insert (ridOf env request) (.record request)))
    (REQUEST_HASH_KEY_NAMESPACE request.recive)
    (some (.zset (scores.insert (ridOf env request) (raisedExpire env request))))

/-- The three commands go through, the second one without writing. -/
theorem filing_commands (hash : Redis.hashAt db (REQUEST_NAMESPACE request.recive) = .ok fields)
    (zset : Redis.zsetAt db (REQUEST_HASH_KEY_NAMESPACE request.recive) = .ok scores) :
    ∃ hashed, addHset env request db = .ok hashed ∧ addHsetnx env request hashed = .ok hashed ∧
      addZadd env request hashed = .ok (filing env request fields scores db) := by
  have wrote := Redis.hset_ok (ridOf env request) (.record request) hash
  have held := (Redis.holds_hset wrote).mpr (.inl ⟨rfl, rfl, rfl⟩)
  have kept : Redis.putHash db (REQUEST_NAMESPACE request.recive) (fields.insert (ridOf env request) (.record request))
      (REQUEST_HASH_KEY_NAMESPACE request.recive) = db (REQUEST_HASH_KEY_NAMESPACE request.recive) :=
    Redis.putHash_of_ne db _ (split_ne_namespace request.recive)
  exact ⟨_, wrote, Redis.hsetnx_of_holds _ held, Redis.zadd_ok _ _ ((Redis.zsetAt_congr kept).trans zset)⟩

theorem addRequest_ok (hash : Redis.hashAt db (REQUEST_NAMESPACE request.recive) = .ok fields)
    (zset : Redis.zsetAt db (REQUEST_HASH_KEY_NAMESPACE request.recive) = .ok scores) :
    addRequest env request db = (filing env request fields scores db, .ok (ridOf env request)) := by
  obtain ⟨hashed, wrote, skipped, ranked⟩ := @filing_commands env _ _ _ _ hash zset
  simp only [addRequest, wrote, skipped, ranked]

theorem addRequest_refused (hash : Redis.hashAt db (REQUEST_NAMESPACE request.recive) = .ok fields)
    {stored : Stored} {field : String} (held : Redis.Holds db (REQUEST_HASH_KEY_NAMESPACE request.recive) field stored) :
    (addRequest env request db).2 = .error .wrongType := by
  let hashed := Redis.putHash db (REQUEST_NAMESPACE request.recive)
    (fields.insert (ridOf env request) (.record request))
  have wrote : addHset env request db = .ok hashed := Redis.hset_ok _ _ hash
  have own := (Redis.holds_hset wrote).mpr (.inl ⟨rfl, rfl, rfl⟩)
  have skipped : addHsetnx env request hashed = .ok hashed := Redis.hsetnx_of_holds _ own
  have still : Redis.Holds hashed (REQUEST_HASH_KEY_NAMESPACE request.recive) field stored :=
    (Redis.holds_hset wrote).mpr (.inr ⟨fun both => split_ne_namespace request.recive both.1, held⟩)
  have refused := Redis.zsetAt_of_holds still
  simp only [addRequest, wrote, skipped, addZadd, Redis.zadd, refused]
  rfl

/-- What `addRequest` leaves: the store as it was, the record alone, or the record and its score. The
second command finds the field set and writes nothing. -/
theorem addRequest_cases (env : Env) (request : Request) (db : Redis.Db Stored) :
    ((∃ e, addHset env request db = .error e) ∧ (addRequest env request db).1 = db) ∨
    ∃ hashed, addHset env request db = .ok hashed ∧
      (((∃ e, addZadd env request hashed = .error e) ∧ (addRequest env request db).1 = hashed) ∨
        addZadd env request hashed = .ok (addRequest env request db).1) := by
  unfold addRequest
  cases wrote : addHset env request db with
  | error e => exact .inl ⟨⟨e, rfl⟩, rfl⟩
  | ok hashed =>
    have held := (Redis.holds_hset wrote).mpr (.inl ⟨rfl, rfl, rfl⟩)
    have skipped : addHsetnx env request hashed = .ok hashed := Redis.hsetnx_of_holds _ held
    refine .inr ⟨hashed, rfl, ?_⟩
    dsimp only
    rw [skipped]
    dsimp only
    cases ranked : addZadd env request hashed with
    | error e => exact .inl ⟨⟨e, rfl⟩, rfl⟩
    | ok filed => exact .inr rfl

/-- The fields of the hashes after an `addRequest` are those after its first command. -/
theorem holds_addRequest {hashed : Redis.Db Stored} (wrote : addHset env request db = .ok hashed)
    {key field : String} {stored : Stored} :
    Redis.Holds (addRequest env request db).1 key field stored ↔ Redis.Holds hashed key field stored := by
  rcases addRequest_cases env request db with ⟨⟨e, refused⟩, -⟩ | ⟨hashed', wrote', rest⟩
  · cases refused.symm.trans wrote
  obtain rfl := Except.ok.inj (wrote.symm.trans wrote')
  rcases rest with ⟨-, same⟩ | ranked
  · rw [same]
  · exact Redis.holds_zadd ranked

theorem holds_addHset {hashed : Redis.Db Stored} (wrote : addHset env request db = .ok hashed) :
    Redis.Holds hashed (REQUEST_NAMESPACE request.recive) (ridOf env request) (.record request) :=
  (Redis.holds_hset wrote).mpr (.inl ⟨rfl, rfl, rfl⟩)

theorem holds_added {hashed : Redis.Db Stored} (wrote : addHset env request db = .ok hashed) :
    Redis.Holds (addRequest env request db).1 (REQUEST_NAMESPACE request.recive) (ridOf env request) (.record request) :=
  (holds_addRequest wrote).mpr (holds_addHset wrote)

theorem filing_of_ne {key : String} (notHash : key ≠ REQUEST_NAMESPACE request.recive)
    (notZset : key ≠ REQUEST_HASH_KEY_NAMESPACE request.recive) : filing env request fields scores db key = db key := by
  rw [filing, Function.update_of_ne notZset, Redis.putHash_of_ne db _ notHash]

@[simp] theorem hashAt_filing : Redis.hashAt (filing env request fields scores db) (REQUEST_NAMESPACE request.recive) =
    .ok (fields.insert (ridOf env request) (.record request)) := by
  have apart := (split_ne_namespace request.recive).symm
  rw [filing, Redis.hashAt_congr (Function.update_of_ne apart _ _), Redis.hashAt_putHash]

theorem holds_filing : Redis.Holds (filing env request fields scores db) (REQUEST_NAMESPACE request.recive)
    (ridOf env request) (.record request) :=
  Redis.map_ok.mpr ⟨_, hashAt_filing, AList.lookup_insert _⟩

@[simp] theorem zsetAt_filing :
    Redis.zsetAt (filing env request fields scores db) (REQUEST_HASH_KEY_NAMESPACE request.recive) =
      .ok (scores.insert (ridOf env request) (raisedExpire env request)) := by
  simp [filing, Redis.zsetAt]

end TacoBack.RequestService

/-! ### Runs of calls -/

namespace TacoBack.RequestSystem

open RequestService

/-- A call of `addRequest` or `removeRequest` by another service, with strings. -/
inductive Call where
  | add (request : Request)
  | remove (tid rid : String)

def perform (env : Env) (db : Redis.Db Stored) : Call → Redis.Db Stored
  | .add request => (addRequest env request db).1
  | .remove tid rid =>
    match removeRequest tid rid db with
    | .ok removed => removed
    | .error _ => db

theorem perform_add {env : Env} {request : Request} {db : Redis.Db Stored} {fields : AList fun _ : String => Stored}
    {scores : AList fun _ : String => Int}
    (hash : Redis.hashAt db (REQUEST_NAMESPACE request.recive) = .ok fields)
    (zset : Redis.zsetAt db (REQUEST_HASH_KEY_NAMESPACE request.recive) = .ok scores) :
    perform env db (.add request) = filing env request fields scores db := by
  rw [perform, addRequest_ok hash zset]

theorem perform_remove {env : Env} {tid : String} {db : Redis.Db Stored} {fields : AList fun _ : String => Stored}
    (rid : String) (hash : Redis.hashAt db (REQUEST_NAMESPACE tid) = .ok fields) :
    perform env db (.remove tid rid) = Redis.putHash db (REQUEST_NAMESPACE tid) (fields.erase rid) := by
  rw [perform, removeRequest, Redis.hdel_ok rid hash]

def Step (env : Env) (db : Redis.Db Stored) (call : Call) (after : Redis.Db Stored) : Prop :=
  after = perform env db call

abbrev Run (env : Env) : List (Redis.Db Stored × Call) → Redis.Db Stored → Prop :=
  Transition.Run (Step env) fun _ => none

/-- A tid as `registe` assigns it. -/
def Numeric (tid : String) : Prop := ∀ c ∈ tid.toList, c.isDigit

def Call.tid : Call → String
  | .add request => request.recive
  | .remove tid _ => tid

/-- The request user 1 sends user 2 at time 0, as `FriendsService.add` builds it. -/
def sampleRequest : Request where
  action := .ADD
  metadata := some (.obj [("msg", .str "hi")])
  module := .FRIEND
  rid := some "1-2-1-9253d76ce549de18"
  sender := "1"
  expire := 604800000
  sign := none
  recive := "2"

/-- A request of user 3, which expires later. -/
def laterRequest : Request := { sampleRequest with
  rid := some "3-2-1-9253d76ce549de18", sender := "3", expire := 604800001 }

/-- The first request again, to expire after the one that was added later. -/
def renewedRequest : Request := { sampleRequest with expire := 604800002 }

theorem numeric_ne_split {tid : String} (numeric : Numeric tid) (other : String) : tid ≠ "split:" ++ other := by
  intro same
  subst same
  have digit := numeric 's' (by simp)
  cases digit

end TacoBack.RequestSystem
