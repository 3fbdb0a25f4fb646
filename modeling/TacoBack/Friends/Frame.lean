import TacoBack.Friends.Blocked
import TacoBack.Friends.Removal

/-!
# What a friend call touches

The calls as the routes make them: the caller is a string, the other argument any JSON value. Any of
their commands may reject.
-/

namespace TacoBack

/-- A request whose recipient is whatever the body has. -/
structure RawRequest where
  action : Action
  metadata : Json
  module : ModuleKeys
  rid : Option String
  sender : String
  expire : Int
  recive : Option Json

inductive RawStored where
  | record (request : RawRequest)
  | number (n : Int)

namespace FriendCalls

open RequestService NoticeService BlackListCacheService RemovalSystem

structure CallEnv where
  driver : Mongo.Driver
  config : Json
  -- `process.env.WORKER_ID ?? 1`, printed.
  workerId : String
  requestHash : RawRequest → String
  requestExpire : Int
  -- What the client sends of an argument that follows the key; it flattens arrays.
  arguments : Option Json → List String
  -- What the channel rejects with when the handler fails.
  unanswered : Redis.ReplyError → Failure
  -- The second argument of a message handler, printed.
  rawText : String

/-- The commands of the calls. A rid whose recipient cannot be printed counts as one. -/
inductive Command where
  | find
  | rid
  | hset
  | hsetnx
  | zadd
  | user
  | write
  | publish

structure State where
  friends : List Friend
  users : List Users
  redis : Redis.Db RawStored

variable (env : CallEnv) (faults : Command → Option Failure)

/-- `value.key`, which neither `undefined` nor `null` has. -/
def member (value : Option Json) (key : String) : Except Failure (Option Json) :=
  match value with
  | none | some .null => .error .typeError
  | some value => .ok (value.get key)

def friendFilter (source : String) (target : Option Json) : Option (Friend → Bool) :=
  match env.driver.stringFilter (.str source), env.driver.stringFilter (target.getD .null) with
  | some p, some q => some fun friend => p (some friend.source) && q (some friend.target)
  | _, _ => none

def hasFriend (source : String) (target : Option Json) (friends : List Friend) : Except Failure Bool :=
  match friendFilter env source target with
  | none => .error .castError
  | some p => .ok (friends.find? p).isSome

/-! ### add -/

def createRid (request : RawRequest) : String :=
  request.sender ++ "-" ++ Json.template request.recive ++ "-" ++ env.workerId ++ "-" ++ env.requestHash request

def addedRequest (now : Int) (source : String) (tid msg : Option Json) : RawRequest :=
  let request : RawRequest := {
    action := .ADD, metadata := .obj (msg.toList.map fun msg => ("msg", msg)), module := .FRIEND, rid := none
    sender := source, expire := now + env.requestExpire, recive := tid }
  { request with rid := some (createRid env request) }

def ridOf (request : RawRequest) : String :=
  match request.rid with
  | none => createRid env request
  | some rid => if rid = "" then createRid env request else rid

/-- The handler, one command after the other. -/
def addRequest (request : RawRequest) (redis : Redis.Db RawStored) : Except Failure String × Redis.Db RawStored :=
  let namespace' := REQUEST_NAMESPACE (Json.template request.recive)
  let expire := Double.add request.expire env.requestExpire
  match attempt (faults .hset) ((Redis.hset redis namespace' (ridOf env request) (.record request)).mapError
      env.unanswered) with
  | .error e => (.error e, redis)
  | .ok hashed =>
    match attempt (faults .hsetnx) ((Redis.hsetnx hashed namespace' (ridOf env request) (.number expire)).mapError
        env.unanswered) with
    | .error e => (.error e, hashed)
    | .ok marked =>
      match attempt (faults .zadd) ((Redis.zadd marked (REQUEST_HASH_KEY_NAMESPACE (Json.template request.recive))
          expire (ridOf env request)).mapError env.unanswered) with
      | .error e => (.error e, marked)
      | .ok filed => (.ok (ridOf env request), filed)

def add (now : Int) (source : String) (dto : Option Json) (s : State) : Except Failure Bool × State :=
  match member dto "tid", member dto "msg" with
  | .ok tid, .ok msg =>
    match attempt (faults .find) (hasFriend env source tid s.friends) with
    | .error e => (.error e, s)
    | .ok true => (.error (.service .HAS_FRIEND .BAD_REQUEST), s)
    | .ok false =>
      match attempt (faults .rid) (.ok (addedRequest env now source tid msg)) with
      | .error e => (.error e, s)
      | .ok request =>
        match addRequest env faults request s.redis with
        | (.error e, redis) => (.error e, { s with redis := redis })
        | (.ok _, redis) => (.ok true, { s with redis := redis })
  | .error e, _ | _, .error e => (.error e, s)

/-! ### remove -/

def removedId (users : List Users) (target : Option Json) : Except Failure String :=
  match env.driver.mixedFilter (target.getD .null) with
  | none => .error .castError
  | some p =>
    match users.find? fun user => p user.tid with
    | none => .error .typeError
    | some user => .ok user._id

/-- What the handler of the message leaves of the store, if the message gets there. -/
def deliver (nid source : String) (redis : Redis.Db RawStored) : Redis.Db RawStored :=
  let message := removeMessage env.config nid source
  if Bound message then
    match setNotice message.payload env.rawText redis with
    | .ok filed => filed
    | .error _ => redis
  else redis

def remove (nid source : String) (target : Option Json) (s : State) : Except Failure Bool × State :=
  match attempt (faults .find) (hasFriend env source target s.friends) with
  | .error e => (.error e, s)
  | .ok false => (.error (.service .NOT_HAS_FRIEND .BAD_REQUEST), s)
  | .ok true =>
    match attempt (faults .user) (removedId env s.users target) with
    | .error e => (.error e, s)
    | .ok id =>
      match attempt (faults .write) (.ok (FriendsService.deleteEdge source id s.friends)) with
      | .error e => (.error e, s)
      | .ok friends =>
        match attempt (faults .publish) (.ok (deliver env nid source s.redis)) with
        | .error e => (.error e, { s with friends := friends })
        | .ok redis => (.ok true, { s with friends := friends, redis := redis })

/-! ### updateTag -/

/-- A tag that the body lacks is not updated. -/
def castTag (tag : Option Json) : Option (Friend → Friend) :=
  match tag with
  | none => some id
  | some tag => (env.driver.castString tag).map fun text friend => { friend with tag := text }

def setTag (source : String) (tid tag : Option Json) (friends : List Friend) : Except Failure (List Friend) :=
  match friendFilter env source tid, castTag env tag with
  | some p, some retag => .ok (Mongo.updateOne p retag friends)
  | _, _ => .error .castError

def updateTag (source : String) (dto : Option Json) (s : State) : Except Failure Bool × State :=
  match member dto "tid", member dto "tag" with
  | .ok tid, .ok tag =>
    match attempt (faults .find) (hasFriend env source tid s.friends) with
    | .error e => (.error e, s)
    | .ok false => (.error (.service .NOT_HAS_FRIEND .BAD_REQUEST), s)
    | .ok true =>
      match attempt (faults .write) (setTag env source tid tag s.friends) with
      | .error e => (.error e, s)
      | .ok friends => (.ok true, { s with friends := friends })
  | .error e, _ | _, .error e => (.error e, s)

/-! ### block and unblock -/

def listKey (source : String) : String := useNameSpace BLACK_LIST_CACHE [source]

def inBlackList (source : String) (target : Option Json) (redis : Redis.Db RawStored) : Bool :=
  Promise.toBoolean ⟨Redis.sismemberArgs redis (listKey source) (env.arguments target)⟩

def block (source : String) (target : Option Json) (s : State) : Except Failure Bool × State :=
  if inBlackList env source target s.redis then (.error (.service .IN_BLACK_LIST .INTERNAL_SERVER_ERROR), s)
  else
    match attempt (faults .write) ((Redis.saddArgs s.redis (listKey source) (env.arguments target)).mapError .redis) with
    | .error e => (.error e, s)
    | .ok redis => (.ok true, { s with redis := redis })

def unblock (source : String) (target : Option Json) (s : State) : Except Failure Bool × State :=
  if inBlackList env source target s.redis then
    match attempt (faults .write) ((Redis.sremArgs s.redis (listKey source) (env.arguments target)).mapError .redis) with
    | .error e => (.error e, s)
    | .ok redis => (.ok true, { s with redis := redis })
  else (.error (.service .NOT_IN_BLACK_LIST .INTERNAL_SERVER_ERROR), s)

/-! ### Everybody else's data -/

/-- The documents of the others and their black lists are the same. -/
structure Spares (source : String) (s t : State) : Prop where
  friends : t.friends.filter (fun friend => friend.source != source) = s.friends.filter fun friend => friend.source != source
  lists : ∀ other, other ≠ source → t.redis (listKey other) = s.redis (listKey other)

variable {env : CallEnv} {faults : Command → Option Failure} {source other : String} {s t : State}

theorem Spares.refl (source : String) (s : State) : Spares source s s := ⟨rfl, fun _ _ => rfl⟩

theorem listKey_inj {a b : String} (same : listKey a = listKey b) : a = b := by
  simpa [listKey, useNameSpace] using same

theorem friendFilter_source (lawful : env.driver.Lawful) {target : Option Json} {p : Friend → Bool}
    (query : friendFilter env source target = some p) {friend : Friend} (found : p friend = true) :
    friend.source = source := by
  unfold friendFilter at query
  rw [lawful.stringFilter_str] at query
  split at query
  · rename_i own read _
    obtain rfl := Option.some.inj read
    obtain rfl := Option.some.inj query
    rw [Bool.and_eq_true, decide_eq_true_eq, Option.some.injEq] at found
    exact found.1
  · cases query

theorem castTag_source {tag : Option Json} {retag : Friend → Friend} (cast : castTag env tag = some retag)
    (friend : Friend) : (retag friend).source = friend.source := by
  unfold castTag at cast
  split at cast
  · obtain rfl := Option.some.inj cast
    rfl
  · obtain ⟨text, -, rfl⟩ := Option.map_eq_some_iff.mp cast
    rfl

theorem ok_of_attempt {α : Type} {fault : Option Failure} {reply : Except Redis.ReplyError α}
    {rejection : Redis.ReplyError → Failure} {a : α} (done : attempt fault (reply.mapError rejection) = .ok a) :
    reply = .ok a := by
  have done := (attempt_ok.mp done).2
  cases reply with
  | error e => cases done
  | ok b => exact congrArg Except.ok (Except.ok.inj done)

theorem addRequest_lists (request : RawRequest) (redis : Redis.Db RawStored) (other : String) :
    (addRequest env faults request redis).2 (listKey other) = redis (listKey other) := by
  have notHash := BlockedSystem.list_ne_request other (Json.template request.recive)
  have notSplit := BlockedSystem.list_ne_split other (Json.template request.recive)
  unfold addRequest
  dsimp only
  split
  · rfl
  rename_i hashed hset
  have first := Redis.hset_of_ne (ok_of_attempt hset) notHash
  split
  · exact first
  rename_i marked hsetnx
  have second := (Redis.hsetnx_of_ne (ok_of_attempt hsetnx) notHash).trans first
  split
  · exact second
  rename_i filed zadd
  exact (Redis.zadd_of_ne (ok_of_attempt zadd) notSplit).trans second

theorem deliver_lists (nid source other : String) (redis : Redis.Db RawStored) :
    deliver env nid source redis (listKey other) = redis (listKey other) := by
  simp only [deliver, setNotice_fails]
  split <;> rfl

theorem add_spares (now : Int) (source : String) (dto : Option Json) (s : State) :
    Spares source s (add env faults now source dto s).2 := by
  unfold add
  split
  · split
    · exact .refl source s
    · exact .refl source s
    split
    · exact .refl source s
    rename_i request _
    have kept := fun other => @addRequest_lists env faults request s.redis other
    split <;> rename_i filed <;> rw [filed] at kept
    · exact ⟨rfl, fun other _ => kept other⟩
    · exact ⟨rfl, fun other _ => kept other⟩
  · exact .refl source s
  · exact .refl source s

theorem remove_spares (nid source : String) (target : Option Json) (s : State) :
    Spares source s (remove env faults nid source target s).2 := by
  unfold remove
  split
  · exact .refl source s
  · exact .refl source s
  split
  · exact .refl source s
  rename_i id _
  split
  · exact .refl source s
  rename_i friends deleted
  obtain ⟨-, deleted⟩ := attempt_ok.mp deleted
  obtain rfl := Except.ok.inj deleted
  have kept : (FriendsService.deleteEdge source id s.friends).filter (fun friend => friend.source != source) =
      s.friends.filter fun friend => friend.source != source := by
    refine Mongo.filter_deleteOne (fun friend found => ?_) s.friends
    rw [FriendsService.isEdge_iff] at found
    simp [found.1]
  split
  · exact ⟨kept, fun _ _ => rfl⟩
  rename_i redis published
  obtain ⟨-, published⟩ := attempt_ok.mp published
  obtain rfl := Except.ok.inj published
  exact ⟨kept, fun other _ => deliver_lists nid source other s.redis⟩

theorem setTag_spares (lawful : env.driver.Lawful) {tid tag : Option Json} {friends after : List Friend}
    (done : setTag env source tid tag friends = .ok after) :
    after.filter (fun friend => friend.source != source) = friends.filter fun friend => friend.source != source := by
  unfold setTag at done
  split at done
  · rename_i p retag query cast
    obtain rfl := Except.ok.inj done
    refine Mongo.filter_updateOne (fun friend found => ?_) friends
    have own := friendFilter_source lawful query found
    simp [castTag_source cast, own]
  · cases done

theorem updateTag_spares (lawful : env.driver.Lawful) (source : String) (dto : Option Json) (s : State) :
    Spares source s (updateTag env faults source dto s).2 := by
  unfold updateTag
  split
  · split
    · exact .refl source s
    · exact .refl source s
    split
    · exact .refl source s
    · rename_i friends tagged
      exact ⟨setTag_spares lawful (attempt_ok.mp tagged).2, fun _ _ => rfl⟩
  · exact .refl source s
  · exact .refl source s

theorem block_spares (source : String) (target : Option Json) (s : State) :
    Spares source s (block env faults source target s).2 := .refl source s

theorem unblock_spares (source : String) (target : Option Json) (s : State) :
    Spares source s (unblock env faults source target s).2 := by
  unfold unblock
  split
  · split
    · exact .refl source s
    · rename_i redis removed
      refine ⟨rfl, fun other different => ?_⟩
      exact Redis.sremArgs_of_ne (ok_of_attempt removed) fun same => different (listKey_inj same)
  · exact .refl source s

/-! ### The calls -/

inductive Call where
  | add (dto : Option Json)
  | remove (target : Option Json)
  | updateTag (dto : Option Json)
  | block (target : Option Json)
  | unblock (target : Option Json)

def perform (env : CallEnv) (faults : Command → Option Failure) (now : Int) (nid source : String) (s : State) :
    Call → Except Failure Bool × State
  | .add dto => add env faults now source dto s
  | .remove target => remove env faults nid source target s
  | .updateTag dto => updateTag env faults source dto s
  | .block target => block env faults source target s
  | .unblock target => unblock env faults source target s

theorem perform_spares (lawful : env.driver.Lawful) (faults : Command → Option Failure) (now : Int)
    (nid source : String) (s : State) (call : Call) : Spares source s (perform env faults now nid source s call).2 := by
  cases call with
  | add dto => exact add_spares now source dto s
  | remove target => exact remove_spares nid source target s
  | updateTag dto => exact updateTag_spares lawful source dto s
  | block target => exact block_spares source target s
  | unblock target => exact unblock_spares source target s

theorem Spares.others (spares : Spares source s t) (different : other ≠ source) :
    t.friends.filter (fun friend => friend.source == other) = s.friends.filter fun friend => friend.source == other := by
  have narrow : ∀ friends : List Friend, friends.filter (fun friend => friend.source == other) =
      (friends.filter fun friend => friend.source != source).filter fun friend => friend.source == other := by
    intro friends
    rw [List.filter_filter]
    refine List.filter_congr fun friend _ => ?_
    by_cases own : friend.source = other
    · simp [own, different]
    · simp [own]
  rw [narrow, spares.friends, ← narrow]

theorem Spares.hasFriend (lawful : env.driver.Lawful) (spares : Spares source s t) (different : other ≠ source)
    (target : Option Json) : hasFriend env other target t.friends = hasFriend env other target s.friends := by
  unfold FriendCalls.hasFriend
  split
  · rfl
  rename_i p query
  have narrow : ∀ friends : List Friend,
      friends.find? p = (friends.filter fun friend => friend.source == other).find? p := by
    intro friends
    rw [List.find?_filter]
    congr
    funext friend
    by_cases found : p friend = true
    · simp [found, friendFilter_source lawful query found]
    · simp [found]
  rw [narrow, spares.others different, ← narrow]

/-- A call of `source`, however it ends, leaves what the others have as it was. -/
theorem perform_frame (lawful : env.driver.Lawful) (faults : Command → Option Failure) (now : Int)
    (nid source : String) (s : State) (call : Call) :
    let t := (perform env faults now nid source s call).2
    Spares source s t ∧ ∀ other, other ≠ source →
      (∀ target, hasFriend env other target t.friends = hasFriend env other target s.friends) ∧
      (t.friends.filter fun friend => friend.source == other) = (s.friends.filter fun friend => friend.source == other) ∧
      Redis.setAt t.redis (listKey other) = Redis.setAt s.redis (listKey other) := by
  have spares := perform_spares lawful faults now nid source s call
  refine ⟨spares, fun other different => ⟨spares.hasFriend lawful different, spares.others different, ?_⟩⟩
  simp only [Redis.setAt, spares.lists other different]

def sampleCallEnv : CallEnv where
  driver := .standard
  config := shippedConfig
  workerId := "1"
  requestHash := fun _ => "9253d76ce549de18"
  requestExpire := 604800000
  arguments
    | some (.arr items) => items.map Json.toText
    | value => [Json.template value]
  unanswered := fun _ => .service .REQUEST_TIME_OUT .INTERNAL_SERVER_ERROR
  rawText := "[object Object]"

/-- Users 1 and 2 are friends, and user 2 has blocked user 3. -/
def sampleState : State where
  friends := [⟨"2", "1", some "school"⟩, ⟨"1", "2", none⟩]
  users := []
  redis := Redis.putSet (fun _ => none) (listKey "2") {"3"}

/-- A tag for any friend at all. -/
def operatorDto : Json := .obj [("tid", .obj [("$ne", .str "")]), ("tag", .str "work")]

theorem perform_frame_sample :
    let t := (perform sampleCallEnv (fun _ => none) 0 "660a3b1e9c1f4e0012ab34ce" "1" sampleState
      (.updateTag (some operatorDto))).2
    t.friends = [⟨"2", "1", some "school"⟩, ⟨"1", "2", some "work"⟩] ∧ Spares "1" sampleState t ∧
      Redis.setAt t.redis (listKey "2") = .ok {"3"} := by
  obtain ⟨spares, others⟩ := @perform_frame sampleCallEnv Mongo.Driver.standard_lawful (fun _ => none) 0
    "660a3b1e9c1f4e0012ab34ce" "1" sampleState (.updateTag (some operatorDto))
  exact ⟨rfl, spares, (others "2" (by decide)).2.2.trans (Redis.setAt_putSet _ _ _)⟩

/-! ### Runs -/

/-- A call, and what it meets. -/
structure Entry where
  source : String
  call : Call
  faults : Command → Option Failure
  now : Int
  nid : String

def Step (env : CallEnv) (s : State) (entry : Entry) (after : State) : Prop :=
  after = (perform env entry.faults entry.now entry.nid entry.source s entry.call).2

/-- However many calls the others make, a user who makes none keeps his documents and his black list. -/
theorem run_frame (lawful : env.driver.Lawful) {history : List (State × Entry)}
    (run : Transition.Run (Step env) s history t) (absent : ∀ x ∈ history, x.2.source ≠ other) :
    (t.friends.filter fun friend => friend.source == other) = (s.friends.filter fun friend => friend.source == other) ∧
      t.redis (listKey other) = s.redis (listKey other) := by
  induction run with
  | nil => exact ⟨rfl, rfl⟩
  | @snoc history t u entry before taken ih =>
    rw [List.forall_mem_append, List.forall_mem_singleton] at absent
    obtain ⟨friends, list⟩ := ih absent.1
    rw [Step] at taken
    subst taken
    have spares := perform_spares lawful entry.faults entry.now entry.nid entry.source t entry.call
    exact ⟨(spares.others (Ne.symm absent.2)).trans friends, (spares.lists other (Ne.symm absent.2)).trans list⟩

/-! ### Strings as arguments -/

theorem friendFilter_str (lawful : env.driver.Lawful) (source target : String) :
    friendFilter env source (some (.str target)) = some (FriendsService.isEdge source target) := by
  simp only [friendFilter, Option.getD_some, lawful.stringFilter_str, Option.some.injEq]
  funext friend
  rw [Bool.eq_iff_iff, FriendsService.isEdge_iff]
  simp

theorem hasFriend_str (lawful : env.driver.Lawful) (source target : String) (friends : List Friend) :
    hasFriend env source (some (.str target)) friends = .ok (FriendsService.hasFriend friends source target) := by
  rw [hasFriend, friendFilter_str lawful]
  rfl

theorem setTag_str (lawful : env.driver.Lawful) (source : String) (dto : ChangeFriendTag) (friends : List Friend) :
    setTag env source (some (.str dto.tid)) (some (.str dto.tag)) friends =
      .ok (FriendsService.setTag source dto friends) := by
  simp only [setTag, friendFilter_str lawful, castTag, lawful.castString_str, Option.map_some]
  rfl

theorem removedId_str (users : List Users) (target : String) :
    removedId env users (some (.str target)) = FriendsService.removedId env.driver users target := rfl

def RawRequest.ofRequest (request : Request) : RawRequest where
  action := request.action
  metadata := request.metadata.getD (.obj [])
  module := request.module
  rid := request.rid
  sender := request.sender
  expire := request.expire
  recive := some (.str request.recive)

/-- The two services build the same request. -/
theorem addedRequest_str {typed : Env} (worker : typed.workerId = env.workerId)
    (expire : typed.requestExpire = env.requestExpire)
    (hash : ∀ request, typed.requestHash request = env.requestHash (RawRequest.ofRequest request)) (now : Int)
    (source : String) (dto : AddFriendDto) :
    addedRequest env now source (some (.str dto.tid)) (some dto.msg) =
      RawRequest.ofRequest (FriendsService.addedRequest typed now source dto) := by
  simp [addedRequest, createRid, FriendsService.addedRequest, TacoBack.createRid, createRequest, worker, expire, hash,
    RawRequest.ofRequest, Json.template, Json.toText]

end FriendCalls

end TacoBack
