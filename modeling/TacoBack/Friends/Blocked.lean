import TacoBack.Friends.Blocking
import TacoBack.Friends.Consent
import TacoBack.Request.Store

/-!
# Blocked senders

The friend and request services together with the black lists, which are in the same Redis. `add`
never asks for the black list of its recipient, so a blocked sender is served like any other.
-/

namespace TacoBack

namespace FriendsService

open RequestService

/-- `add` and the handler of its message, one after the other. `unanswered` is what the channel rejects
with when that handler fails. -/
def add (env : Env) (unanswered : Redis.ReplyError → Failure) (now : Int) (friends : List Friend) (source : String)
    (dto : AddFriendDto) (redis : Redis.Db Stored) : Redis.Db Stored × Except Failure Bool :=
  if hasFriend friends source dto.tid then (redis, .error (.service .HAS_FRIEND .BAD_REQUEST))
  else
    match addRequest env (addedRequest env now source dto) redis with
    | (written, .error e) => (written, .error (unanswered e))
    | (filed, .ok _) => (filed, .ok true)

variable {env : Env} {unanswered : Redis.ReplyError → Failure} {now : Int} {friends : List Friend} {source : String}
  {dto : AddFriendDto} {redis : Redis.Db Stored}

theorem add_friend (has : hasFriend friends source dto.tid = true) :
    add env unanswered now friends source dto redis = (redis, .error (.service .HAS_FRIEND .BAD_REQUEST)) := by
  rw [add, if_pos has]

theorem add_ok (new : hasFriend friends source dto.tid = false) {fields : AList fun _ : String => Stored}
    {scores : AList fun _ : String => Int} (hash : Redis.hashAt redis (REQUEST_NAMESPACE dto.tid) = .ok fields)
    (zset : Redis.zsetAt redis (REQUEST_HASH_KEY_NAMESPACE dto.tid) = .ok scores) :
    add env unanswered now friends source dto redis =
      (filing env (addedRequest env now source dto) fields scores redis, .ok true) := by
  have files : addRequest env (addedRequest env now source dto) redis = _ := addRequest_ok hash zset
  rw [add, new, if_neg Bool.false_ne_true, files]

end FriendsService

namespace FriendSystem

open RequestService FriendsService

variable {env : Env} {driver : Mongo.Driver}

theorem Step.last {s : State} {pre : List Task} {task : Task} {rest : List Task} {event : Event} {store : Store}
    (here : s.tasks = pre ++ [task]) (effect : Effect env driver s.store task event store rest) :
    Step env driver s event { store := store, tasks := pre ++ rest } := by
  simpa using @Step.run env driver s pre task [] event store rest here effect

/-- Whatever else is under way, the system can run an `add` to its end, as the function does. -/
theorem add_run (unanswered : Redis.ReplyError → Failure) (source : String) (dto : AddFriendDto) (s : State) :
    ∃ history, Transition.Run (Step env driver) s history { s with store := { s.store with
      redis := (add env unanswered s.store.now s.store.friends source dto s.store.redis).1 } } := by
  obtain ⟨store, tasks⟩ := s
  have start : Transition.Run (Step env driver) ⟨store, tasks⟩ [] ⟨store, tasks⟩ := .nil
  by_cases has : hasFriend store.friends source dto.tid = true
  · exact ⟨[], by simpa [add, has] using start⟩
  · let request := addedRequest env store.now source dto
    have called := start.snoc (.add (Bool.eq_false_of_not_eq_true has))
    have sent := called.snoc (.last rfl .add)
    simp only [add, has, addRequest]
    cases wrote : addHset env request store.redis with
    | error e =>
      have lost := sent.snoc (.last rfl (.fail (List.mem_singleton.mpr rfl)))
      exact ⟨_, by simpa [wrote, request] using lost⟩
    | ok hashed =>
      have first := sent.snoc (.last rfl (.hset (handlerOf_addRequestMessage request) rfl wrote))
      cases skipped : addHsetnx env request hashed with
      | error e =>
        have lost := first.snoc (.last rfl (.fail List.mem_cons_self))
        exact ⟨_, by simpa [wrote, skipped, request] using lost⟩
      | ok marked =>
        have second := first.snoc (.last rfl (.hsetnx skipped))
        cases ranked : addZadd env request marked with
        | error e =>
          have lost := second.snoc (.last rfl (.fail List.mem_cons_self))
          exact ⟨_, by simpa [wrote, skipped, ranked, request] using lost⟩
        | ok filed =>
          have third := second.snoc (.last rfl (.zadd ranked))
          exact ⟨_, by simpa [wrote, skipped, ranked, request] using third⟩

end FriendSystem

namespace BlockedSystem

open FriendSystem RequestService FriendsService BlackListCacheService Transition

/-- A call on a black list: of `FriendsService`, or of the cache service itself. -/
inductive ListCall where
  | block (source target : String)
  | unblock (source target : String)
  | addBlackList (source target : String)
  | removeTarget (source target : String)

def performList (redis : Redis.Db Stored) : ListCall → Redis.Db Stored
  | .block source target => (block BLACK_LIST_CACHE source target redis).1
  | .unblock source target => (unblock BLACK_LIST_CACHE source target redis).1
  | .addBlackList source target =>
    match addBlackList BLACK_LIST_CACHE source target redis with
    | .ok added => added
    | .error _ => redis
  | .removeTarget source target =>
    match removeTarget BLACK_LIST_CACHE source target redis with
    | .ok removed => removed
    | .error _ => redis

inductive Event where
  | service (event : FriendSystem.Event)
  | list (call : ListCall)

inductive Step (env : Env) (driver : Mongo.Driver) (s : State) : Event → State → Prop where
  | service {event s'} (taken : FriendSystem.Step env driver s event s') : Step env driver s (.service event) s'
  | list {call} : Step env driver s (.list call)
      { s with store := { s.store with redis := performList s.store.redis call } }

abbrev History := List (State × Event)

abbrev Run (env : Env) (driver : Mongo.Driver) (now : Int) : History → State → Prop :=
  Transition.Run (Step env driver) (init now)

/-- `target` is a member of the black list of `source`. -/
def Listed (redis : Redis.Db Stored) (source target : String) : Prop :=
  Redis.sismember redis (useNameSpace BLACK_LIST_CACHE [source]) target = .ok true

def served (past : List Event) : List FriendSystem.Event :=
  past.filterMap fun
    | .service event => some event
    | .list _ => none

def SentTo (past : List FriendSystem.Event) (tid : String) : Prop := ∃ source clock, .add source tid clock ∈ past

/-- The request keys of the recipient and of another one, to whom a request was sent, meet. -/
def Clashes (past : List FriendSystem.Event) (tid : String) : Prop :=
  SentTo past ("split:" ++ tid) ∨ ∃ other, tid = "split:" ++ other ∧ SentTo past other

variable {env : Env} {driver : Mongo.Driver} {past : List FriendSystem.Event} {redis : Redis.Db Stored}

theorem list_ne_request (source tid : String) :
    useNameSpace BLACK_LIST_CACHE [source] ≠ REQUEST_NAMESPACE tid := by
  intro same
  have characters := congrArg (fun key : String => key.toList.take 1) same
  simp [useNameSpace, BLACK_LIST_CACHE, REQUEST_NAMESPACE, String.intercalate] at characters

theorem list_ne_split (source tid : String) :
    useNameSpace BLACK_LIST_CACHE [source] ≠ REQUEST_HASH_KEY_NAMESPACE tid := by
  rw [split_eq_namespace]
  exact list_ne_request source _

theorem performList_cases (call : ListCall) (redis : Redis.Db Stored) :
    performList redis call = redis ∨ ∃ source old members,
      Redis.setAt redis (useNameSpace BLACK_LIST_CACHE [source]) = .ok old ∧
      performList redis call = Redis.putSet redis (useNameSpace BLACK_LIST_CACHE [source]) members := by
  have removed : ∀ source target after, removeTarget BLACK_LIST_CACHE source target redis = .ok after →
      ∃ source old members, Redis.setAt redis (useNameSpace BLACK_LIST_CACHE [source]) = .ok old ∧
        after = Redis.putSet redis (useNameSpace BLACK_LIST_CACHE [source]) members := by
    intro source target after done
    obtain ⟨members, read, rfl⟩ := Redis.map_ok.mp done
    exact ⟨source, members, _, read, rfl⟩
  cases call with
  | block source target => exact .inl rfl
  | unblock source target =>
    simp only [performList, unblock, inBlackList_eq_true, if_true]
    cases done : removeTarget BLACK_LIST_CACHE source target redis with
    | error e => exact .inl rfl
    | ok after => exact .inr (removed source target after done)
  | addBlackList source target =>
    simp only [performList]
    cases done : addBlackList BLACK_LIST_CACHE source target redis with
    | error e => exact .inl rfl
    | ok after =>
      obtain ⟨members, read, rfl⟩ := Redis.map_ok.mp done
      exact .inr ⟨source, members, _, read, rfl⟩
  | removeTarget source target =>
    simp only [performList]
    cases done : removeTarget BLACK_LIST_CACHE source target redis with
    | error e => exact .inl rfl
    | ok after => exact .inr (removed source target after done)

/-! ### The types of the keys -/

/-- What a key may hold, given the requests sent so far. -/
def Allowed (past : List FriendSystem.Event) (key : String) : Option (Redis.Value Stored) → Prop
  | none => True
  | some (.string _) => False
  | some (.hash _) => ∃ tid, key = REQUEST_NAMESPACE tid ∧ SentTo past tid
  | some (.zset _) => ∃ tid, key = REQUEST_HASH_KEY_NAMESPACE tid ∧ SentTo past tid
  | some (.set _) => ∃ source, key = useNameSpace BLACK_LIST_CACHE [source]

def Typed (past : List FriendSystem.Event) (redis : Redis.Db Stored) : Prop := ∀ key, Allowed past key (redis key)

theorem SentTo.append {tid : String} (sent : SentTo past tid) (more : List FriendSystem.Event) :
    SentTo (past ++ more) tid := by
  obtain ⟨source, clock, member⟩ := sent
  exact ⟨source, clock, List.mem_append_left _ member⟩

theorem Typed.append (typed : Typed past redis) (more : List FriendSystem.Event) : Typed (past ++ more) redis := by
  intro key
  have allowed := typed key
  revert allowed
  cases redis key with
  | none => exact id
  | some value =>
    cases value with
    | string text => exact id
    | hash fields | zset scores =>
      rintro ⟨tid, same, sent⟩
      exact ⟨tid, same, sent.append more⟩
    | set members => exact id

theorem Typed.update {key : String} {value : Option (Redis.Value Stored)} (typed : Typed past redis)
    (allowed : Allowed past key value) : Typed past (Function.update redis key value) := by
  intro other
  by_cases same : other = key
  · subst same
    rw [Function.update_self]
    exact allowed
  · rw [Function.update_of_ne same]
    exact typed other

theorem Typed.putHash {tid : String} {fields : AList fun _ : String => Stored} (typed : Typed past redis)
    (sent : SentTo past tid) : Typed past (Redis.putHash redis (REQUEST_NAMESPACE tid) fields) := by
  apply typed.update
  split
  · trivial
  · exact ⟨tid, rfl, sent⟩

theorem Typed.hdel {key field : String} {after : Redis.Db Stored} (typed : Typed past redis)
    (done : Redis.hdel redis key field = .ok after) : Typed past after := by
  obtain ⟨fields, read, rfl⟩ := Redis.map_ok.mp done
  apply typed.update
  have allowed := typed key
  unfold Redis.hashAt at read
  split at read
  · obtain rfl := Except.ok.inj read
    trivial
  · rename_i found
    rw [found] at allowed
    split
    · trivial
    · exact allowed
  · cases read

theorem Typed.perform (typed : Typed past redis) (call : ListCall) : Typed past (performList redis call) := by
  rcases performList_cases call redis with same | ⟨source, _, members, _, same⟩
  · rw [same]
    exact typed
  · rw [same]
    apply typed.update
    split
    · trivial
    · exact ⟨source, rfl⟩

/-- Away from such a clash, both request keys of a recipient have their types. -/
theorem Typed.readable {tid : String} (typed : Typed past redis) (apart : ¬ Clashes past tid) :
    ∃ fields scores, Redis.hashAt redis (REQUEST_NAMESPACE tid) = .ok fields ∧
      Redis.zsetAt redis (REQUEST_HASH_KEY_NAMESPACE tid) = .ok scores := by
  have hash : ∃ fields, Redis.hashAt redis (REQUEST_NAMESPACE tid) = .ok fields := by
    have allowed := typed (REQUEST_NAMESPACE tid)
    unfold Redis.hashAt
    cases held : redis (REQUEST_NAMESPACE tid) with
    | none => exact ⟨∅, rfl⟩
    | some value =>
      rw [held] at allowed
      cases value with
      | string text => exact allowed.elim
      | hash fields => exact ⟨fields, rfl⟩
      | zset scores =>
        obtain ⟨other, same, sent⟩ := allowed
        rw [split_eq_namespace] at same
        exact (apart (.inr ⟨other, requestNamespace_inj same, sent⟩)).elim
      | set members =>
        obtain ⟨source, same⟩ := allowed
        exact (list_ne_request source tid same.symm).elim
  have zset : ∃ scores, Redis.zsetAt redis (REQUEST_HASH_KEY_NAMESPACE tid) = .ok scores := by
    have allowed := typed (REQUEST_HASH_KEY_NAMESPACE tid)
    unfold Redis.zsetAt
    cases held : redis (REQUEST_HASH_KEY_NAMESPACE tid) with
    | none => exact ⟨∅, rfl⟩
    | some value =>
      rw [held] at allowed
      cases value with
      | string text => exact allowed.elim
      | hash fields =>
        obtain ⟨other, same, sent⟩ := allowed
        rw [split_eq_namespace] at same
        obtain rfl := requestNamespace_inj same
        exact (apart (.inl sent)).elim
      | zset scores => exact ⟨scores, rfl⟩
      | set members =>
        obtain ⟨source, same⟩ := allowed
        exact (list_ne_split source tid same.symm).elim
  obtain ⟨fields, read⟩ := hash
  obtain ⟨scores, ranked⟩ := zset
  exact ⟨fields, scores, read, ranked⟩

theorem sentTo_of_requested {request : Request} (requested : Requested env past request) :
    SentTo past request.recive := by
  obtain ⟨clock, member, _⟩ := requested
  exact ⟨request.sender, clock, member⟩

theorem Typed.effect {s store : Store} {task : Task} {event : FriendSystem.Event} {rest : List Task}
    (effect : Effect env driver s task event store rest) (justified : Justified env past task)
    (typed : Typed past s.redis) : Typed past store.redis := by
  cases effect with
  | hset bound carries done =>
    obtain ⟨fields, _, rfl⟩ := Redis.map_ok.mp done
    exact typed.putHash (sentTo_of_requested (justified.1 bound _ carries))
  | hsetnx done =>
    obtain ⟨fields, _, wrote⟩ := Redis.map_ok.mp done
    split at wrote
    · rw [← wrote]
      exact typed
    · rw [← wrote]
      exact typed.putHash (sentTo_of_requested justified)
  | zadd done =>
    obtain ⟨scores, _, rfl⟩ := Redis.map_ok.mp done
    exact typed.update ⟨_, rfl, sentTo_of_requested justified⟩
  | hdel _ _ done | remove done => exact typed.hdel done
  | _ => exact typed

theorem Typed.service {s s' : State} {event : FriendSystem.Event} (taken : FriendSystem.Step env driver s event s')
    (sound : Sound env past s) (typed : Typed past s.store.redis) : Typed past s'.store.redis := by
  cases taken with
  | removeRequest done => exact typed.hdel done
  | @run pre task post event store rest here effect => exact typed.effect effect (sound.1 task (by simp [here]))
  | _ => exact typed

/-! ### Runs -/

theorem served_append (past more : List Event) : served (past ++ more) = served past ++ served more :=
  List.filterMap_append

theorem mem_served {past : List Event} {event : FriendSystem.Event} :
    event ∈ served past ↔ .service event ∈ past := by
  rw [served, List.mem_filterMap]
  constructor
  · intro ⟨x, member, same⟩
    cases x with
    | service inner =>
      obtain rfl := Option.some.inj same
      exact member
    | list call => cases same
  · intro member
    exact ⟨_, member, rfl⟩

/-- A call on a black list leaves the requests as they are, so what holds of them for the services
alone holds here too. -/
theorem run_sound {now : Int} {h : History} {s : State} (run : Run env driver now h s) :
    Sound env (served (labels h)) s ∧ Typed (served (labels h)) s.store.redis := by
  induction run with
  | nil => exact ⟨init_sound now, fun _ => trivial⟩
  | @snoc past state next event before taken ih =>
    obtain ⟨sound, typed⟩ := ih
    rw [labels_append, served_append]
    cases taken with
    | service taken => exact ⟨taken.sound sound, (typed.service taken sound).append _⟩
    | @list call =>
      have idle : served (labels [(state, .list call)]) = [] := rfl
      rw [idle, List.append_nil]
      refine ⟨⟨sound.1, fun key field request held => sound.2 key field request ?_⟩, typed.perform call⟩
      rcases performList_cases call state.store.redis with same | ⟨source, old, members, read, same⟩
      · rwa [same] at held
      · rw [same] at held
        exact (Redis.holds_putSet read).mp held

theorem Listed.congr {redis' : Redis.Db Stored} {source target : String} (listed : Listed redis source target)
    (same : redis' (useNameSpace BLACK_LIST_CACHE [source]) = redis (useNameSpace BLACK_LIST_CACHE [source])) :
    Listed redis' source target := by
  unfold Listed Redis.sismember Redis.setAt at listed ⊢
  rw [same]
  exact listed

/-- Whoever is on the black list of whom, `add` throws for a friend alone. Else it files the request,
and the black list stays as it is. -/
theorem listed_files {now : Int} {h : History} {s : State} {source target : String}
    (run : Run env driver now h s) (listed : Listed s.store.redis target source) (msg : Json)
    (unanswered : Redis.ReplyError → Failure) :
    let dto : AddFriendDto := ⟨target, msg⟩
    let request := addedRequest env s.store.now source dto
    let called := add env unanswered s.store.now s.store.friends source dto s.store.redis
    (hasFriend s.store.friends source target = true →
      called = (s.store.redis, .error (.service .HAS_FRIEND .BAD_REQUEST))) ∧
    (hasFriend s.store.friends source target = false → ¬ Clashes (served (labels h)) target →
      called.2 = .ok true ∧
      Redis.Holds called.1 (REQUEST_NAMESPACE target) (ridOf env request) (.record request) ∧
      request.sender = source ∧ request.recive = target ∧ request.metadata = some (.obj [("msg", msg)]) ∧
      (∀ key, key ≠ REQUEST_NAMESPACE target → key ≠ REQUEST_HASH_KEY_NAMESPACE target →
        called.1 key = s.store.redis key) ∧
      Listed called.1 target source) ∧
    ∀ tid rid request, Redis.Holds s.store.redis (REQUEST_NAMESPACE tid) rid (.record request) →
      request.recive = tid ∧ ∃ clock, .service (.add request.sender tid clock) ∈ labels h := by
  intro dto request called
  obtain ⟨⟨_, filed⟩, typed⟩ := run_sound run
  refine ⟨fun has => add_friend has, fun new apart => ?_, fun tid rid stored held => ?_⟩
  · obtain ⟨fields, scores, hash, zset⟩ := typed.readable apart
    have answer : called = (filing env request fields scores s.store.redis, .ok true) := @add_ok env unanswered
      s.store.now s.store.friends source dto s.store.redis new fields scores hash zset
    have frame : ∀ key, key ≠ REQUEST_NAMESPACE target → key ≠ REQUEST_HASH_KEY_NAMESPACE target →
        called.1 key = s.store.redis key := by
      intro key notHash notZset
      rw [answer]
      exact filing_of_ne notHash notZset
    refine ⟨by rw [answer], ?_, rfl, rfl, rfl, frame, ?_⟩
    · rw [answer]
      exact holds_filing
    · exact listed.congr (frame _ (list_ne_request _ _) (list_ne_split _ _))
  · obtain ⟨key, -, clock, member, _⟩ := filed _ _ _ held
    obtain rfl := requestNamespace_inj key
    exact ⟨rfl, clock, mem_served.mp member⟩

/-- The black list of user 2 with user 1 on it, and nothing else. -/
def sampleListed : State := { init 0 with store := { (init 0).store with
  redis := performList (fun _ => none) (.addBlackList "2" "1") } }

theorem sampleListed_run : Run sampleEnv .standard 0 [(init 0, .list (.addBlackList "2" "1"))] sampleListed :=
  .snoc .nil .list

theorem sampleListed_listed : Listed sampleListed.store.redis "2" "1" := by
  show (Redis.setAt (Redis.putSet _ _ _) _).map _ = _
  rw [Redis.setAt_putSet]
  rfl

theorem listed_files_sample :
    let called := add sampleEnv .redis 0 [] "1" ⟨"2", .str "hi"⟩ sampleListed.store.redis
    called.2 = .ok true ∧ Listed called.1 "2" "1" := by
  obtain ⟨_, files, _⟩ := listed_files sampleListed_run sampleListed_listed (.str "hi") .redis
  have apart : ¬ Clashes (served (labels [(init 0, .list (.addBlackList "2" "1"))])) "2" := by
    intro clashes
    rcases clashes with ⟨_, _, member⟩ | ⟨_, _, _, _, member⟩
    · cases member
    · cases member
  obtain ⟨done, _, _, _, _, _, listed⟩ := files rfl apart
  exact ⟨done, listed⟩

/-- User 1 is on the black list of user 2, and his request gets into the inbox of user 2. -/
theorem listed_request_enters : ∃ h s redis, Run sampleEnv .standard 0 h s ∧ Listed s.store.redis "2" "1" ∧
    add sampleEnv .redis s.store.now s.store.friends "1" ⟨"2", .str "hi"⟩ s.store.redis = (redis, .ok true) ∧
    Redis.hget s.store.redis (REQUEST_NAMESPACE "2") "1-2-1-9253d76ce549de18" = .ok none ∧
    Redis.Holds redis (REQUEST_NAMESPACE "2") "1-2-1-9253d76ce549de18"
      (.record (addedRequest sampleEnv s.store.now "1" ⟨"2", .str "hi"⟩)) := by
  let request := addedRequest sampleEnv 0 "1" ⟨"2", .str "hi"⟩
  have blank : ∀ key, key ≠ useNameSpace BLACK_LIST_CACHE ["2"] → sampleListed.store.redis key = none := by
    intro key different
    exact Redis.putSet_of_ne (fun _ => none) (insert "1" ∅) different
  have hash : Redis.hashAt sampleListed.store.redis (REQUEST_NAMESPACE "2") = .ok ∅ := by
    rw [Redis.hashAt, blank _ (list_ne_request _ _).symm]
  have zset : Redis.zsetAt sampleListed.store.redis (REQUEST_HASH_KEY_NAMESPACE "2") = .ok ∅ := by
    rw [Redis.zsetAt, blank _ (list_ne_split _ _).symm]
  refine ⟨_, sampleListed, filing sampleEnv request ∅ ∅ sampleListed.store.redis, sampleListed_run, sampleListed_listed,
    add_ok rfl hash zset, ?_, ?_⟩
  · rw [Redis.hget, hash]
    rfl
  · exact @holds_filing sampleEnv request sampleListed.store.redis ∅ ∅

end BlockedSystem

end TacoBack
