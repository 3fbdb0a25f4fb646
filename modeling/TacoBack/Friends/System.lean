import TacoBack.Friends.Service
import TacoBack.Lib.Transition

/-!
# The friend and request services as one system

Any number of users call the services at once. A call is cut at every awaited store command and
message: what is left of it waits as a `Task`, and the tasks go on in any order. Messages are tasks
too, so they may be delayed without bound.
-/

namespace TacoBack.FriendSystem

open RequestService FriendsService

structure Caller where
  tid : String
  rid : String
  status : Status
  deriving DecidableEq

/-- How far `accept` has come. The clock is the one `isExpired` read. -/
inductive Stage where
  | started
  | opened (clock : Int)
  | savedFirst (clock : Int)
  | savedSecond (clock : Int)
  | removed (clock : Int)

def Stage.clock : Stage → Option Int
  | .started => none
  | .opened clock | .savedFirst clock | .savedSecond clock | .removed clock => some clock

/-- What is left of a call: of `add`, `updateTag` and `remove` once `hasFriend` has answered, of `call`
once it has read the request, of `addRequest` before its second and third command. -/
inductive Task where
  | add (source : String) (dto : AddFriendDto)
  | call (caller : Caller) (request : Request)
  | message (message : Message) (caller : Option Caller)
  | hsetnx (request : Request)
  | zadd (request : Request)
  | accept (caller : Option Caller) (dto : Request) (stage : Stage)
  | reply (caller : Caller)
  | updateTag (source : String) (dto : ChangeFriendTag)
  | remove (source target : String)
  | delete (source id : String)

/-- What a step shows: `add` sent its request, `call` found one or got its reply, a field was written,
the transaction of `accept` was committed. -/
inductive Event where
  | internal
  | users (users : List Users)
  | add (source tid : String) (clock : Int)
  | hset (tid rid : String)
  | call (tid rid : String) (status : Status)
  | removeRequest (tid rid : String)
  | accept (dto : Request) (clock : Int)
  | answered (caller : Caller)

structure Store where
  now : Int
  redis : Redis.Db Stored
  friends : List Friend
  users : List Users

structure State where
  store : Store
  tasks : List Task

def init (now : Int) : State where
  store := { now := now, redis := fun _ => none, friends := [], users := [] }
  tasks := []

/-- What is left of a task one of whose awaited steps fails. The queue delivers the message of a
failed handler again, or drops it; a `request.remove` message may outlive the `accept` that gave up
waiting for it. -/
def leftovers : Task → List (List Task)
  | .hsetnx request | .zadd request => [[], [.message (addRequestMessage request) none]]
  | .accept caller dto (.savedSecond _) =>
    [[], [.message (acceptMessage dto) caller], [.message (removeRequestMessage dto) none],
      [.message (removeRequestMessage dto) none, .message (acceptMessage dto) caller]]
  | .accept caller dto _ => [[], [.message (acceptMessage dto) caller]]
  | _ => [[]]

theorem leftovers_cases {task next : Task} {rest : List Task} (left : rest ∈ leftovers task) (member : next ∈ rest) :
    (∃ request, (task = .hsetnx request ∨ task = .zadd request) ∧
      next = .message (addRequestMessage request) none) ∨
    ∃ caller dto stage, task = .accept caller dto stage ∧
      (next = .message (acceptMessage dto) caller ∨ next = .message (removeRequestMessage dto) none) := by
  cases task with
  | hsetnx request | zadd request =>
    simp only [leftovers, List.mem_cons, List.not_mem_nil, or_false] at left
    rcases left with rfl | rfl
    · cases member
    · exact .inl ⟨request, by simp, List.mem_singleton.mp member⟩
  | accept caller dto stage =>
    refine .inr ⟨caller, dto, stage, rfl, ?_⟩
    cases stage <;> simp only [leftovers, List.mem_cons, List.not_mem_nil, or_false] at left
    case savedSecond =>
      rcases left with rfl | rfl | rfl | rfl <;>
        simp only [List.mem_cons, List.not_mem_nil, or_false] at member
      · exact .inl member
      · exact .inr member
      · exact member.symm
    all_goals
      rcases left with rfl | rfl <;> simp only [List.mem_cons, List.not_mem_nil, or_false] at member
      exact .inl member
  | _ =>
    obtain rfl := List.mem_singleton.mp left
    cases member

inductive Effect (env : Env) (driver : Mongo.Driver) (s : Store) : Task → Event → Store → List Task → Prop where
  | add {source dto} :
      Effect env driver s (.add source dto) (.add source dto.tid s.now) s
        [.message (addRequestMessage (addedRequest env s.now source dto)) none]
  | call {caller request message} (sent : callSend s.now request caller.status = .ok message) :
      Effect env driver s (.call caller request) .internal s [.message message (some caller)]
  | hset {message caller request redis} (bound : handlerOf message = some .addRequest)
      (carries : message.payload = .request request) (done : addHset env request s.redis = .ok redis) :
      Effect env driver s (.message message caller) (.hset request.recive (ridOf env request))
        { s with redis := redis } [.hsetnx request]
  | hsetnx {request redis} (done : addHsetnx env request s.redis = .ok redis) :
      Effect env driver s (.hsetnx request) .internal { s with redis := redis } [.zadd request]
  | zadd {request redis} (done : addZadd env request s.redis = .ok redis) :
      Effect env driver s (.zadd request) .internal { s with redis := redis } []
  | hdel {message caller fields redis} (bound : handlerOf message = some .removeRequest)
      (carries : message.payload = .args fields) (done : removeRequestHandler env fields s.redis = .ok redis) :
      Effect env driver s (.message message caller) .internal { s with redis := redis } []
  | accept {message caller dto} (bound : handlerOf message = some .accept)
      (carries : message.payload = .request dto) :
      Effect env driver s (.message message caller) .internal s [.accept caller dto .started]
  | open {caller dto} (fresh : isExpired dto s.now = false) :
      Effect env driver s (.accept caller dto .started) .internal s [.accept caller dto (.opened s.now)]
  | saveFirst {caller dto clock} :
      Effect env driver s (.accept caller dto (.opened clock)) .internal s
        [.accept caller dto (.savedFirst clock)]
  | saveSecond {caller dto clock} :
      Effect env driver s (.accept caller dto (.savedFirst clock)) .internal s
        [.accept caller dto (.savedSecond clock)]
  | remove {caller dto clock redis} (done : removeRequestHandler env (removeArgs dto) s.redis = .ok redis) :
      Effect env driver s (.accept caller dto (.savedSecond clock)) .internal { s with redis := redis }
        [.accept caller dto (.removed clock)]
  | commit {caller dto clock} :
      Effect env driver s (.accept caller dto (.removed clock)) (.accept dto clock)
        { s with friends := s.friends ++ edges dto } (caller.toList.map .reply)
  | reply {caller} : Effect env driver s (.reply caller) (.answered caller) s []
  | updateTag {source dto} :
      Effect env driver s (.updateTag source dto) .internal
        { s with friends := setTag source dto s.friends } []
  | findUser {source target id} (found : removedId driver s.users target = .ok id) :
      Effect env driver s (.remove source target) .internal s [.delete source id]
  | delete {source id} :
      Effect env driver s (.delete source id) .internal
        { s with friends := deleteEdge source id s.friends } []
  | fail {task rest} (left : rest ∈ leftovers task) : Effect env driver s task .internal s rest

/-- One step of the system. A call that throws at its first command takes no step. `removeRequest`
may be called directly as well, and the users collection may change at any time. -/
inductive Step (env : Env) (driver : Mongo.Driver) (s : State) : Event → State → Prop where
  | tick {now} (later : s.store.now ≤ now) :
      Step env driver s .internal { s with store := { s.store with now := now } }
  | users {users} : Step env driver s (.users users) { s with store := { s.store with users := users } }
  | add {source} {dto : AddFriendDto} (new : hasFriend s.store.friends source dto.tid = false) :
      Step env driver s .internal { s with tasks := s.tasks ++ [.add source dto] }
  | call {tid rid status request} (found : callRead tid rid s.store.redis = .ok request) :
      Step env driver s (.call tid rid status)
        { s with tasks := s.tasks ++ [.call ⟨tid, rid, status⟩ request] }
  | removeRequest {tid rid redis} (done : removeRequest tid rid s.store.redis = .ok redis) :
      Step env driver s (.removeRequest tid rid) { s with store := { s.store with redis := redis } }
  | updateTag {source} {dto : ChangeFriendTag} (has : hasFriend s.store.friends source dto.tid = true) :
      Step env driver s .internal { s with tasks := s.tasks ++ [.updateTag source dto] }
  | remove {source target} (has : hasFriend s.store.friends source target = true) :
      Step env driver s .internal { s with tasks := s.tasks ++ [.remove source target] }
  | run {pre task post event store rest} (here : s.tasks = pre ++ task :: post)
      (effect : Effect env driver s.store task event store rest) :
      Step env driver s event { store := store, tasks := pre ++ rest ++ post }

abbrev History := List (State × Event)

abbrev Run (env : Env) (driver : Mongo.Driver) (now : Int) : History → State → Prop :=
  Transition.Run (Step env driver) (init now)

end TacoBack.FriendSystem
