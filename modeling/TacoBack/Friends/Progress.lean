import TacoBack.Friends.System
import TacoBack.Request.Store

/-!
# Undisturbed requests

Left alone, an `add` files its request, and a `call` that accepts it ends in a friendship.
-/

namespace TacoBack.RequestService

theorem object_ne_split (tid : String) : REQUEST_NAMESPACE "[object Object]" ≠ REQUEST_HASH_KEY_NAMESPACE tid := by
  intro same
  have characters := congrArg (fun key : String => key.toList.take 9) same
  simp [REQUEST_HASH_KEY_NAMESPACE, REQUEST_NAMESPACE] at characters

end TacoBack.RequestService

namespace TacoBack.FriendSystem

open RequestService FriendsService Transition

variable {env : Env} {driver : Mongo.Driver} {s : State}

theorem Step.first {task : Task} {post rest : List Task} {event : Event} {store : Store}
    (here : s.tasks = task :: post) (effect : Effect env driver s.store task event store rest) :
    Step env driver s event { store := store, tasks := rest ++ post } := by
  simpa using @Step.run env driver s [] task post event store rest here effect

theorem add_files {source : String} {dto : AddFriendDto} (idle : s.tasks = [])
    (new : hasFriend s.store.friends source dto.tid = false)
    {fields : AList fun _ : String => Stored} {scores : AList fun _ : String => Int}
    (hash : Redis.hashAt s.store.redis (REQUEST_NAMESPACE dto.tid) = .ok fields)
    (zset : Redis.zsetAt s.store.redis (REQUEST_HASH_KEY_NAMESPACE dto.tid) = .ok scores) :
    let request := addedRequest env s.store.now source dto
    ∃ history redis,
      Transition.Run (Step env driver) s history { s with store := { s.store with redis := redis } } ∧
      labels history = [.internal, .add source dto.tid s.store.now, .hset dto.tid (ridOf env request),
        .internal, .internal] ∧
      Redis.Holds redis (REQUEST_NAMESPACE dto.tid) (ridOf env request) (.record request) ∧
      ∀ key, key ≠ REQUEST_NAMESPACE dto.tid → key ≠ REQUEST_HASH_KEY_NAMESPACE dto.tid →
        redis key = s.store.redis key := by
  intro request
  obtain ⟨store, tasks⟩ := s
  obtain rfl : tasks = [] := idle
  obtain ⟨written, wrote, skipped, ranked⟩ := @filing_commands env request _ _ _ hash zset
  have start : Transition.Run (Step env driver) ⟨store, []⟩ [] ⟨store, []⟩ := .nil
  have called := start.snoc (.add new)
  have sent := called.snoc (.first rfl .add)
  have first := sent.snoc (.first rfl (.hset (handlerOf_addRequestMessage request) rfl wrote))
  have second := first.snoc (.first rfl (.hsetnx skipped))
  have third := second.snoc (.first rfl (.zadd ranked))
  exact ⟨_, _, third, rfl, holds_filing, fun key notHash notZset => filing_of_ne notHash notZset⟩

def Removable (redis : Redis.Db Stored) : Prop :=
  ∃ fields, Redis.hashAt redis (REQUEST_NAMESPACE "[object Object]") = .ok fields

/-- A stored request that its recipient accepts in time, and that nobody disturbs, makes the two
users friends. The request stays where it was. -/
theorem call_accepts {tid rid : String} {dto : Request} (idle : s.tasks = []) (named : tid ≠ "[object Object]")
    (held : Redis.Holds s.store.redis (REQUEST_NAMESPACE tid) rid (.record dto)) (module : dto.module = .FRIEND)
    (action : dto.action = .ADD) (fresh : isExpired dto s.store.now = false)
    (removable : Removable s.store.redis) :
    ∃ history redis, Transition.Run (Step env driver) s history
        { s with store := { s.store with redis := redis, friends := s.store.friends ++ edges dto } } ∧
      labels history = [.call tid rid .accept, .internal, .internal, .internal, .internal, .internal, .internal,
        .accept dto s.store.now, .answered ⟨tid, rid, .accept⟩] ∧
      Redis.Holds redis (REQUEST_NAMESPACE tid) rid (.record dto) ∧ Removable redis := by
  obtain ⟨store, tasks⟩ := s
  obtain rfl : tasks = [] := idle
  obtain ⟨fields, readable⟩ := removable
  have sent : callSend store.now dto .accept = .ok (acceptMessage dto) := by
    simp only [callSend, fresh, getModule, getAction, module, action]
    rfl
  have done : removeRequestHandler env (removeArgs dto) store.redis = .ok _ := Redis.hdel_ok env.rawMessage readable
  have start : Transition.Run (Step env driver) ⟨store, []⟩ [] ⟨store, []⟩ := .nil
  have called := (start.snoc (.call (callRead_ok.mpr held))).snoc (.first rfl (.call sent))
  have opened := (called.snoc (.first rfl (.accept (handlerOf_acceptMessage dto) rfl))).snoc (.first rfl (.open fresh))
  have saved := (opened.snoc (.first rfl .saveFirst)).snoc (.first rfl .saveSecond)
  have committed := (saved.snoc (.first rfl (.remove done))).snoc (.first rfl .commit)
  refine ⟨_, _, committed.snoc (.first rfl .reply), rfl, ?_, _, Redis.hashAt_putHash _ _ _⟩
  exact (Redis.holds_hdel done).mpr ⟨fun same => named (requestNamespace_inj same.1), held⟩

/-- From the empty store, one `add` and one `call` make two users friends. -/
theorem befriend (env : Env) (driver : Mongo.Driver) (now : Int) (source : String) (dto : AddFriendDto)
    (named : dto.tid ≠ "[object Object]") (lifetime : 0 ≤ env.requestExpire) :
    let request := addedRequest env now source dto
    ∃ history s, Run env driver now history s ∧ s.tasks = [] ∧ s.store.now = now ∧
      s.store.friends = edges request ∧
      labels history = [.internal, .add source dto.tid now, .hset dto.tid (ridOf env request), .internal,
        .internal, .call dto.tid (ridOf env request) .accept, .internal, .internal, .internal, .internal,
        .internal, .internal, .accept request now, .answered ⟨dto.tid, ridOf env request, .accept⟩] ∧
      Redis.Holds s.store.redis (REQUEST_NAMESPACE dto.tid) (ridOf env request) (.record request) ∧
      Removable s.store.redis := by
  intro request
  have hash : Redis.hashAt (fun _ => none : Redis.Db Stored) (REQUEST_NAMESPACE dto.tid) = .ok ∅ := rfl
  have zset : Redis.zsetAt (fun _ => none : Redis.Db Stored) (REQUEST_HASH_KEY_NAMESPACE dto.tid) = .ok ∅ := rfl
  obtain ⟨filing, filed, files, filingLabels, held, frame⟩ :=
    @add_files env driver (init now) source dto rfl rfl _ _ hash zset
  have fresh : isExpired request now = false := by
    rw [isExpired_eq_false]
    simp only [request, addedRequest, createRequest, if_true]
    omega
  have removable : Removable filed := by
    refine ⟨∅, ?_⟩
    have absent : filed (REQUEST_NAMESPACE "[object Object]") = none :=
      frame _ (fun same => named (requestNamespace_inj same).symm) (object_ne_split dto.tid)
    rw [Redis.hashAt, absent]
  obtain ⟨accepting, redis, accepts, acceptingLabels, still, again⟩ :=
    @call_accepts env driver { init now with store := { (init now).store with redis := filed } } dto.tid
      (ridOf env request) request rfl named held rfl rfl fresh removable
  refine ⟨_, _, files.append accepts, rfl, rfl, rfl, ?_, still, again⟩
  rw [labels_append, filingLabels, acceptingLabels]
  rfl

def sampleAdd : AddFriendDto where
  tid := "2"
  msg := .str "hi"

end TacoBack.FriendSystem
