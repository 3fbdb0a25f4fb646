import TacoBack.Friends.Progress

/-!
# Before and after the deadline

Until a request expires, its recipient can make the friendship, whatever else is under way: nothing the services
do, and nothing that fails, puts the request beyond his reach. `accept` reads the clock once, before it opens its
transaction. So when a request has expired, what can still commit are the transactions that are open by then, each
once, and redelivery opens no others.
-/

namespace TacoBack.FriendSystem

open RequestService FriendsService Transition

variable {env : Env} {driver : Mongo.Driver} {s t : State} {event : Event} {now : Int} {history : History}
  {dto : Request}

/-! ### The requests in the system -/

/-- A request that `add` built. -/
def Built (env : Env) (request : Request) : Prop := ∃ clock source dto, request = addedRequest env clock source dto

def Task.requests : Task → List Request
  | .call _ request | .message ⟨_, _, .request request⟩ _ | .hsetnx request | .zadd request
  | .accept _ request _ => [request]
  | _ => []

def AllBuilt (env : Env) (task : Task) : Prop := ∀ request ∈ task.requests, Built env request

theorem requests_message {message : Message} {caller : Option Caller} {request : Request}
    (carries : message.payload = .request request) : (Task.message message caller).requests = [request] := by
  obtain ⟨exchange, routingKey, payload⟩ := message
  obtain rfl : payload = .request request := carries
  rfl

theorem leftovers_requests {task : Task} {rest : List Task} (left : rest ∈ leftovers task) (built : AllBuilt env task) :
    ∀ next ∈ rest, AllBuilt env next := by
  intro next member request carried
  rcases leftovers_cases left member with ⟨other, rfl | rfl, rfl⟩ | ⟨caller, other, stage, rfl, rfl | rfl⟩
  · exact built request carried
  · exact built request carried
  · exact built request carried
  · cases carried

theorem Effect.built {store store' : Store} {task : Task} {rest : List Task}
    (effect : Effect env driver store task event store' rest) (built : AllBuilt env task) :
    ∀ next ∈ rest, AllBuilt env next := by
  cases effect with
  | @add source dto =>
    simp only [List.forall_mem_singleton, AllBuilt, Task.requests, addRequestMessage]
    exact ⟨store.now, source, dto, rfl⟩
  | @call caller request message sent =>
    have carries : message.payload = .request request := by
      unfold callSend at sent
      split at sent
      · cases sent
      · obtain rfl := Except.ok.inj sent
        rfl
    rw [List.forall_mem_singleton, AllBuilt, requests_message carries]
    exact built
  | hset bound carries done | accept bound carries =>
    rw [AllBuilt, requests_message carries] at built
    exact List.forall_mem_singleton.mpr built
  | hsetnx | «open» | saveFirst | saveSecond | remove => exact List.forall_mem_singleton.mpr built
  | @commit caller dto clock => cases caller <;> simp [AllBuilt, Task.requests]
  | findUser => simp [AllBuilt, Task.requests]
  | fail left => exact leftovers_requests left built
  | _ => simp

theorem Effect.records_built {store store' : Store} {task : Task} {rest : List Task}
    (effect : Effect env driver store task event store' rest) (built : AllBuilt env task)
    (records : ∀ key field request, Redis.Holds store.redis key field (.record request) → Built env request) :
    ∀ key field request, Redis.Holds store'.redis key field (.record request) → Built env request := by
  intro key field request held
  cases effect with
  | hset bound carries done =>
    rw [AllBuilt, requests_message carries] at built
    rcases (Redis.holds_hset done).mp held with ⟨-, -, same⟩ | ⟨-, old⟩
    · obtain rfl := Stored.record.inj same
      exact built _ (List.mem_singleton_self _)
    · exact records key field request old
  | hsetnx done =>
    rcases (Redis.holds_hsetnx done).mp held with ⟨-, -, same, -⟩ | old
    · cases same
    · exact records key field request old
  | zadd done => exact records key field request ((Redis.holds_zadd done).mp held)
  | hdel _ _ done | remove done => exact records key field request ((Redis.holds_hdel done).mp held).2
  | _ => exact records key field request held

theorem run_built (run : Run env driver now history s) :
    (∀ task ∈ s.tasks, AllBuilt env task) ∧
      ∀ key field request, Redis.Holds s.store.redis key field (.record request) → Built env request := by
  refine run.preserved (P := fun s => (∀ task ∈ s.tasks, AllBuilt env task) ∧
    ∀ key field request, Redis.Holds s.store.redis key field (.record request) → Built env request) ?_ ?_
  · exact ⟨by simp [init], fun _ _ _ held => (Redis.holds_empty held).elim⟩
  · rintro t event u ⟨tasks, records⟩ taken
    cases taken with
    | tick | users => exact ⟨tasks, records⟩
    | add | updateTag | remove => exact ⟨forall_spawned tasks (fun _ => id) (by simp [AllBuilt, Task.requests]), records⟩
    | call found =>
      have built := records _ _ _ (callRead_ok.mp found)
      exact ⟨forall_spawned tasks (fun _ => id) (by simpa [AllBuilt, Task.requests] using built), records⟩
    | removeRequest done =>
      exact ⟨tasks, fun key field request held => records key field request ((Redis.holds_hdel done).mp held).2⟩
    | @run pre task post event store rest here effect =>
      have built := tasks task (by simp [here])
      exact ⟨forall_replaced (here ▸ tasks) (fun _ => id) (effect.built built), effect.records_built built records⟩

/-! ### The handler of `request.remove` -/

theorem removable_putHash {redis : Redis.Db Stored} {key : String} (fields : AList fun _ : String => Stored)
    (removable : Removable redis) : Removable (Redis.putHash redis key fields) := by
  obtain ⟨old, read⟩ := removable
  by_cases same : REQUEST_NAMESPACE "[object Object]" = key
  · exact ⟨fields, by rw [same, Redis.hashAt_putHash]⟩
  · exact ⟨old, by rw [Redis.hashAt_putHash_of_ne _ _ same, read]⟩

/-- A handler can always delete: no sorted set stands under the key it deletes from. -/
theorem Effect.removable {store store' : Store} {task : Task} {rest : List Task}
    (effect : Effect env driver store task event store' rest) (removable : Removable store.redis) :
    Removable store'.redis := by
  cases effect with
  | hset _ _ done | hdel _ _ done | remove done =>
    obtain ⟨fields, -, rfl⟩ := Redis.map_ok.mp done
    exact removable_putHash _ removable
  | hsetnx done =>
    obtain ⟨fields, -, wrote⟩ := Redis.map_ok.mp done
    split at wrote
    · exact wrote ▸ removable
    · exact wrote ▸ removable_putHash _ removable
  | @zadd request redis done =>
    obtain ⟨fields, read⟩ := removable
    have kept := Redis.zadd_of_ne done (object_ne_split request.recive)
    exact ⟨fields, by rw [Redis.hashAt_congr kept, read]⟩
  | _ => exact removable

theorem run_removable (run : Run env driver now history s) : Removable s.store.redis := by
  refine run.preserved (P := fun s => Removable s.store.redis) ⟨∅, rfl⟩ fun t event u removable taken => ?_
  cases taken with
  | run here effect => exact effect.removable removable
  | removeRequest done =>
    obtain ⟨fields, -, rfl⟩ := Redis.map_ok.mp done
    exact removable_putHash _ removable
  | _ => exact removable

/-! ### Before the deadline -/

theorem Effect.taken {store store' : Store} {task : Task} {rest : List Task}
    (effect : Effect env driver store task event store' rest) (waiting : List Task) :
    Step env driver ⟨store, waiting ++ [task]⟩ event ⟨store', waiting ++ rest⟩ := by
  have taken := @Step.run env driver ⟨store, waiting ++ [task]⟩ waiting task [] event store' rest rfl effect
  rwa [List.append_nil] at taken

/-- A stored request is accepted ahead of everything that waits. -/
theorem accepts_ahead {store : Store} {waiting : List Task} {tid rid source : String} {clock : Int} {added : AddFriendDto}
    (held : Redis.Holds store.redis (REQUEST_NAMESPACE tid) rid (.record (addedRequest env clock source added)))
    (fresh : store.now ≤ (addedRequest env clock source added).expire) (removable : Removable store.redis) :
    ∃ later redis, Transition.Run (Step env driver) ⟨store, waiting⟩ later ⟨{ store with
        redis := redis, friends := store.friends ++ edges (addedRequest env clock source added) }, waiting⟩ ∧
      .answered ⟨tid, rid, .accept⟩ ∈ labels later := by
  obtain ⟨fields, readable⟩ := removable
  let dto := addedRequest env clock source added
  have unexpired : isExpired dto store.now = false := isExpired_eq_false.mpr fresh
  have sent : callSend store.now dto .accept = .ok (acceptMessage dto) := by
    rw [callSend, unexpired]
    rfl
  have done : removeRequestHandler env (removeArgs dto) store.redis = .ok _ := Redis.hdel_ok env.rawMessage readable
  have start : Transition.Run (Step env driver) ⟨store, waiting⟩ [] ⟨store, waiting⟩ := .nil
  have called := (start.snoc (.call (callRead_ok.mpr held))).snoc
    (Effect.taken (@Effect.call env driver store ⟨tid, rid, .accept⟩ dto _ sent) waiting)
  have opened := (called.snoc (Effect.taken (.accept (handlerOf_acceptMessage dto) rfl) waiting)).snoc
    (Effect.taken (.open unexpired) waiting)
  have saved := (opened.snoc (Effect.taken .saveFirst waiting)).snoc (Effect.taken .saveSecond waiting)
  have committed := (saved.snoc (Effect.taken (.remove done) waiting)).snoc (Effect.taken .commit waiting)
  have answered := committed.snoc (Effect.taken .reply waiting)
  rw [List.append_nil] at answered
  exact ⟨_, _, answered, by simp⟩

/-- In every state that a run reaches, the recipient of a stored request that has not expired can make the two users
friends, ahead of everything that waits. -/
theorem acceptable {tid rid : String} (run : Run env driver now history s)
    (held : Redis.Holds s.store.redis (REQUEST_NAMESPACE tid) rid (.record dto)) (fresh : s.store.now ≤ dto.expire) :
    ∃ later t, Transition.Run (Step env driver) s later t ∧ t.tasks = s.tasks ∧ t.store.now = s.store.now ∧
      t.store.friends = s.store.friends ++ edges dto ∧ .answered ⟨tid, rid, .accept⟩ ∈ labels later := by
  obtain ⟨clock, source, added, rfl⟩ := (run_built run).2 _ _ _ held
  obtain ⟨later, redis, accepted, answered⟩ := @accepts_ahead env driver s.store s.tasks _ _ _ _ _ held fresh
    (run_removable run)
  exact ⟨later, _, accepted, rfl, rfl, rfl, answered⟩

theorem acceptable_sample : ∃ history s dto, Run sampleEnv .standard 0 history s ∧ s.store.friends = [] ∧
    dto.sender = "1" ∧ dto.recive = "2" ∧
    ∃ later t, Transition.Run (Step sampleEnv .standard) s later t ∧ t.tasks = s.tasks ∧
      t.store.now = s.store.now ∧ t.store.friends = s.store.friends ++ edges dto ∧
      .answered ⟨"2", ridOf sampleEnv dto, .accept⟩ ∈ labels later := by
  obtain ⟨history, redis, run, -, held, -⟩ :=
    @add_files sampleEnv .standard (init 0) "1" sampleAdd rfl rfl ∅ ∅ rfl rfl
  have fresh : (0 : Int) ≤ (addedRequest sampleEnv 0 "1" sampleAdd).expire := by decide
  exact ⟨history, _, addedRequest sampleEnv 0 "1" sampleAdd, run, rfl, rfl, rfl, acceptable run held fresh⟩

/-! ### Without a request yet -/

/-- The state in which other tasks wait as well. -/
def State.behind (waiting : List Task) (s : State) : State := { s with tasks := waiting ++ s.tasks }

theorem Step.behind (taken : Step env driver s event t) (waiting : List Task) :
    Step env driver (s.behind waiting) event (t.behind waiting) := by
  have spawned : ∀ task : Task, State.behind waiting { s with tasks := s.tasks ++ [task] } =
      { s.behind waiting with tasks := (s.behind waiting).tasks ++ [task] } := by
    intro task
    simp [State.behind]
  cases taken with
  | tick later => exact .tick later
  | users => exact .users
  | removeRequest done => exact .removeRequest done
  | add new => exact spawned _ ▸ .add new
  | call found => exact spawned _ ▸ .call found
  | updateTag has => exact spawned _ ▸ .updateTag has
  | remove has => exact spawned _ ▸ .remove has
  | @run pre task post event store rest here effect =>
    have waits : (s.behind waiting).tasks = (waiting ++ pre) ++ task :: post := by
      rw [State.behind, here, List.append_assoc]
    have taken := Step.run waits effect
    rwa [List.append_assoc, List.append_assoc, ← List.append_assoc pre rest post] at taken

theorem run_behind (run : Transition.Run (Step env driver) s history t) (waiting : List Task) :
    ∃ h, Transition.Run (Step env driver) (s.behind waiting) h (t.behind waiting) ∧ labels h = labels history := by
  obtain ⟨h, behind, same⟩ := Run.simulate (C := fun _ => True) (State.behind waiting) (fun event : Event => [event])
    (fun event : Event => [event]) (fun _ _ _ _ _ taken _ => ⟨_, Run.single (taken.behind waiting), rfl⟩) run
    fun _ _ => trivial
  exact ⟨h, behind, by simpa using same⟩

/-- In every state that a run reaches, two users who are no friends yet can become friends, ahead of everything that
waits, as long as the keys of the recipient can be read. -/
theorem befriendable {source : String} {added : AddFriendDto} (run : Run env driver now history s)
    (new : hasFriend s.store.friends source added.tid = false) (lifetime : 0 ≤ env.requestExpire)
    {fields : AList fun _ : String => Stored} {scores : AList fun _ : String => Int}
    (hash : Redis.hashAt s.store.redis (REQUEST_NAMESPACE added.tid) = .ok fields)
    (zset : Redis.zsetAt s.store.redis (REQUEST_HASH_KEY_NAMESPACE added.tid) = .ok scores) :
    ∃ later t, Transition.Run (Step env driver) s later t ∧ t.tasks = s.tasks ∧ t.store.now = s.store.now ∧
      t.store.friends = s.store.friends ++ edges (addedRequest env s.store.now source added) ∧
      hasFriend t.store.friends source added.tid = true ∧ hasFriend t.store.friends added.tid source = true := by
  obtain ⟨filing, redis, files, -, held, -⟩ := @add_files env driver ⟨s.store, []⟩ source added rfl new _ _ hash zset
  obtain ⟨before, filed, -⟩ := run_behind files s.tasks
  simp only [State.behind, List.append_nil] at filed
  have fresh : s.store.now ≤ (addedRequest env s.store.now source added).expire := by
    simp only [addedRequest, createRequest, if_true]
    omega
  obtain ⟨after, redis', accepted, -⟩ := @accepts_ahead env driver { s.store with redis := redis } s.tasks _ _ _ _ _
    held fresh (run_removable (run.append filed))
  refine ⟨_, _, filed.append accepted, rfl, rfl, rfl, ?_, ?_⟩ <;>
    simp [hasFriend, isEdge, edges, addedRequest, createRequest]

theorem befriendable_sample : ∃ history s, Run sampleEnv .standard 0 history s ∧ s.tasks ≠ [] ∧
    ∃ later t, Transition.Run (Step sampleEnv .standard) s later t ∧ t.tasks = s.tasks ∧ t.store.now = s.store.now ∧
      t.store.friends = s.store.friends ++ edges (addedRequest sampleEnv s.store.now "1" sampleAdd) ∧
      hasFriend t.store.friends "1" "2" = true ∧ hasFriend t.store.friends "2" "1" = true := by
  have run : Run sampleEnv .standard 0 _ _ := .single (@Step.add _ _ (init 0) "3" sampleAdd rfl)
  exact ⟨_, _, run, nofun, befriendable run rfl (by decide) rfl rfl⟩

/-! ### After the deadline -/

/-- An `accept` of the request that has found it unexpired. -/
def Task.opened (dto : Request) : Task → Bool
  | .accept _ other stage => other == dto && stage.clock.isSome
  | _ => false

def Event.commits (dto : Request) : Event → Bool
  | .accept other _ => other == dto
  | _ => false

theorem leftovers_unopened {task : Task} {rest : List Task} (left : rest ∈ leftovers task) (dto : Request) :
    rest.countP (Task.opened dto) = 0 := by
  rw [List.countP_eq_zero]
  intro next member
  rcases leftovers_cases left member with ⟨request, -, rfl⟩ | ⟨caller, other, stage, -, rfl | rfl⟩ <;> simp [Task.opened]

/-- Once the request has expired, a step opens no transaction for it. -/
theorem Effect.opened {store store' : Store} {task : Task} {rest : List Task}
    (effect : Effect env driver store task event store' rest) (expired : dto.expire < store.now) :
    [event].countP (Event.commits dto) + rest.countP (Task.opened dto) ≤ [task].countP (Task.opened dto) := by
  cases effect with
  | @«open» caller other fresh =>
    have unexpired := isExpired_eq_false.mp fresh
    have different : (other == dto) = false := by
      rw [beq_eq_false_iff_ne]
      rintro rfl
      omega
    simp [Event.commits, Task.opened, different]
  | @saveFirst caller other clock | @saveSecond caller other clock | @remove caller other clock =>
    simp [Event.commits, Task.opened, Stage.clock]
  | @commit caller other clock =>
    have silent : (caller.toList.map Task.reply).countP (Task.opened dto) = 0 := by
      cases caller <;> simp [Task.opened]
    rw [silent]
    simp [Event.commits, Task.opened, Stage.clock]
  | fail left =>
    rw [leftovers_unopened left dto]
    simp [Event.commits]
  | _ => simp [Event.commits, Task.opened, Stage.clock]

theorem Effect.clock {store store' : Store} {task : Task} {rest : List Task}
    (effect : Effect env driver store task event store' rest) : store'.now = store.now := by
  cases effect <;> rfl

theorem Step.opened (taken : Step env driver s event t) (expired : dto.expire < s.store.now) :
    [event].countP (Event.commits dto) + t.tasks.countP (Task.opened dto) ≤ s.tasks.countP (Task.opened dto) ∧
      dto.expire < t.store.now := by
  have spawned : ∀ task : Task, task.opened dto = false →
      (s.tasks ++ [task]).countP (Task.opened dto) = s.tasks.countP (Task.opened dto) := by
    intro task closed
    simp [List.countP_append, closed]
  cases taken with
  | tick later => exact ⟨by simp [Event.commits], expired.trans_le later⟩
  | users | removeRequest => exact ⟨by simp [Event.commits], expired⟩
  | add | call | updateTag | remove =>
    refine ⟨?_, expired⟩
    rw [spawned _ rfl]
    simp [Event.commits]
  | run here effect =>
    have balance := effect.opened expired
    refine ⟨?_, by rw [effect.clock]; exact expired⟩
    rw [here, List.append_cons, List.countP_append, List.countP_append, List.countP_append, List.countP_append]
    omega

/-- From any state in which a request has expired, as many acceptances of it can be committed as
transactions were open for it, however the system goes on. -/
theorem expired_commits (run : Transition.Run (Step env driver) s history t) (expired : dto.expire < s.store.now) :
    (labels history).countP (Event.commits dto) + t.tasks.countP (Task.opened dto) ≤
      s.tasks.countP (Task.opened dto) := by
  have both : ((labels history).countP (Event.commits dto) + t.tasks.countP (Task.opened dto) ≤
      s.tasks.countP (Task.opened dto)) ∧ dto.expire < t.store.now := by
    refine run.invariant (P := fun history t => ((labels history).countP (Event.commits dto) +
      t.tasks.countP (Task.opened dto) ≤ s.tasks.countP (Task.opened dto)) ∧ dto.expire < t.store.now) ?_ ?_
    · exact ⟨by simp, expired⟩
    · rintro past u event v - ⟨bound, late⟩ taken
      obtain ⟨balance, later⟩ := taken.opened late
      refine ⟨?_, later⟩
      rw [labels_append, labels_cons, labels_nil, List.countP_append]
      dsimp only
      omega
  exact both.1

theorem expired_commits_sample : ∃ s history t dto, dto.expire < s.store.now ∧
    Transition.Run (Step sampleEnv .standard) s history t ∧ (∃ rid, .call dto.recive rid .accept ∈ labels history) ∧
    (labels history).countP (Event.commits dto) + t.tasks.countP (Task.opened dto) ≤
      s.tasks.countP (Task.opened dto) := by
  obtain ⟨-, s, -, -, -, -, -, held, -⟩ :=
    befriend sampleEnv .standard 0 "1" sampleAdd (by decide) (by decide)
  let dto := addedRequest sampleEnv 0 "1" sampleAdd
  let late : State := { s with store := { s.store with now := dto.expire + 1 } }
  have expired : dto.expire < late.store.now := Int.lt_succ _
  have calling : Transition.Run (Step sampleEnv .standard) late [_] _ :=
    Run.single (@Step.call _ _ _ _ _ .accept _ (callRead_ok.mpr held))
  exact ⟨late, _, _, dto, expired, calling, ⟨_, List.mem_singleton.mpr rfl⟩, expired_commits calling expired⟩

end TacoBack.FriendSystem
