import TacoBack.Friends.Progress

/-!
# Requests of different senders

The rid of a request starts with its sender and a dash. Where senders have no dash in their tids,
the rids of two senders differ, whatever the recipient and the digest are, so in runs of `add` alone
no sender writes a field of another.
-/

namespace TacoBack.FriendSystem

open RequestService FriendsService Transition

variable {env : Env} {driver : Mongo.Driver}

/-- The rid is one that `createRid` gives to a request of `sender`. -/
def SentBy (sender rid : String) : Prop := '-' ∉ sender.toList ∧ ∃ rest, rid = sender ++ "-" ++ rest

theorem takeWhile_dash {sender rest : List Char} (plain : '-' ∉ sender) :
    (sender ++ '-' :: rest).takeWhile (· != '-') = sender := by
  induction sender with
  | nil => rfl
  | cons c sender ih =>
    rw [List.mem_cons, not_or] at plain
    have other : (c != '-') = true := bne_iff_ne.mpr fun same => plain.1 same.symm
    rw [List.cons_append, List.takeWhile_cons, other, ih plain.2]
    rfl

theorem SentBy.front {sender rid : String} (sent : SentBy sender rid) :
    rid.toList.takeWhile (· != '-') = sender.toList := by
  obtain ⟨plain, rest, rfl⟩ := sent
  have parts : (sender ++ "-" ++ rest).toList = sender.toList ++ '-' :: rest.toList := by simp
  rw [parts, takeWhile_dash plain]

/-- The dash after the sender is the first one, so a rid tells its sender. -/
theorem SentBy.unique {sender other rid : String} (sent : SentBy sender rid) (sent' : SentBy other rid) :
    sender = other := by
  apply String.toList_injective
  rw [← sent.front, ← sent'.front]

theorem sentBy_createRid {request : Request} (plain : '-' ∉ request.sender.toList) :
    SentBy request.sender (createRid env request) := by
  refine ⟨plain, request.recive ++ "-" ++ env.workerId ++ "-" ++ env.requestHash request, ?_⟩
  simp only [createRid, String.append_assoc]

theorem sentBy_addedRequest {now : Int} {source : String} {dto : AddFriendDto} (plain : '-' ∉ source.toList) :
    SentBy source (ridOf env (addedRequest env now source dto)) := by
  let request := createRequest now .ADD source .FRIEND env.requestExpire dto.tid (some (.obj [("msg", dto.msg)])) true
  have sent : SentBy source (createRid env request) := @sentBy_createRid env request plain
  simp only [ridOf, addedRequest]
  split
  · exact @sentBy_createRid env { request with rid := some (createRid env request) } plain
  · exact sent

/-! ### Runs of `add` alone -/

/-- The event of a step that belongs to no `call`, `accept` or `removeRequest`. The tids that `registe`
assigns hold no dash. -/
def AddOnly : Event → Prop
  | .call _ _ _ | .removeRequest _ _ => False
  | .add source _ _ => '-' ∉ source.toList
  | _ => True

/-- A task that an `add` leaves, or one of another service that never touches the requests. -/
def Adds (env : Env) : Task → Prop
  | .message message _ => ∃ request, message = addRequestMessage request ∧ SentBy request.sender (ridOf env request)
  | .hsetnx request | .zadd request => SentBy request.sender (ridOf env request)
  | .call _ _ | .accept _ _ _ | .reply _ => False
  | _ => True

/-- The request a task is about to write. -/
def Task.carried : Task → Option Request
  | .message ⟨_, _, .request request⟩ _ => some request
  | .hsetnx request | .zadd request => some request
  | _ => none

structure Owned (env : Env) (s : State) : Prop where
  tasks : ∀ task ∈ s.tasks, Adds env task
  fields : ∀ key rid request, Redis.Holds s.store.redis key rid (.record request) → SentBy request.sender rid

theorem Adds.handler {message : Message} {caller : Option Caller} (adds : Adds env (.message message caller)) :
    handlerOf message = some .addRequest := by
  obtain ⟨request, rfl, _⟩ := adds
  exact handlerOf_addRequestMessage request

theorem Adds.sent {message : Message} {caller : Option Caller} {request : Request}
    (adds : Adds env (.message message caller)) (carries : message.payload = .request request) :
    SentBy request.sender (ridOf env request) := by
  obtain ⟨carried, rfl, sent⟩ := adds
  obtain rfl := Payload.request.inj carries
  exact sent

theorem carried_message {message : Message} {caller : Option Caller} {request : Request}
    (carries : message.payload = .request request) : (Task.message message caller).carried = some request := by
  obtain ⟨exchange, routingKey, payload⟩ := message
  obtain rfl : payload = .request request := carries
  rfl

theorem leftovers_adds {task next : Task} {rest : List Task} (left : rest ∈ leftovers task) (adds : Adds env task)
    (member : next ∈ rest) :
    ∃ request, next = .message (addRequestMessage request) none ∧ task.carried = some request ∧ Adds env next := by
  rcases leftovers_cases left member with ⟨request, rfl | rfl, rfl⟩ | ⟨caller, dto, stage, rfl, _⟩
  · exact ⟨request, rfl, rfl, request, rfl, adds⟩
  · exact ⟨request, rfl, rfl, request, rfl, adds⟩
  · cases adds

theorem Adds.effect {s store : Store} {task : Task} {event : Event} {rest : List Task}
    (effect : Effect env driver s task event store rest) (adds : Adds env task) (plain : AddOnly event) :
    ∀ next ∈ rest, Adds env next := by
  cases effect with
  | @add source dto =>
    simp only [List.forall_mem_singleton]
    exact ⟨_, rfl, sentBy_addedRequest plain⟩
  | hset bound carries =>
    simp only [List.forall_mem_singleton]
    exact adds.sent carries
  | hsetnx => simpa [Adds] using adds
  | accept bound =>
    cases adds.handler.symm.trans bound
  | findUser => simp [Adds]
  | fail left => exact fun next member => (leftovers_adds left adds member).elim fun _ both => both.2.2
  | zadd | hdel | updateTag | delete => simp
  | _ => cases adds

/-- What a task of such a run does to a stored request: nothing, unless it writes the field anew for
the same sender. -/
theorem Adds.frame {s store : Store} {task : Task} {event : Event} {rest : List Task} {key rid : String}
    {request : Request} (effect : Effect env driver s task event store rest) (adds : Adds env task)
    (held : Redis.Holds s.redis key rid (.record request)) (sent : SentBy request.sender rid) :
    Redis.Holds store.redis key rid (.record request) ∨
      ∃ carried, task.carried = some carried ∧ carried.sender = request.sender ∧
        Redis.Holds store.redis key rid (.record carried) := by
  cases effect with
  | @hset message caller carried redis bound carries done =>
    by_cases here : key = REQUEST_NAMESPACE carried.recive ∧ rid = ridOf env carried
    · obtain ⟨rfl, rfl⟩ := here
      exact .inr ⟨carried, carried_message carries, (adds.sent carries).unique sent,
        (Redis.holds_hset done).mpr (.inl ⟨rfl, rfl, rfl⟩)⟩
    · exact .inl ((Redis.holds_hset done).mpr (.inr ⟨here, held⟩))
  | hsetnx done => exact .inl ((Redis.holds_hsetnx done).mpr (.inr held))
  | zadd done => exact .inl ((Redis.holds_zadd done).mpr held)
  | hdel bound =>
    cases adds.handler.symm.trans bound
  | remove => cases adds
  | _ => exact .inl held

theorem Adds.fields {s store : Store} {task : Task} {event : Event} {rest : List Task}
    (effect : Effect env driver s task event store rest) (adds : Adds env task)
    (fields : ∀ key rid request, Redis.Holds s.redis key rid (.record request) → SentBy request.sender rid) :
    ∀ key rid request, Redis.Holds store.redis key rid (.record request) → SentBy request.sender rid := by
  intro key rid request held
  cases effect with
  | hset bound carries done =>
    rcases (Redis.holds_hset done).mp held with ⟨rfl, rfl, same⟩ | ⟨_, before⟩
    · obtain rfl := Stored.record.inj same
      exact adds.sent carries
    · exact fields key rid request before
  | hsetnx done =>
    rcases (Redis.holds_hsetnx done).mp held with ⟨_, _, same, _⟩ | before
    · cases same
    · exact fields key rid request before
  | zadd done => exact fields key rid request ((Redis.holds_zadd done).mp held)
  | hdel bound =>
    cases adds.handler.symm.trans bound
  | remove => cases adds
  | _ => exact fields key rid request held

theorem Step.owned {s s' : State} {event : Event} (taken : Step env driver s event s') (plain : AddOnly event)
    (owned : Owned env s) : Owned env s' := by
  cases taken with
  | tick | users => exact ⟨owned.tasks, owned.fields⟩
  | add | updateTag | remove => exact ⟨forall_spawned owned.tasks (fun _ => id) trivial, owned.fields⟩
  | call | removeRequest => cases plain
  | @run pre task post event store rest here effect =>
    have adds := owned.tasks task (by simp [here])
    exact ⟨forall_replaced (here ▸ owned.tasks) (fun _ => id) (adds.effect effect plain),
      adds.fields effect owned.fields⟩

theorem init_owned (now : Int) : Owned env (init now) :=
  ⟨by simp [init], fun _ _ _ held => (Redis.holds_empty held).elim⟩

theorem run_owned {now : Int} {history : History} {s : State} (run : Run env driver now history s)
    (plain : ∀ event ∈ labels history, AddOnly event) : Owned env s := by
  induction run with
  | nil => exact init_owned now
  | snoc before taken ih =>
    rw [labels_append, List.forall_mem_append] at plain
    exact taken.owned (plain.2 _ (by simp)) (ih plain.1)

/-- The task is not about to write a request of the sender. -/
def Others (sender : String) (task : Task) : Prop :=
  ∀ carried, task.carried = some carried → carried.sender ≠ sender

theorem Others.effect {s store : Store} {task : Task} {event : Event} {rest : List Task} {sender : String}
    (effect : Effect env driver s task event store rest) (adds : Adds env task)
    (silent : ∀ tid clock, event ≠ .add sender tid clock) (others : Others sender task) :
    ∀ next ∈ rest, Others sender next := by
  intro next member carried found
  cases effect with
  | @add source dto =>
    obtain rfl := List.mem_singleton.mp member
    obtain rfl := Option.some.inj found
    intro same
    obtain rfl : source = sender := same
    exact silent dto.tid s.now rfl
  | hset bound carries =>
    obtain rfl := List.mem_singleton.mp member
    obtain rfl := Option.some.inj found
    exact others _ (carried_message carries)
  | hsetnx =>
    obtain rfl := List.mem_singleton.mp member
    exact others carried found
  | accept bound =>
    cases adds.handler.symm.trans bound
  | fail left =>
    obtain ⟨request, rfl, same, _⟩ := leftovers_adds left adds member
    obtain rfl := Option.some.inj found
    exact others _ same
  | findUser =>
    obtain rfl := List.mem_singleton.mp member
    cases found
  | zadd | hdel | updateTag | delete => cases member
  | _ => cases adds

theorem Step.others {s s' : State} {event : Event} {sender : String} (taken : Step env driver s event s')
    (plain : AddOnly event) (owned : Owned env s) (silent : ∀ tid clock, event ≠ .add sender tid clock)
    (others : ∀ task ∈ s.tasks, Others sender task) : ∀ task ∈ s'.tasks, Others sender task := by
  have idle : ∀ task : Task, task.carried = none → Others sender task := by
    intro task none carried found
    rw [none] at found
    cases found
  cases taken with
  | tick | users => exact others
  | add | updateTag | remove => exact forall_spawned others (fun _ => id) (idle _ rfl)
  | call | removeRequest => cases plain
  | @run pre task post event store rest here effect =>
    have adds := owned.tasks task (by simp [here])
    exact forall_replaced (here ▸ others) (fun _ => id)
      ((others task (by simp [here])).effect effect adds silent)

/-- A step changes a stored request only by writing one of the same sender in its place. -/
theorem Step.keeps_sender {s s' : State} {event : Event} {key rid : String} {request : Request}
    (taken : Step env driver s event s') (plain : AddOnly event) (owned : Owned env s)
    (held : Redis.Holds s.store.redis key rid (.record request)) :
    Redis.Holds s'.store.redis key rid (.record request) ∨
      ∃ task ∈ s.tasks, ∃ carried, task.carried = some carried ∧ carried.sender = request.sender ∧
        Redis.Holds s'.store.redis key rid (.record carried) := by
  cases taken with
  | call | removeRequest => cases plain
  | @run pre task post event store rest here effect =>
    have member : task ∈ s.tasks := by simp [here]
    rcases (owned.tasks task member).frame effect held (owned.fields _ _ _ held) with kept | ⟨carried, rewritten⟩
    · exact .inl kept
    · exact .inr ⟨task, member, carried, rewritten⟩
  | _ => exact .inl held

theorem run_keeps_sender {s t : State} {later : History} {key rid : String} {request : Request}
    (owned : Owned env s) (held : Redis.Holds s.store.redis key rid (.record request))
    (run : Transition.Run (Step env driver) s later t) (plain : ∀ event ∈ labels later, AddOnly event) :
    Owned env t ∧ ∃ request', Redis.Holds t.store.redis key rid (.record request') ∧
      request'.sender = request.sender ∧
      ((∀ task ∈ s.tasks, Others request.sender task) →
        (∀ tid clock, .add request.sender tid clock ∉ labels later) →
        request' = request ∧ ∀ task ∈ t.tasks, Others request.sender task) := by
  induction run with
  | nil => exact ⟨owned, request, held, rfl, fun others _ => ⟨rfl, others⟩⟩
  | @snoc past state next event before taken ih =>
    rw [labels_append, List.forall_mem_append] at plain
    have now : AddOnly event := plain.2 event (by simp)
    obtain ⟨owned, current, holds, same, silence⟩ := ih plain.1
    refine ⟨taken.owned now owned, ?_⟩
    have earlier : (∀ tid clock, .add request.sender tid clock ∉ labels (past ++ [(state, event)])) →
        ∀ tid clock, .add request.sender tid clock ∉ labels past :=
      fun silent tid clock member => silent tid clock (by simp [member])
    have step : (∀ tid clock, .add request.sender tid clock ∉ labels (past ++ [(state, event)])) →
        ∀ tid clock, event ≠ .add request.sender tid clock :=
      fun silent tid clock equal => silent tid clock (by simp [equal])
    rcases taken.keeps_sender now owned holds with kept | ⟨task, member, carried, found, own, rewritten⟩
    · refine ⟨current, kept, same, fun others silent => ?_⟩
      obtain ⟨rfl, waiting⟩ := silence others (earlier silent)
      exact ⟨rfl, taken.others now owned (step silent) waiting⟩
    · refine ⟨carried, rewritten, own.trans same, fun others silent => ?_⟩
      obtain ⟨_, waiting⟩ := silence others (earlier silent)
      exact absurd (own.trans same) (waiting task member carried found)

/-- In runs of `add` alone, a task never changes a stored request of another sender than its own. So
a stored request stays one of its sender, and stays as it is while that sender sends nothing. -/
theorem request_kept {now : Int} {history : History} {s : State} (run : Run env driver now history s)
    (plain : ∀ event ∈ labels history, AddOnly event) :
    (∀ pre task post event store rest, s.tasks = pre ++ task :: post →
      Effect env driver s.store task event store rest →
      ∀ tid rid request, getReuqest tid rid s.store.redis = .ok (some (.record request)) →
        Others request.sender task → getReuqest tid rid store.redis = .ok (some (.record request))) ∧
    ∀ later t, Transition.Run (Step env driver) s later t → (∀ event ∈ labels later, AddOnly event) →
      ∀ tid rid request, getReuqest tid rid s.store.redis = .ok (some (.record request)) →
        ∃ request', getReuqest tid rid t.store.redis = .ok (some (.record request')) ∧
          request'.sender = request.sender ∧
          ((∀ task ∈ s.tasks, Others request.sender task) →
            (∀ tid clock, .add request.sender tid clock ∉ labels later) → request' = request) := by
  have owned := run_owned run plain
  constructor
  · intro pre task post event store rest here effect tid rid request held others
    have adds := owned.tasks task (by simp [here])
    rcases adds.frame effect held (owned.fields _ _ _ held) with kept | ⟨carried, found, same, _⟩
    · exact kept
    · exact absurd same (others carried found)
  · intro later t continued plainLater tid rid request held
    obtain ⟨_, current, holds, same, silence⟩ := run_keeps_sender owned held continued plainLater
    exact ⟨current, holds, same, fun others silent => (silence others silent).1⟩

/-- Users 1 and 3 send user 2 the same message, and the digests collide. -/
theorem request_kept_sample : ∃ history s later t, Run sampleEnv .standard 0 history s ∧
    Transition.Run (Step sampleEnv .standard) s later t ∧
    labels later = [.internal, .add "3" "2" 0, .hset "2" (ridOf sampleEnv (addedRequest sampleEnv 0 "3" sampleAdd))] ∧
    getReuqest "2" (ridOf sampleEnv (addedRequest sampleEnv 0 "1" sampleAdd)) t.store.redis =
      .ok (some (.record (addedRequest sampleEnv 0 "1" sampleAdd))) := by
  obtain ⟨history, redis, run, whole, held, _⟩ :=
    @add_files sampleEnv .standard (init 0) "1" sampleAdd rfl rfl ∅ ∅ rfl rfl
  obtain ⟨fields, read, _⟩ := Redis.map_ok.mp held
  let s : State := { init 0 with store := { (init 0).store with redis := redis } }
  let other := addedRequest sampleEnv 0 "3" sampleAdd
  have wrote : addHset sampleEnv other redis = .ok (Redis.putHash redis (REQUEST_NAMESPACE other.recive)
      (fields.insert (ridOf sampleEnv other) (.record other))) :=
    Redis.hset_ok _ _ read
  have start : Transition.Run (Step sampleEnv .standard) s [] s := .nil
  have called := start.snoc (@Step.add _ _ s "3" sampleAdd rfl)
  have sent := called.snoc (.first rfl .add)
  have written := sent.snoc (.first rfl (.hset (handlerOf_addRequestMessage other) rfl wrote))
  have plain : ∀ event ∈ labels history, AddOnly event := by
    rw [whole]
    simp [AddOnly]
  obtain ⟨current, answer, _, silence⟩ := (request_kept run plain).2 _ _ written (by simp [AddOnly]) "2" _ _ held
  have same := silence (by simp [init]) (by simp [addedRequest, createRequest])
  rw [same] at answer
  exact ⟨history, s, _, _, run, written, rfl, answer⟩

end TacoBack.FriendSystem
