import TacoBack.Friends.Consent
import TacoBack.Lib.Keyspace
import TacoBack.Lib.Traverse

/-!
# The list of requests, whoever is at it

`addRequest` writes the record before the rank, and nothing takes the record away again: the handler of
`request.remove` deletes under another key. So whatever the order of the commands, the list of a recipient
never shows a rid without a record.
-/

namespace TacoBack.FriendSystem

open RequestService FriendsService Transition

variable {env : Env} {driver : Mongo.Driver} {past : List Event} {s t : State} {now : Int} {history : History}
  {event : Event} {redis : Redis.Db Stored} {tid rid : String}

/-- A tid whose request keys are not those of another recipient, nor the one that `accept` deletes under. -/
structure Named (tid : String) : Prop where
  object : tid ≠ "[object Object]"
  split : ∀ other, tid ≠ "split:" ++ other

/-- An event of the backend itself, where nothing but a message calls `removeRequest`. -/
def Ordinary : Event → Prop
  | .add _ tid _ => Named tid
  | .removeRequest _ _ => False
  | _ => True

def Recorded (redis : Redis.Db Stored) (tid rid : String) : Prop :=
  ∃ request, Redis.Holds redis (REQUEST_NAMESPACE tid) rid (.record request)

/-- The members of a recipient's sorted set have records. -/
def Listed (redis : Redis.Db Stored) (tid : String) : Prop :=
  ∃ scores, Redis.zsetAt redis (REQUEST_HASH_KEY_NAMESPACE tid) = .ok scores ∧
    ∀ rid ∈ scores, Named tid ∧ Recorded redis tid rid

/-- The request whose record a task has written and whose rank it is to write. -/
def Task.filing : Task → Option Request
  | .hsetnx request | .zadd request => some request
  | _ => none

structure Whole (env : Env) (s : State) : Prop where
  filing : ∀ task ∈ s.tasks, ∀ request, task.filing = some request →
    Named request.recive ∧ Recorded s.store.redis request.recive (ridOf env request)
  records : ∀ key field n, ¬ Redis.Holds s.store.redis key field (.number n)
  listed : ∀ tid, Listed s.store.redis tid

theorem named_of_requested {request : Request} (ordinary : ∀ event ∈ past, Ordinary event)
    (requested : Requested env past request) : Named request.recive := by
  obtain ⟨clock, member, -⟩ := requested
  exact ordinary _ member

/-- The hash of a recipient is not the sorted set of anyone. -/
theorem Named.apart (named : Named tid) (other : String) :
    REQUEST_HASH_KEY_NAMESPACE other ≠ REQUEST_NAMESPACE tid := by
  rw [split_eq_namespace]
  exact fun same => named.split other (requestNamespace_inj same).symm

/-! ### Records stay -/

theorem recorded_addHset {request : Request} {after : Redis.Db Stored} (done : addHset env request redis = .ok after)
    (recorded : Recorded redis tid rid) : Recorded after tid rid := by
  obtain ⟨old, held⟩ := recorded
  by_cases same : REQUEST_NAMESPACE tid = REQUEST_NAMESPACE request.recive ∧ rid = ridOf env request
  · exact ⟨request, (Redis.holds_hset done).mpr (.inl ⟨same.1, same.2, rfl⟩)⟩
  · exact ⟨old, (Redis.holds_hset done).mpr (.inr ⟨same, held⟩)⟩

theorem recorded_removeRequestHandler {fields : List (String × Json)} {after : Redis.Db Stored}
    (done : removeRequestHandler env fields redis = .ok after) (object : tid ≠ "[object Object]")
    (recorded : Recorded redis tid rid) : Recorded after tid rid := by
  obtain ⟨old, held⟩ := recorded
  exact ⟨old, (Redis.holds_hdel done).mpr ⟨fun both => object (requestNamespace_inj both.1), held⟩⟩

theorem Effect.recorded {store store' : Store} {task : Task} {rest : List Task}
    (effect : Effect env driver store task event store' rest) (object : tid ≠ "[object Object]")
    (recorded : Recorded store.redis tid rid) : Recorded store'.redis tid rid := by
  cases effect with
  | hset _ _ done => exact recorded_addHset done recorded
  | hsetnx done =>
    obtain ⟨old, held⟩ := recorded
    exact ⟨old, (Redis.holds_hsetnx done).mpr (.inr held)⟩
  | zadd done =>
    obtain ⟨old, held⟩ := recorded
    exact ⟨old, (Redis.holds_zadd done).mpr held⟩
  | hdel _ _ done | remove done => exact recorded_removeRequestHandler done object recorded
  | _ => exact recorded

/-! ### The steps of a task -/

theorem Effect.filing {store store' : Store} {task : Task} {rest : List Task}
    (effect : Effect env driver store task event store' rest) (justified : Justified env past task)
    (ordinary : ∀ event ∈ past, Ordinary event)
    (own : ∀ request, task.filing = some request →
      Named request.recive ∧ Recorded store.redis request.recive (ridOf env request)) :
    ∀ next ∈ rest, ∀ request, next.filing = some request →
      Named request.recive ∧ Recorded store'.redis request.recive (ridOf env request) := by
  cases effect with
  | @hset message caller request redis bound carries done =>
    simp only [List.forall_mem_singleton, Task.filing, Option.some.injEq, forall_eq']
    exact ⟨named_of_requested ordinary (justified.1 bound _ carries), request, holds_addHset done⟩
  | @hsetnx request redis done =>
    simp only [List.forall_mem_singleton, Task.filing, Option.some.injEq, forall_eq']
    obtain ⟨named, old, held⟩ := own request rfl
    exact ⟨named, old, (Redis.holds_hsetnx done).mpr (.inr held)⟩
  | @commit caller dto clock => cases caller <;> simp [Task.filing]
  | fail left =>
    intro next member request filing
    rcases leftovers_cases left member with ⟨other, -, rfl⟩ | ⟨caller, dto, stage, -, rfl | rfl⟩ <;> cases filing
  | _ => simp [Task.filing]

theorem Effect.records {store store' : Store} {task : Task} {rest : List Task}
    (effect : Effect env driver store task event store' rest)
    (own : ∀ request, task.filing = some request → Recorded store.redis request.recive (ridOf env request))
    (records : ∀ key field n, ¬ Redis.Holds store.redis key field (.number n)) :
    ∀ key field n, ¬ Redis.Holds store'.redis key field (.number n) := by
  intro key field n held
  cases effect with
  | hset _ _ done =>
    rcases (Redis.holds_hset done).mp held with ⟨-, -, same⟩ | ⟨-, before⟩
    · cases same
    · exact records key field n before
  | @hsetnx request redis done =>
    rcases (Redis.holds_hsetnx done).mp held with ⟨rfl, rfl, -, absent⟩ | before
    · obtain ⟨old, present⟩ := own request rfl
      rw [Redis.Holds, absent] at present
      cases present
    · exact records key field n before
  | zadd done => exact records key field n ((Redis.holds_zadd done).mp held)
  | hdel _ _ done | remove done => exact records key field n ((Redis.holds_hdel done).mp held).2
  | _ => exact records key field n held

theorem Listed.kept {after : Redis.Db Stored} (listed : Listed redis tid)
    (same : after (REQUEST_HASH_KEY_NAMESPACE tid) = redis (REQUEST_HASH_KEY_NAMESPACE tid))
    (recorded : tid ≠ "[object Object]" → ∀ rid, Recorded redis tid rid → Recorded after tid rid) : Listed after tid := by
  obtain ⟨scores, read, all⟩ := listed
  refine ⟨scores, (Redis.zsetAt_congr same).trans read, fun rid member => ?_⟩
  obtain ⟨named, held⟩ := all rid member
  exact ⟨named, recorded named.object rid held⟩

theorem Listed.zadd {request : Request} {after : Redis.Db Stored} (listed : Listed redis tid)
    (named : Named request.recive) (own : Recorded redis request.recive (ridOf env request))
    (done : addZadd env request redis = .ok after) : Listed after tid := by
  have recorded : ∀ owner rid, Recorded redis owner rid → Recorded after owner rid := by
    rintro owner rid ⟨old, held⟩
    exact ⟨old, (Redis.holds_zadd done).mpr held⟩
  obtain ⟨scores, read, all⟩ := listed
  obtain ⟨ranked, found, rfl⟩ := Redis.map_ok.mp done
  by_cases same : tid = request.recive
  · subst same
    obtain rfl := Except.ok.inj (read.symm.trans found)
    refine ⟨scores.insert (ridOf env request) (raisedExpire env request), by simp [Redis.zsetAt], ?_⟩
    intro rid member
    rcases (AList.mem_insert _).mp member with rfl | old
    · exact ⟨named, recorded _ _ own⟩
    · exact ⟨named, recorded _ _ (all rid old).2⟩
  · have apart : REQUEST_HASH_KEY_NAMESPACE tid ≠ REQUEST_HASH_KEY_NAMESPACE request.recive :=
      fun equal => same (splitNamespace_inj equal)
    refine ⟨scores, (Redis.zsetAt_congr (Function.update_of_ne apart _ _)).trans read, fun rid member => ?_⟩
    exact ⟨(all rid member).1, recorded _ _ (all rid member).2⟩

theorem Effect.listed {store store' : Store} {task : Task} {rest : List Task}
    (effect : Effect env driver store task event store' rest) (justified : Justified env past task)
    (ordinary : ∀ event ∈ past, Ordinary event)
    (own : ∀ request, task.filing = some request →
      Named request.recive ∧ Recorded store.redis request.recive (ridOf env request))
    (listed : Listed store.redis tid) : Listed store'.redis tid := by
  have stays : tid ≠ "[object Object]" → ∀ rid, Recorded store.redis tid rid → Recorded store'.redis tid rid :=
    fun object rid recorded => effect.recorded object recorded
  cases effect with
  | hset bound carries done =>
    have named := named_of_requested ordinary (justified.1 bound _ carries)
    exact listed.kept (Redis.hset_of_ne done (named.apart tid)) stays
  | hsetnx done => exact listed.kept (Redis.hsetnx_of_ne done ((own _ rfl).1.apart tid)) stays
  | zadd done => exact listed.zadd (own _ rfl).1 (own _ rfl).2 done
  | hdel _ _ done | remove done =>
    exact listed.kept ((Redis.local_hdel _ _).of_ne done (object_ne_split tid).symm) stays
  | _ => exact listed

/-! ### Runs -/

theorem Step.whole (taken : Step env driver s event t) (sound : Sound env past s)
    (ordinary : ∀ event ∈ past, Ordinary event) (here : Ordinary event) (whole : Whole env s) : Whole env t := by
  have spawned : ∀ task : Task, task.filing = none →
      ∀ waiting ∈ s.tasks ++ [task], ∀ request, waiting.filing = some request →
        Named request.recive ∧ Recorded s.store.redis request.recive (ridOf env request) := by
    intro task quiet
    refine forall_spawned whole.filing (fun _ => id) fun request filing => ?_
    cases quiet.symm.trans filing
  cases taken with
  | tick | users => exact ⟨whole.filing, whole.records, whole.listed⟩
  | add | call | updateTag | remove => exact ⟨spawned _ rfl, whole.records, whole.listed⟩
  | removeRequest => exact here.elim
  | @run pre task post event store rest at_task effect =>
    have own := whole.filing task (by simp [at_task])
    have justified := sound.1 task (by simp [at_task])
    refine ⟨?_, ?_, fun tid => effect.listed justified ordinary own (whole.listed tid)⟩
    · refine forall_replaced (at_task ▸ whole.filing) (fun waiting held request filing => ?_)
        (effect.filing justified ordinary own)
      obtain ⟨named, recorded⟩ := held request filing
      exact ⟨named, effect.recorded named.object recorded⟩
    · exact effect.records (fun request filing => (own request filing).2) whole.records

theorem run_whole (run : Run env driver now history s) (ordinary : ∀ event ∈ labels history, Ordinary event) :
    Whole env s := by
  have start : Whole env (init now) :=
    ⟨by simp [init], fun _ _ _ held => Redis.holds_empty held, fun tid => ⟨∅, rfl, by simp⟩⟩
  refine run.invariant (P := fun history s => (∀ event ∈ labels history, Ordinary event) → Whole env s)
    (fun _ => start) (fun past t event u before whole taken ordinary => ?_) ordinary
  rw [labels_append, labels_cons, labels_nil, List.forall_mem_append, List.forall_mem_singleton] at ordinary
  exact taken.whole (run_sound before) ordinary.1 ordinary.2 (whole ordinary.1)

/-- However the calls of the backend overlap, any page of the list of any recipient can be read, and each item of
it is a request that its sender has sent to that recipient. -/
theorem getAllRequest_whole (run : Run env driver now history s) (ordinary : ∀ event ∈ labels history, Ordinary event)
    (size : Int) (tid : String) (page : Option Int) :
    ∃ listed, getAllRequest size tid page s.store.redis = .ok listed ∧ ∀ item ∈ listed, ∃ request,
      item = some (.record request) ∧ request.recive = tid ∧ Requested env (labels history) request := by
  obtain ⟨scores, read, recorded⟩ := (run_whole run ordinary).listed tid
  have keys : ∃ keys, requestKeys size tid page s.store.redis = .ok keys ∧ ∀ rid ∈ keys, rid ∈ scores := by
    unfold requestKeys Redis.zrange
    rw [read]
    split <;> exact ⟨_, rfl, fun rid member => SortedSet.mem_of_mem_range member⟩
  obtain ⟨keys, found, members⟩ := keys
  rw [getAllRequest, found]
  refine Traverse.mapM_ok keys fun rid member => ?_
  obtain ⟨-, request, held⟩ := recorded rid (members rid member)
  obtain ⟨key, -, requested⟩ := (run_sound run).2 _ _ _ held
  exact ⟨_, held, request, rfl, (requestNamespace_inj key).symm, requested⟩

theorem getAllRequest_whole_sample : ∃ history s, Run sampleEnv .standard 0 history s ∧
    (∀ event ∈ labels history, Ordinary event) ∧ (∃ rid clock, .add "1" "2" clock ∈ labels history ∧
      Recorded s.store.redis "2" rid) ∧
    ∃ listed, getAllRequest 10 "2" none s.store.redis = .ok listed ∧ ∀ item ∈ listed, ∃ request,
      item = some (.record request) ∧ request.recive = "2" ∧ Requested sampleEnv (labels history) request := by
  obtain ⟨history, s, run, -, -, -, whole, held, -⟩ :=
    befriend sampleEnv .standard 0 "1" sampleAdd (by decide) (by decide)
  have named : Named sampleAdd.tid := by
    refine ⟨by decide, fun other same => ?_⟩
    have lengths := congrArg (fun tid : String => tid.toList.take 1) same
    simp [sampleAdd] at lengths
  have ordinary : ∀ event ∈ labels history, Ordinary event := by
    rw [whole]
    simp [Ordinary, named]
  exact ⟨history, s, run, ordinary, ⟨_, 0, by rw [whole]; simp [sampleAdd], _, held⟩,
    getAllRequest_whole run ordinary 10 "2" none⟩

end TacoBack.FriendSystem
