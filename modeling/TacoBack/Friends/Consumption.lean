import TacoBack.Friends.Consent

/-!
# Answered requests stay

`accept` asks for the removal of the request with one object as payload. `removeRequest` takes that
object for the `tid` and the raw message for the `rid`, so it deletes from the wrong hash.
-/

namespace TacoBack.FriendSystem

open RequestService FriendsService Transition

variable {env : Env} {driver : Mongo.Driver} {past : List Event}

def Present (redis : Redis.Db Stored) (tid rid : String) : Prop :=
  ∃ request, Redis.Holds redis (REQUEST_NAMESPACE tid) rid (.record request)

/-- Every field of every request hash contains a dash, as `createRid` puts one. -/
def Dashed (redis : Redis.Db Stored) : Prop :=
  ∀ key field stored, Redis.Holds redis key field stored → '-' ∈ field.toList

/-- What a waiting task knows of the store: the request its caller asked for is still there. -/
def Waiting (env : Env) (redis : Redis.Db Stored) : Task → Prop
  | .call caller _ => Present redis caller.tid caller.rid
  | .message message caller =>
    (∀ c, caller = some c → Present redis c.tid c.rid ∧ (handlerOf message = some .accept → c.status = .accept)) ∧
    (handlerOf message = some .addRequest → ∀ request, message.payload = .request request →
      '-' ∈ (ridOf env request).toList)
  | .hsetnx request | .zadd request => '-' ∈ (ridOf env request).toList
  | .accept caller _ _ => ∀ c, caller = some c → Present redis c.tid c.rid ∧ c.status = .accept
  | .reply caller => Present redis caller.tid caller.rid ∧ caller.status = .accept
  | _ => True

structure Lasting (env : Env) (past : List Event) (s : State) : Prop where
  fields : Dashed s.store.redis
  tasks : ∀ task ∈ s.tasks, Waiting env s.store.redis task
  answers : ∀ caller, .answered caller ∈ past →
    Present s.store.redis caller.tid caller.rid ∧ caller.status = .accept

def Keeps (redis redis' : Redis.Db Stored) : Prop :=
  ∀ tid rid, Present redis tid rid → Present redis' tid rid

theorem keeps_refl (redis : Redis.Db Stored) : Keeps redis redis := fun _ _ => id

theorem Waiting.keeps {redis redis' : Redis.Db Stored} {task : Task} (keeps : Keeps redis redis')
    (waiting : Waiting env redis task) : Waiting env redis' task := by
  cases task with
  | call => exact keeps _ _ waiting
  | message => exact ⟨fun c same => ⟨keeps _ _ (waiting.1 c same).1, (waiting.1 c same).2⟩, waiting.2⟩
  | accept => exact fun c same => ⟨keeps _ _ (waiting c same).1, (waiting c same).2⟩
  | reply => exact ⟨keeps _ _ waiting.1, waiting.2⟩
  | _ => exact waiting

theorem dash_mem_ridOf (env : Env) (now : Int) (source : String) (dto : AddFriendDto) :
    '-' ∈ (ridOf env (addedRequest env now source dto)).toList := by
  simp only [ridOf, addedRequest]
  split <;> exact dash_mem_createRid env _

/-- The handler of `request.remove` deletes a field without a dash, which no request has. -/
theorem removeRequestHandler_keeps {fields : List (String × Json)} {redis redis' : Redis.Db Stored}
    (raw : '-' ∉ env.rawMessage.toList) (dashed : Dashed redis)
    (done : removeRequestHandler env fields redis = .ok redis') : Keeps redis redis' := by
  rintro tid rid ⟨request, held⟩
  refine ⟨request, (Redis.holds_hdel done).mpr ⟨?_, held⟩⟩
  rintro ⟨-, rfl⟩
  exact raw (dashed _ _ _ held)

theorem Effect.keeps {s store : Store} {task : Task} {event : Event} {rest : List Task}
    (raw : '-' ∉ env.rawMessage.toList) (dashed : Dashed s.redis)
    (effect : Effect env driver s task event store rest) : Keeps s.redis store.redis := by
  cases effect with
  | @hset _ _ added redis _ _ done =>
    rintro tid rid ⟨request, held⟩
    by_cases same : REQUEST_NAMESPACE tid = REQUEST_NAMESPACE added.recive ∧ rid = ridOf env added
    · exact ⟨added, (Redis.holds_hset done).mpr (.inl ⟨same.1, same.2, rfl⟩)⟩
    · exact ⟨request, (Redis.holds_hset done).mpr (.inr ⟨same, held⟩)⟩
  | hsetnx done => exact fun _ _ ⟨request, held⟩ => ⟨request, (Redis.holds_hsetnx done).mpr (.inr held)⟩
  | zadd done => exact fun _ _ ⟨request, held⟩ => ⟨request, (Redis.holds_zadd done).mpr held⟩
  | hdel _ _ done | remove done => exact removeRequestHandler_keeps raw dashed done
  | _ => exact keeps_refl _

theorem Effect.dashed {s store : Store} {task : Task} {event : Event} {rest : List Task}
    (dashed : Dashed s.redis) (waiting : Waiting env s.redis task)
    (effect : Effect env driver s task event store rest) : Dashed store.redis := by
  cases effect with
  | hset bound carries done =>
    intro key field stored held
    rcases (Redis.holds_hset done).mp held with ⟨-, rfl, -⟩ | ⟨-, held⟩
    · exact waiting.2 bound _ carries
    · exact dashed _ _ _ held
  | hsetnx done =>
    intro key field stored held
    rcases (Redis.holds_hsetnx done).mp held with ⟨-, rfl, -, -⟩ | held
    · exact waiting
    · exact dashed _ _ _ held
  | zadd done => exact fun key field stored held => dashed _ _ _ ((Redis.holds_zadd done).mp held)
  | hdel _ _ done | remove done =>
    exact fun key field stored held => dashed _ _ _ ((Redis.holds_hdel done).mp held).2
  | _ => exact dashed

theorem waiting_addRequestMessage {redis : Redis.Db Stored} {request : Request}
    (dashed : '-' ∈ (ridOf env request).toList) :
    Waiting env redis (.message (addRequestMessage request) none) := by
  refine ⟨by simp, fun _ carried carries => ?_⟩
  obtain rfl := Payload.request.inj carries
  exact dashed

theorem leftovers_waiting {redis : Redis.Db Stored} {task : Task} {rest : List Task}
    (left : rest ∈ leftovers task) (waiting : Waiting env redis task) : ∀ next ∈ rest, Waiting env redis next := by
  intro next member
  rcases leftovers_cases left member with ⟨request, rfl | rfl, rfl⟩ | ⟨caller, dto, stage, rfl, rfl | rfl⟩
  · exact waiting_addRequestMessage waiting
  · exact waiting_addRequestMessage waiting
  · refine ⟨fun c same => ⟨(waiting c same).1, fun _ => (waiting c same).2⟩, fun bound => ?_⟩
    rw [handlerOf_acceptMessage] at bound
    cases bound
  · refine ⟨by simp, fun bound => ?_⟩
    rw [handlerOf_removeRequestMessage] at bound
    cases bound

theorem Effect.waiting {s store : Store} {task : Task} {event : Event} {rest : List Task}
    (keeps : Keeps s.redis store.redis) (waiting : Waiting env s.redis task)
    (effect : Effect env driver s task event store rest) : ∀ next ∈ rest, Waiting env store.redis next := by
  cases effect with
  | @add source dto =>
    simpa using waiting_addRequestMessage (dash_mem_ridOf env s.now source dto)
  | @call caller request message sent =>
    simp only [List.forall_mem_singleton]
    refine ⟨fun c same => ?_, fun bound => ?_⟩
    · obtain rfl := Option.some.inj same
      exact ⟨waiting, fun bound => (callSend_handler sent bound).2.1⟩
    · obtain ⟨wrong, -⟩ := callSend_handler sent bound
      cases wrong
  | hset bound carries => simpa [Waiting] using waiting.2 bound _ carries
  | hsetnx => simpa [Waiting] using waiting
  | accept bound =>
    simp only [List.forall_mem_singleton]
    exact fun c same => ⟨(waiting.1 c same).1, (waiting.1 c same).2 bound⟩
  | «open» | saveFirst | saveSecond | remove =>
    simp only [List.forall_mem_singleton]
    exact fun c same => ⟨keeps _ _ (waiting c same).1, (waiting c same).2⟩
  | @commit caller dto clock =>
    intro next member
    obtain ⟨c, same, rfl⟩ := List.mem_map.mp member
    exact waiting c (Option.mem_toList.mp same)
  | findUser => simp [Waiting]
  | fail left => exact leftovers_waiting left waiting
  | _ => simp

theorem Lasting.add_task {s : State} {task : Task} {event : Event} (lasting : Lasting env past s)
    (waiting : Waiting env s.store.redis task) (silent : ∀ caller, event ≠ .answered caller) :
    Lasting env (past ++ [event]) { s with tasks := s.tasks ++ [task] } where
  fields := lasting.fields
  tasks := forall_spawned lasting.tasks (fun _ => id) waiting
  answers caller member := by
    rcases List.mem_append.mp member with old | new
    · exact lasting.answers caller old
    · exact (silent caller (List.mem_singleton.mp new).symm).elim

theorem Step.lasting {s s' : State} {event : Event} (raw : '-' ∉ env.rawMessage.toList)
    (indirect : ∀ tid rid, event ≠ .removeRequest tid rid) (lasting : Lasting env past s)
    (taken : Step env driver s event s') : Lasting env (past ++ [event]) s' := by
  cases taken with
  | tick | users =>
    exact ⟨lasting.fields, lasting.tasks, fun caller member => lasting.answers caller (by simpa using member)⟩
  | add | updateTag | remove => exact lasting.add_task trivial (by simp)
  | call found => exact lasting.add_task ⟨_, callRead_ok.mp found⟩ (by simp)
  | removeRequest => exact (indirect _ _ rfl).elim
  | @run pre task post event store rest here effect =>
    have waiting := lasting.tasks task (by simp [here])
    have keeps := effect.keeps raw lasting.fields
    refine ⟨effect.dashed lasting.fields waiting, ?_, fun caller member => ?_⟩
    · exact forall_replaced (here ▸ lasting.tasks) (fun _ held => held.keeps keeps) (effect.waiting keeps waiting)
    · rcases List.mem_append.mp member with old | new
      · obtain ⟨present, accept⟩ := lasting.answers caller old
        exact ⟨keeps _ _ present, accept⟩
      · obtain rfl := List.mem_singleton.mp new
        cases effect with
        | reply => exact waiting

theorem run_lasting {now : Int} {history : History} {s : State} (raw : '-' ∉ env.rawMessage.toList)
    (run : Run env driver now history s) (indirect : ∀ tid rid, .removeRequest tid rid ∉ labels history) :
    Lasting env (labels history) s := by
  refine Transition.Run.invariant
    (P := fun history s => (∀ tid rid, .removeRequest tid rid ∉ labels history) → Lasting env (labels history) s)
    (fun _ => ⟨fun _ _ _ held => (Redis.holds_empty held).elim, by simp [init], by simp⟩)
    (fun history t event u _ lasting taken indirect => ?_) run indirect
  simp only [labels_append, labels_cons, labels_nil, List.mem_append, List.mem_singleton, not_or] at indirect ⊢
  have before := lasting fun tid rid => (indirect tid rid).1
  exact taken.lasting raw (fun tid rid same => (indirect tid rid).2 same.symm) before

/-- An answered request is gone, and stays gone until it is added again. -/
def Consumed (history : History) (s : State) : Prop :=
  ∀ before x caller after, history = before ++ (x, .answered caller) :: after →
    .hset caller.tid caller.rid ∉ labels after →
    Redis.hget s.store.redis (REQUEST_NAMESPACE caller.tid) caller.rid = .ok none ∧
      callRead caller.tid caller.rid s.store.redis = .error (.service .NOT_FIND_REQUEST .BAD_REQUEST)

/-- Requests are consumed in no run but those in which none was answered since it was last added. -/
theorem consumed_iff {now : Int} {history : History} {s : State} (raw : '-' ∉ env.rawMessage.toList)
    (run : Run env driver now history s) (indirect : ∀ tid rid, .removeRequest tid rid ∉ labels history) :
    Consumed history s ↔ ∀ before x caller after, history = before ++ (x, .answered caller) :: after →
      .hset caller.tid caller.rid ∈ labels after := by
  constructor
  · intro consumed before x caller after whole
    by_contra fresh
    obtain ⟨gone, -⟩ := consumed before x caller after whole fresh
    obtain ⟨⟨request, held⟩, -⟩ := (run_lasting raw run indirect).answers caller (by simp [whole])
    rw [Redis.Holds, gone] at held
    cases held
  · intro readded before x caller after whole fresh
    exact (fresh (readded before x caller after whole)).elim

theorem consumed_iff_sample : ∃ history s, Run sampleEnv .standard 0 history s ∧
    (∃ x, x ∈ history ∧ x.2 = .answered ⟨"2", ridOf sampleEnv (addedRequest sampleEnv 0 "1" sampleAdd), .accept⟩) ∧
    (Consumed history s ↔ ∀ before x caller after, history = before ++ (x, .answered caller) :: after →
      .hset caller.tid caller.rid ∈ labels after) := by
  obtain ⟨history, s, run, -, -, -, whole, -⟩ :=
    befriend sampleEnv .standard 0 "1" sampleAdd (by decide) (by decide)
  refine ⟨history, s, run, ?_, consumed_iff (by decide) run (by simp [whole])⟩
  have member : .answered ⟨"2", ridOf sampleEnv (addedRequest sampleEnv 0 "1" sampleAdd), .accept⟩ ∈
      labels history := by
    rw [whole]
    simp [sampleAdd]
  exact List.mem_map.mp member

theorem answered_not_consumed : ∃ history s, Run sampleEnv .standard 0 history s ∧
    (∀ tid rid, .removeRequest tid rid ∉ labels history) ∧ ¬ Consumed history s := by
  obtain ⟨history, s, run, -, -, -, whole, held, -⟩ :=
    befriend sampleEnv .standard 0 "1" sampleAdd (by decide) (by decide)
  refine ⟨history, s, run, by simp [whole], fun consumed => ?_⟩
  have parted : labels history = (labels history).take 13 ++
      .answered ⟨"2", ridOf sampleEnv (addedRequest sampleEnv 0 "1" sampleAdd), .accept⟩ ::
        (labels history).drop 14 := by
    rw [whole]
    rfl
  obtain ⟨before, x, after, rfl, -, last⟩ := labels_split parted
  obtain ⟨gone, -⟩ := consumed before x _ after rfl (by rw [last, whole]; simp)
  have still : Redis.hget s.store.redis (REQUEST_NAMESPACE "2") _ = .ok (some _) := held
  rw [still] at gone
  cases gone

end TacoBack.FriendSystem
