import TacoBack.Friends.Progress

/-!
# Consent

Every request in the store, and every message and task that carries one, goes back to an `add` of
its sender. What `accept` works on goes back to a later `call` of its recipient as well.
-/

namespace TacoBack.FriendSystem

open RequestService FriendsService Transition

variable {env : Env} {driver : Mongo.Driver} {past : List Event}

/-- The request was sent by an `add`, and its `expire` counts from the clock that `add` read. -/
def Requested (env : Env) (past : List Event) (request : Request) : Prop :=
  ∃ clock, .add request.sender request.recive clock ∈ past ∧ request.expire = clock + env.requestExpire

/-- The recipient called to accept the record with the rid of the request, after it was sent. -/
def Consented (env : Env) (past : List Event) (request : Request) : Prop :=
  ∃ before after, past = before ++ .call request.recive (ridOf env request) .accept :: after ∧
    Requested env before request

theorem Requested.append {request : Request} (requested : Requested env past request) (more : List Event) :
    Requested env (past ++ more) request := by
  obtain ⟨clock, member, expire⟩ := requested
  exact ⟨clock, List.mem_append_left _ member, expire⟩

theorem Consented.append {request : Request} (consented : Consented env past request) (more : List Event) :
    Consented env (past ++ more) request := by
  obtain ⟨before, after, rfl, requested⟩ := consented
  exact ⟨before, after ++ more, by simp, requested⟩

/-- What a waiting task owes to the past. -/
def Justified (env : Env) (past : List Event) : Task → Prop
  | .call caller request => caller.status = .accept → Consented env past request
  | .message message _ =>
    (handlerOf message = some .addRequest → ∀ request, message.payload = .request request →
      Requested env past request) ∧
    (handlerOf message = some .accept → ∀ request, message.payload = .request request →
      Consented env past request)
  | .hsetnx request | .zadd request => Requested env past request
  | .accept _ dto stage => Consented env past dto ∧ ∀ clock, stage.clock = some clock → clock ≤ dto.expire
  | _ => True

/-- Every stored record was requested, and is stored under its own recipient and rid. -/
def Filed (env : Env) (past : List Event) (redis : Redis.Db Stored) : Prop :=
  ∀ key field request, Redis.Holds redis key field (.record request) →
    key = REQUEST_NAMESPACE request.recive ∧ field = ridOf env request ∧ Requested env past request

theorem Justified.append {task : Task} (justified : Justified env past task) (more : List Event) :
    Justified env (past ++ more) task := by
  cases task with
  | call => exact fun accept => (justified accept).append more
  | message =>
    exact ⟨fun bound request carries => (justified.1 bound request carries).append more,
      fun bound request carries => (justified.2 bound request carries).append more⟩
  | hsetnx | zadd => exact Requested.append justified more
  | accept => exact ⟨justified.1.append more, justified.2⟩
  | _ => trivial

theorem Filed.append {redis : Redis.Db Stored} (filed : Filed env past redis) (more : List Event) :
    Filed env (past ++ more) redis := fun key field request held =>
  (filed key field request held).imp_right fun filed => filed.imp_right fun requested => requested.append more

theorem justified_addRequestMessage {request : Request} {caller : Option Caller}
    (requested : Requested env past request) :
    Justified env past (.message (addRequestMessage request) caller) := by
  refine ⟨fun _ carried carries => ?_, fun bound => ?_⟩
  · obtain rfl := Payload.request.inj carries
    exact requested
  · rw [handlerOf_addRequestMessage] at bound
    cases bound

theorem justified_acceptMessage {request : Request} {caller : Option Caller}
    (consented : Consented env past request) :
    Justified env past (.message (acceptMessage request) caller) := by
  refine ⟨fun bound => ?_, fun _ carried carries => ?_⟩
  · rw [handlerOf_acceptMessage] at bound
    cases bound
  · obtain rfl := Payload.request.inj carries
    exact consented

theorem justified_removeRequestMessage {dto : Request} {caller : Option Caller} :
    Justified env past (.message (removeRequestMessage dto) caller) := by
  constructor <;> intro bound <;> rw [handlerOf_removeRequestMessage] at bound <;> cases bound

theorem leftovers_justified {task : Task} {rest : List Task} (left : rest ∈ leftovers task)
    (justified : Justified env past task) : ∀ next ∈ rest, Justified env past next := by
  intro next member
  rcases leftovers_cases left member with ⟨request, rfl | rfl, rfl⟩ | ⟨caller, dto, stage, rfl, rfl | rfl⟩
  · exact justified_addRequestMessage justified
  · exact justified_addRequestMessage justified
  · exact justified_acceptMessage justified.1
  · exact justified_removeRequestMessage

theorem Effect.justified {s store : Store} {task : Task} {event : Event} {rest : List Task}
    (effect : Effect env driver s task event store rest) (justified : Justified env past task) :
    ∀ next ∈ rest, Justified env (past ++ [event]) next := by
  cases effect with
  | @add source dto =>
    have sent : Requested env (past ++ [.add source dto.tid s.now]) (addedRequest env s.now source dto) :=
      ⟨s.now, by simp [addedRequest, createRequest], by simp [addedRequest, createRequest]⟩
    simpa using justified_addRequestMessage sent
  | @call caller request message sent =>
    simp only [List.forall_mem_singleton]
    refine ⟨fun bound => ?_, fun bound carried carries => ?_⟩
    · obtain ⟨wrong, _⟩ := callSend_handler sent bound
      cases wrong
    · obtain ⟨_, accept, payload⟩ := callSend_handler sent bound
      obtain rfl := Payload.request.inj (payload.symm.trans carries)
      exact (justified accept).append _
  | hset bound carries =>
    simpa [Justified] using (justified.1 bound _ carries).append _
  | hsetnx => simpa [Justified] using Requested.append justified _
  | accept bound carries =>
    simpa [Justified, Stage.clock] using (justified.2 bound _ carries).append _
  | «open» fresh =>
    have unexpired := isExpired_eq_false.mp fresh
    simpa [Justified, Stage.clock, unexpired] using justified.1.append _
  | saveFirst | saveSecond | remove =>
    simpa [Justified, Stage.clock] using Justified.append justified _
  | commit => simp [Justified]
  | findUser => simp [Justified]
  | fail left => exact fun next member => (leftovers_justified left justified next member).append _
  | _ => simp

theorem Effect.filed {s store : Store} {task : Task} {event : Event} {rest : List Task}
    (effect : Effect env driver s task event store rest) (justified : Justified env past task)
    (filed : Filed env past s.redis) : Filed env (past ++ [event]) store.redis := by
  cases effect with
  | @hset message caller request redis bound carries done =>
    intro key field stored held
    rcases (Redis.holds_hset done).mp held with ⟨rfl, rfl, same⟩ | ⟨_, held⟩
    · obtain rfl := Stored.record.inj same
      exact ⟨rfl, rfl, (justified.1 bound _ carries).append _⟩
    · exact (filed.append _) key field stored held
  | hsetnx done =>
    intro key field stored held
    rcases (Redis.holds_hsetnx done).mp held with ⟨_, _, same, _⟩ | held
    · cases same
    · exact (filed.append _) key field stored held
  | zadd done =>
    exact fun key field stored held => (filed.append _) key field stored ((Redis.holds_zadd done).mp held)
  | hdel _ _ done | remove done =>
    exact fun key field stored held => (filed.append _) key field stored ((Redis.holds_hdel done).mp held).2
  | _ => exact filed.append _

def Sound (env : Env) (past : List Event) (s : State) : Prop :=
  (∀ task ∈ s.tasks, Justified env past task) ∧ Filed env past s.store.redis

theorem Sound.add_task {s : State} {task : Task} {event : Event} (sound : Sound env past s)
    (justified : Justified env (past ++ [event]) task) :
    Sound env (past ++ [event]) { s with tasks := s.tasks ++ [task] } := by
  exact ⟨forall_spawned sound.1 (fun _ held => held.append _) justified, sound.2.append _⟩

theorem Step.sound {s s' : State} {event : Event} (taken : Step env driver s event s')
    (sound : Sound env past s) : Sound env (past ++ [event]) s' := by
  cases taken with
  | tick | users => exact ⟨fun task member => (sound.1 task member).append _, sound.2.append _⟩
  | add | updateTag | remove => exact sound.add_task trivial
  | @call tid rid status request found =>
    refine sound.add_task fun accept => ?_
    obtain ⟨key, field, requested⟩ := sound.2 _ _ _ (callRead_ok.mp found)
    have recipient : tid = request.recive := requestNamespace_inj key
    simp only at accept
    subst recipient field accept
    exact ⟨past, [], by simp, requested⟩
  | removeRequest done =>
    exact ⟨fun task member => (sound.1 task member).append _, fun key field stored held =>
      (sound.2.append _) key field stored ((Redis.holds_hdel done).mp held).2⟩
  | @run pre task post event store rest here effect =>
    have justified := sound.1 task (by simp [here])
    exact ⟨forall_replaced (here ▸ sound.1) (fun _ held => held.append _) (effect.justified justified),
      effect.filed justified sound.2⟩

theorem init_sound (now : Int) : Sound env [] (init now) :=
  ⟨by simp [init], fun _ _ _ held => (Redis.holds_empty held).elim⟩

theorem run_sound {now : Int} {history : History} {s : State} (run : Run env driver now history s) :
    Sound env (labels history) s :=
  Transition.Run.invariant (P := fun history s => Sound env (labels history) s) (init_sound now)
    (fun _ _ _ _ _ sound taken => by simpa using taken.sound sound) run

/-- What a step that befriends nobody can do to the friend collection. -/
def Trims (s : State) (friends : List Friend) : Prop :=
  friends = s.store.friends ∨ (∃ source dto, friends = setTag source dto s.store.friends) ∨
    ∃ source id, .delete source id ∈ s.tasks ∧ friends = deleteEdge source id s.store.friends

theorem Trims.edgeCount_le {s : State} {friends : List Friend} (trims : Trims s friends) (source target : String) :
    edgeCount friends source target ≤ edgeCount s.store.friends source target := by
  rcases trims with rfl | ⟨owner, dto, rfl⟩ | ⟨owner, id, -, rfl⟩
  · exact Nat.le_refl _
  · exact (edgeCount_setTag owner dto _ source target).le
  · exact edgeCount_deleteEdge_le owner id _ source target

theorem Step.friends_cases {s s' : State} {event : Event} (taken : Step env driver s event s') :
    (∃ caller dto clock, event = .accept dto clock ∧ .accept caller dto (.removed clock) ∈ s.tasks ∧
      s'.store.friends = s.store.friends ++ edges dto) ∨
    ((∀ dto clock, event ≠ .accept dto clock) ∧ Trims s s'.store.friends) := by
  cases taken with
  | @run pre task post event store rest here effect =>
    cases effect with
    | @commit caller dto clock => exact .inl ⟨caller, dto, clock, rfl, by simp [here], rfl⟩
    | @updateTag source dto => exact .inr ⟨by simp, .inr (.inl ⟨source, dto, rfl⟩)⟩
    | @delete source id => exact .inr ⟨by simp, .inr (.inr ⟨source, id, by simp [here], rfl⟩)⟩
    | _ => exact .inr ⟨by simp, .inl rfl⟩
  | _ => exact .inr ⟨by simp, .inl rfl⟩

/-- A step adds a friend edge only by committing a request that its sender sent, that its recipient
called to accept by its rid after that, and that had not expired by the clock `accept` read. -/
theorem edges_consented {now : Int} {history : History} {s s' : State} {event : Event}
    (run : Run env driver now history s) (taken : Step env driver s event s') :
    (∃ dto clock, event = .accept dto clock ∧ s'.store.friends = s.store.friends ++ edges dto ∧
      ∃ first sent between last,
        labels history = first ++ .add dto.sender dto.recive sent :: between ++
          .call dto.recive (ridOf env dto) .accept :: last ∧
        clock ≤ sent + env.requestExpire) ∨
    ((∀ dto clock, event ≠ .accept dto clock) ∧ ∀ source target,
      edgeCount s'.store.friends source target ≤ edgeCount s.store.friends source target) := by
  rcases taken.friends_cases with ⟨caller, dto, clock, same, waiting, inserted⟩ | ⟨never, trims⟩
  · obtain ⟨⟨before, last, whole, sent, member, expire⟩, bound⟩ := (run_sound run).1 _ waiting
    obtain ⟨first, between, rfl⟩ := List.append_of_mem member
    refine .inl ⟨dto, clock, same, inserted, first, sent, between, last, by simpa using whole, ?_⟩
    have unexpired := bound clock rfl
    omega
  · exact .inr ⟨never, trims.edgeCount_le⟩

theorem edges_consented_sample : ∃ history s s' dto,
    Run sampleEnv .standard 0 history s ∧ Step sampleEnv .standard s (.accept dto 0) s' ∧
      s'.store.friends = s.store.friends ++ edges dto ∧
      ∃ first sent between last,
        labels history = first ++ .add dto.sender dto.recive sent :: between ++
          .call dto.recive (ridOf sampleEnv dto) .accept :: last ∧
        0 ≤ sent + sampleEnv.requestExpire := by
  obtain ⟨history, s, run, -, -, -, whole, -⟩ :=
    befriend sampleEnv .standard 0 "1" sampleAdd (by decide) (by decide)
  have parted : labels history = (labels history).take 12 ++
      .accept (addedRequest sampleEnv 0 "1" sampleAdd) 0 :: (labels history).drop 13 := by
    rw [whole]
    rfl
  obtain ⟨before, x, after, rfl, -, -⟩ := labels_split parted
  obtain ⟨front, y, taken, -⟩ := Run.split run
  rcases edges_consented front taken with ⟨dto, clock, same, inserted, consent⟩ | ⟨never, -⟩
  · obtain ⟨rfl, rfl⟩ := Event.accept.inj same
    exact ⟨before, x, y, _, front, taken, inserted, consent⟩
  · exact (never _ _ rfl).elim

end TacoBack.FriendSystem
