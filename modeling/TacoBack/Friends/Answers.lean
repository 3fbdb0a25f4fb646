import TacoBack.Friends.Consent

/-!
# Who is answered

`call` waits for the reply to the message it sends. A message that refuses has no handler, so such a call is
never answered and does nothing; each answer to a call that accepts has a commit of its own before it.
-/

namespace TacoBack.FriendSystem

open RequestService FriendsService Transition

variable {env : Env} {driver : Mongo.Driver} {s t : State} {now : Int} {history : History} {event : Event}

def Task.caller : Task → Option Caller
  | .call caller _ | .reply caller => some caller
  | .message _ caller | .accept caller _ _ => caller
  | _ => none

/-- What a waiting task owes to its caller. -/
def Owed : Task → Prop
  | .call caller request => request.recive = caller.tid
  | .message message (some caller) => ∃ request, message.payload = .request request ∧ request.recive = caller.tid ∧
      ∀ handler, handlerOf message = some handler → handler = .accept ∧ caller.status = .accept
  | .accept (some caller) dto _ => dto.recive = caller.tid ∧ caller.status = .accept
  | .reply caller => caller.status = .accept
  | _ => True

theorem owed_acceptMessage {caller : Option Caller} {dto : Request} {stage : Stage}
    (owed : Owed (.accept caller dto stage)) : Owed (.message (acceptMessage dto) caller) := by
  cases caller with
  | none => trivial
  | some caller =>
    refine ⟨dto, rfl, owed.1, fun handler bound => ?_⟩
    rw [handlerOf_acceptMessage] at bound
    exact ⟨(Option.some.inj bound).symm, owed.2⟩

theorem leftovers_owed {task : Task} {rest : List Task} (left : rest ∈ leftovers task) (owed : Owed task) :
    ∀ next ∈ rest, Owed next := by
  intro next member
  rcases leftovers_cases left member with ⟨request, -, rfl⟩ | ⟨caller, dto, stage, rfl, rfl | rfl⟩
  · trivial
  · exact owed_acceptMessage owed
  · trivial

theorem Effect.owed {store store' : Store} {task : Task} {rest : List Task}
    (effect : Effect env driver store task event store' rest) (owed : Owed task) : ∀ next ∈ rest, Owed next := by
  cases effect with
  | @call caller request message sent =>
    simp only [List.forall_mem_singleton]
    have payload : message.payload = .request request := by
      unfold callSend at sent
      split at sent
      · cases sent
      · rw [← Except.ok.inj sent]
    refine ⟨request, payload, owed, fun handler bound => ?_⟩
    obtain ⟨handles, status, -⟩ := callSend_handler sent bound
    exact ⟨handles, status⟩
  | @accept message caller dto bound carries =>
    simp only [List.forall_mem_singleton]
    cases caller with
    | none => trivial
    | some caller =>
      obtain ⟨request, payload, recipient, handles⟩ := owed
      obtain rfl := Payload.request.inj (payload.symm.trans carries)
      exact ⟨recipient, (handles _ bound).2⟩
  | @commit caller dto clock =>
    cases caller with
    | none => simp
    | some caller =>
      simp only [Option.toList_some, List.map_cons, List.map_nil, List.forall_mem_singleton]
      exact owed.2
  | @«open» caller dto | @saveFirst caller dto | @saveSecond caller dto | @remove caller dto =>
    simp only [List.forall_mem_singleton]
    cases caller with
    | none => trivial
    | some caller => exact owed
  | fail left => exact leftovers_owed left owed
  | _ => simp [Owed]

theorem run_owed (run : Run env driver now history s) : ∀ task ∈ s.tasks, Owed task := by
  refine run.invariant (P := fun _ s => ∀ task ∈ s.tasks, Owed task) (by simp [init]) fun _ t _ _ before owed taken => ?_
  cases taken with
  | tick | users | removeRequest => exact owed
  | add | updateTag | remove => exact forall_spawned owed (fun _ => id) trivial
  | call found =>
    obtain ⟨key, -⟩ := (run_sound before).2 _ _ _ (callRead_ok.mp found)
    exact forall_spawned owed (fun _ => id) (requestNamespace_inj key).symm
  | run here effect =>
    rw [here] at owed
    exact forall_replaced owed (fun _ => id) (effect.owed (owed _ (by simp)))

/-! ### Answers -/

def answeredTo (tid : String) : Event → Bool
  | .answered caller => caller.tid == tid
  | _ => false

def committedFor (tid : String) : Event → Bool
  | .accept dto _ => dto.recive == tid
  | _ => false

def Task.repliesTo (tid : String) : Task → Bool
  | .reply caller => caller.tid == tid
  | _ => false

theorem leftovers_silent {task : Task} {rest : List Task} (left : rest ∈ leftovers task) (tid : String) :
    rest.countP (Task.repliesTo tid) = 0 := by
  rw [List.countP_eq_zero]
  intro next member
  rcases leftovers_cases left member with ⟨request, -, rfl⟩ | ⟨caller, dto, stage, -, rfl | rfl⟩ <;> simp [Task.repliesTo]

/-- A commit owes one reply, to its recipient, and an answer uses one up. -/
theorem Effect.answers {store store' : Store} {task : Task} {rest : List Task}
    (effect : Effect env driver store task event store' rest) (owed : Owed task) (tid : String) :
    [event].countP (answeredTo tid) + rest.countP (Task.repliesTo tid) ≤
      [task].countP (Task.repliesTo tid) + [event].countP (committedFor tid) := by
  cases effect with
  | @commit caller dto clock =>
    cases caller with
    | none => simp [answeredTo]
    | some caller =>
      have same : dto.recive = caller.tid := owed.1
      simp [answeredTo, committedFor, Task.repliesTo, same]
  | reply => simp [answeredTo, Task.repliesTo, committedFor]
  | fail left =>
    rw [leftovers_silent left tid]
    simp [answeredTo]
  | _ => simp [answeredTo, Task.repliesTo]

/-- The answers given and those under way are no more than the commits. -/
theorem run_answers (run : Run env driver now history s) (tid : String) :
    (labels history).countP (answeredTo tid) + s.tasks.countP (Task.repliesTo tid) ≤
      (labels history).countP (committedFor tid) := by
  refine run.invariant (P := fun history s => (labels history).countP (answeredTo tid) +
    s.tasks.countP (Task.repliesTo tid) ≤ (labels history).countP (committedFor tid)) (by simp [init]) ?_
  intro past t event u before counted taken
  rw [labels_append, labels_cons, labels_nil, List.countP_append, List.countP_append]
  have spawned : ∀ task : Task, task.repliesTo tid = false →
      (t.tasks ++ [task]).countP (Task.repliesTo tid) = t.tasks.countP (Task.repliesTo tid) := by
    intro task silent
    simp [List.countP_append, silent]
  cases taken with
  | tick | users | removeRequest => simpa [answeredTo, committedFor] using counted
  | add | call | updateTag | remove =>
    rw [spawned _ rfl]
    simpa [answeredTo, committedFor] using counted
  | @run pre task post event store rest here effect =>
    have balance := effect.answers (run_owed before task (by simp [here])) tid
    rw [here, List.countP_append, List.countP_cons] at counted
    rw [List.countP_append, List.countP_append]
    simp only [List.countP_singleton] at balance
    simp only [List.countP_singleton]
    omega

theorem Step.answered {caller : Caller} (taken : Step env driver s (.answered caller) t)
    (owed : ∀ task ∈ s.tasks, Owed task) : caller.status = .accept := by
  cases taken with
  | run here effect =>
    cases effect with
    | reply => exact owed (.reply caller) (by simp [here])

/-- In every run only calls that accept are answered, and each recipient gets no more answers than
friendships were committed in the requests sent to it. -/
theorem answered_committed (run : Run env driver now history s) :
    (∀ caller, .answered caller ∈ labels history → caller.status = .accept) ∧
    ∀ tid, (labels history).countP (answeredTo tid) ≤ (labels history).countP (committedFor tid) := by
  refine ⟨fun caller member => ?_, fun tid => (Nat.le_add_right _ _).trans (run_answers run tid)⟩
  obtain ⟨⟨before, event⟩, listed, rfl⟩ := List.mem_map.mp member
  obtain ⟨past, next, reached, taken⟩ := run.reached listed
  exact taken.answered (run_owed reached)

theorem answered_committed_sample : ∃ history s, Run sampleEnv .standard 0 history s ∧
    (∃ caller, .answered caller ∈ labels history) ∧
    (∀ caller, .answered caller ∈ labels history → caller.status = .accept) ∧
    ∀ tid, (labels history).countP (answeredTo tid) ≤ (labels history).countP (committedFor tid) := by
  obtain ⟨history, s, run, -, -, -, whole, -⟩ :=
    befriend sampleEnv .standard 0 "1" sampleAdd (by decide) (by decide)
  exact ⟨history, s, run, ⟨_, by rw [whole]; exact List.mem_of_getLast? rfl⟩, answered_committed run⟩

/-! ### Refusals -/

def Task.refuses (task : Task) : Bool := task.caller.any fun caller => caller.status == .refuse

def unrefusing (tasks : List Task) : List Task := tasks.filter fun task => !task.refuses

/-- The state without the calls that refuse. -/
def State.unrefused (s : State) : State := { s with tasks := unrefusing s.tasks }

/-- What a step shows, apart from the calls that refuse. -/
def Event.unrefused : Event → List Event
  | .internal | .call _ _ .refuse => []
  | event => [event]

@[simp] theorem unrefusing_append (xs ys : List Task) : unrefusing (xs ++ ys) = unrefusing xs ++ unrefusing ys :=
  List.filter_append ..

theorem unrefusing_single {task : Task} (alone : task.refuses = false) : unrefusing [task] = [task] := by
  simp [unrefusing, alone]

/-- A refusing task leaves the store alone, and only refusing tasks behind. -/
theorem Effect.refused {store store' : Store} {task : Task} {rest : List Task}
    (effect : Effect env driver store task event store' rest) (owed : Owed task) (refuses : task.refuses = true) :
    event = .internal ∧ store' = store ∧ ∀ next ∈ rest, next.refuses = true := by
  obtain ⟨caller, owner, status⟩ : ∃ caller, task.caller = some caller ∧ caller.status = .refuse := by
    simpa [Task.refuses, Option.any_eq_true] using refuses
  cases task with
  | call caller' request =>
    obtain rfl := Option.some.inj owner
    cases effect with
    | call sent => exact ⟨rfl, rfl, by simp [Task.refuses, Task.caller, status]⟩
    | fail left =>
      obtain rfl := List.mem_singleton.mp left
      exact ⟨rfl, rfl, by simp⟩
  | message message caller' =>
    obtain rfl : caller' = some caller := owner
    obtain ⟨request, -, -, handles⟩ := owed
    have unhandled : ∀ handler, handlerOf message ≠ some handler := by
      intro handler bound
      rw [status] at handles
      cases (handles handler bound).2
    cases effect with
    | hset bound | hdel bound | accept bound => exact (unhandled _ bound).elim
    | fail left =>
      obtain rfl := List.mem_singleton.mp left
      exact ⟨rfl, rfl, by simp⟩
  | accept caller' dto stage =>
    obtain rfl : caller' = some caller := owner
    cases owed.2.symm.trans status
  | reply caller' =>
    obtain rfl := Option.some.inj owner
    cases (show caller'.status = .accept from owed).symm.trans status
  | _ => cases owner

/-- What is left of a task has its caller, or none. -/
theorem Effect.caller {store store' : Store} {task : Task} {rest : List Task}
    (effect : Effect env driver store task event store' rest) :
    ∀ next ∈ rest, next.caller = task.caller ∨ next.caller = none := by
  cases effect with
  | @commit caller dto clock => cases caller <;> simp [Task.caller]
  | fail left =>
    intro next member
    rcases leftovers_cases left member with ⟨request, -, rfl⟩ | ⟨caller, dto, stage, rfl, rfl | rfl⟩
    · exact .inr rfl
    · exact .inl rfl
    · exact .inr rfl
  | _ => simp [Task.caller]

/-- A step of the services while nobody calls them to refuse. -/
def AcceptStep (env : Env) (driver : Mongo.Driver) (s : State) (event : Event) (t : State) : Prop :=
  Step env driver s event t ∧ ∀ tid rid, event ≠ .call tid rid .refuse

theorem unrefused_spawned {task : Task} (alone : task.refuses = false) :
    State.unrefused { s with tasks := s.tasks ++ [task] } =
      { s.unrefused with tasks := s.unrefused.tasks ++ [task] } := by
  simp [State.unrefused, unrefusing_single alone]

theorem AcceptStep.shown (taken : Step env driver s event t) (accepts : ∀ tid rid, event ≠ .call tid rid .refuse) :
    ∃ k, Transition.Run (AcceptStep env driver) s k t ∧ (labels k).flatMap Event.unrefused = event.unrefused :=
  ⟨_, Run.single ⟨taken, accepts⟩, by simp⟩

/-- A task goes on as before where it does not refuse, and is not there where it does. -/
theorem Effect.unrefused {store : Store} {pre post rest : List Task} {task : Task} (here : s.tasks = pre ++ task :: post)
    (effect : Effect env driver s.store task event store rest) (owed : Owed task) :
    ∃ k, Transition.Run (AcceptStep env driver) s.unrefused k
        (State.unrefused { store := store, tasks := pre ++ rest ++ post }) ∧
      (labels k).flatMap Event.unrefused = event.unrefused := by
  have waiting : s.unrefused.tasks = unrefusing pre ++ unrefusing [task] ++ unrefusing post := by
    rw [State.unrefused, here, List.append_cons, unrefusing_append, unrefusing_append]
  by_cases refuses : task.refuses = true
  · obtain ⟨rfl, rfl, left⟩ := effect.refused owed refuses
    have nothing : unrefusing [task] = [] := by simp [unrefusing, refuses]
    have gone : unrefusing rest = [] := by simpa [unrefusing, List.filter_eq_nil_iff] using left
    have same : State.unrefused { store := s.store, tasks := pre ++ rest ++ post } = s.unrefused := by
      rw [nothing] at waiting
      rw [State.unrefused, unrefusing_append, unrefusing_append, gone, ← waiting]
      rfl
    rw [same]
    exact ⟨[], .nil, rfl⟩
  · have alone : task.refuses = false := Bool.eq_false_of_not_eq_true refuses
    have kept : unrefusing rest = rest := by
      rw [unrefusing, List.filter_eq_self]
      intro next member
      rcases effect.caller next member with same | none
      · simpa [Task.refuses, same] using alone
      · simp [Task.refuses, none]
    rw [unrefusing_single alone, List.append_assoc, List.singleton_append] at waiting
    have same : State.unrefused { store := store, tasks := pre ++ rest ++ post } =
        { store := store, tasks := unrefusing pre ++ rest ++ unrefusing post } := by
      rw [State.unrefused, unrefusing_append, unrefusing_append, kept]
    rw [same]
    refine AcceptStep.shown (.run waiting effect) ?_
    rintro tid rid rfl
    cases effect

theorem Step.unrefused (taken : Step env driver s event t) (owed : ∀ task ∈ s.tasks, Owed task) :
    ∃ k, Transition.Run (AcceptStep env driver) s.unrefused k t.unrefused ∧
      (labels k).flatMap Event.unrefused = event.unrefused := by
  cases taken with
  | tick later => exact AcceptStep.shown (.tick later) (by simp)
  | users => exact AcceptStep.shown .users (by simp)
  | removeRequest done => exact AcceptStep.shown (.removeRequest done) (by simp)
  | add new =>
    rw [unrefused_spawned rfl]
    exact AcceptStep.shown (.add new) (by simp)
  | updateTag has =>
    rw [unrefused_spawned rfl]
    exact AcceptStep.shown (.updateTag has) (by simp)
  | remove has =>
    rw [unrefused_spawned rfl]
    exact AcceptStep.shown (.remove has) (by simp)
  | @call tid rid status request found =>
    cases status with
    | accept =>
      rw [unrefused_spawned rfl]
      exact AcceptStep.shown (.call found) (by simp)
    | refuse =>
      have same : State.unrefused { s with tasks := s.tasks ++ [.call ⟨tid, rid, .refuse⟩ request] } = s.unrefused := by
        simp [State.unrefused, unrefusing, Task.refuses, Task.caller]
      rw [same]
      exact ⟨[], .nil, rfl⟩
  | run here effect => exact effect.unrefused here (owed _ (by simp [here]))

/-- Refusing a request is as good as doing nothing: without the calls that refuse, every run is still one, with
the same stores and the same events. -/
theorem run_unrefused (run : Run env driver now history s) :
    ∃ h, Transition.Run (AcceptStep env driver) (init now) h s.unrefused ∧
      (labels h).flatMap Event.unrefused = (labels history).flatMap Event.unrefused :=
  Run.simulate (C := fun _ => True) State.unrefused Event.unrefused Event.unrefused
    (fun _ _ _ _ before taken _ => taken.unrefused (run_owed before)) run fun _ _ => trivial

theorem run_unrefused_sample : ∃ history s h, Run sampleEnv .standard 0 history s ∧
    (∃ rid, .call "2" rid .refuse ∈ labels history) ∧
    Transition.Run (AcceptStep sampleEnv .standard) (init 0) h s.unrefused ∧
    (labels h).flatMap Event.unrefused = (labels history).flatMap Event.unrefused := by
  obtain ⟨history, s, run, -, -, -, -, held, -⟩ :=
    befriend sampleEnv .standard 0 "1" sampleAdd (by decide) (by decide)
  have refusing := run.snoc (@Step.call _ _ _ _ _ .refuse _ (callRead_ok.mpr held))
  obtain ⟨h, accepting, same⟩ := run_unrefused refusing
  exact ⟨_, _, h, refusing, ⟨_, by rw [labels_append]; exact List.mem_append_right _ (List.mem_singleton.mpr rfl)⟩,
    accepting, same⟩

end TacoBack.FriendSystem
