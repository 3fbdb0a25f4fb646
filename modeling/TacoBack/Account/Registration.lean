import TacoBack.Account.Alone

/-!
# The tids of concurrent registrations

`registe` reads the pool first and raises it last. Two calls that overlap take the same tid.
-/

namespace TacoBack.AccountSystem

open AccountService Transition

variable {env : AccountEnv} {past : List Event} {s s' : State}

/-! ### The tids in circulation -/

def Task.taken : Task → List Json
  | .registe tid _ _ _ => [tid]
  | _ => []

def Task.inserted : Task → List Json
  | .registe tid _ _ .save | .registe tid _ _ .incrby => [tid]
  | _ => []

def Event.returns : Event → List Json
  | .returned tid => [tid]
  | _ => []

def returned (past : List Event) : List Json := past.flatMap Event.returns

def taken (tasks : List Task) : List Json := tasks.flatMap Task.taken

def inserted (tasks : List Task) : List Json := tasks.flatMap Task.inserted

def tids (users : List Users) : List (Option Json) := users.map Users.tid

def Task.untold : Task → Prop
  | .registe _ _ body _ => body.get "tid" = none
  | _ => True

/-- The pool counts the tids returned, and every user has a tid that was returned or is taken. -/
structure Ledger (past : List Event) (s : State) : Prop where
  pool : pool s.store = some (returned past).length
  users : (tids s.store.users).Perm ((returned past ++ inserted s.tasks).map some)
  old : ∀ tid ∈ returned past, ∃ n : Int, tid = .num n ∧ 1 ≤ n ∧ n ≤ (returned past).length
  new : ∀ tid ∈ taken s.tasks, ∃ n : Int, tid = .num n ∧ 1 ≤ n ∧ n ≤ (returned past).length + 1
  untold : ∀ task ∈ s.tasks, task.untold

/-! ### One step -/

inductive Moves (s : AccountStore) : Task → Event → AccountStore → List Task → Prop where
  | quiet {task event store rest} (counted : AccountService.pool store = AccountService.pool s)
      (users : tids store.users = tids s.users) (silent : event.returns = []) (kept : event ≠ .rejected)
      (taking : taken rest = task.taken) (inserting : inserted rest = task.inserted)
      (untold : task.untold → ∀ next ∈ rest, next.untold) : Moves s task event store rest
  | insert {tid hash body store} (counted : AccountService.pool store = AccountService.pool s)
      (users : tids store.users = tids s.users ++ [some tid]) :
      Moves s (.registe tid hash body .insert) .internal store [.registe tid hash body .save]
  | incrby {tid hash body store} {v : Int} (counts : AccountService.pool s = some v)
      (counted : AccountService.pool store = some (v + 1)) (users : store.users = s.users) :
      Moves s (.registe tid hash body .incrby) (.returned tid) store []
  | reject {tid hash body stage} (before : (Task.registe tid hash body stage).inserted = []) :
      Moves s (.registe tid hash body stage) .rejected s []

theorem tids_replaced {store updated : AccountStore} {found : Option Users}
    (done : ∃ p hash, found = store.users.find? p ∧
      updated = { store with users := Mongo.updateOne p (setPassword hash) store.users }) :
    AccountService.pool updated = AccountService.pool store ∧ tids updated.users = tids store.users := by
  obtain ⟨p, hash, -, rfl⟩ := done
  exact ⟨rfl, Mongo.updateOne_map (by intro _; rfl) store.users⟩

theorem pool_key (kind : Kind) (tid : Option Json) : ACCOUNT_POOL_NAMESPACE ≠ kind.key tid := by
  cases kind with
  | access => exact pool_ne_token tid
  | refresh => exact pool_ne_refresh tid

theorem Effect.moves {store store' : AccountStore} {task : Task} {event : Event} {rest : List Task} {v : Int}
    (effect : Effect env store task event store' rest) (alive : event ≠ .failed)
    (counts : AccountService.pool store = some v) (untold : task.untold)
    (number : ∀ tid ∈ task.taken, ∃ n : Int, tid = .num n) : Moves store task event store' rest := by
  cases effect with
  | find => exact .quiet rfl rfl rfl (by simp) rfl rfl fun held => by simpa [Task.untold] using held
  | known | invalid => exact .reject rfl
  | @insert tid hash body id inserted done =>
    obtain ⟨n, rfl⟩ := number tid (by simp [Task.taken])
    obtain ⟨user, tid, -, rfl⟩ := registeInsert_ok (numbered_of_none untold) done
    exact .insert rfl (by simp [tids, tid])
  | save => exact .quiet rfl rfl rfl (by simp) rfl rfl fun held => by simpa [Task.untold] using held
  | incrby done =>
    obtain ⟨t, counted, users, -, raised⟩ := registeIncrby_ok counts
    obtain rfl := Except.ok.inj (done.symm.trans counted)
    exact .incrby counts raised users
  | sign | refuse => exact .quiet rfl rfl rfl (by simp) rfl rfl (by simp [Task.untold])
  | @set issue renew =>
    refine .quiet (Redis.counter_congr ?_) rfl rfl (by simp) rfl rfl (by simp [Task.untold])
    exact Redis.set_of_ne _ _ (pool_key issue.kind issue.tid)
  | @setnx issue renew =>
    refine .quiet (Redis.counter_congr ?_) rfl rfl (by simp) ?_ ?_ ?_
    · exact Redis.setnx_of_ne _ _ (pool_key issue.kind issue.tid)
    all_goals split <;> simp [taken, inserted, Task.taken, Task.inserted, Task.untold]
  | forgetPassword done =>
    obtain ⟨counted, users⟩ := tids_replaced (forgetUpdate_ok done)
    exact .quiet counted users rfl (by simp) rfl rfl (by simp [Task.untold])
  | throw => exact .quiet rfl rfl rfl (by simp) rfl rfl (by simp)
  | @del tid => exact .quiet (delToken_untouched tid store).pool rfl rfl (by simp) rfl rfl (by simp)
  | fail => exact (alive rfl).elim

@[simp] theorem taken_append (xs ys : List Task) : taken (xs ++ ys) = taken xs ++ taken ys := List.flatMap_append

@[simp] theorem taken_cons (task : Task) (tasks : List Task) : taken (task :: tasks) = task.taken ++ taken tasks := rfl

@[simp] theorem taken_nil : taken [] = [] := rfl

@[simp] theorem inserted_append (xs ys : List Task) : inserted (xs ++ ys) = inserted xs ++ inserted ys :=
  List.flatMap_append

@[simp] theorem inserted_cons (task : Task) (tasks : List Task) :
    inserted (task :: tasks) = task.inserted ++ inserted tasks := rfl

@[simp] theorem inserted_nil : inserted [] = [] := rfl

@[simp] theorem returned_snoc (past : List Event) (event : Event) :
    returned (past ++ [event]) = returned past ++ event.returns := by
  simp [returned]

inductive Flow (s : State) : Event → State → Prop where
  | quiet {event s'} (counted : pool s'.store = pool s.store) (users : tids s'.store.users = tids s.store.users)
      (silent : event.returns = []) (kept : event ≠ .rejected) (starts : ∀ body, event ≠ .registe body)
      (taking : taken s'.tasks = taken s.tasks) (inserting : inserted s'.tasks = inserted s.tasks) : Flow s event s'
  | registe {body s'} {v : Int} (counts : pool s.store = some v) (counted : pool s'.store = pool s.store)
      (users : tids s'.store.users = tids s.store.users) (taking : taken s'.tasks = taken s.tasks ++ [.num (v + 1)])
      (inserting : inserted s'.tasks = inserted s.tasks) : Flow s (.registe body) s'
  | insert {tid s' before after} (counted : pool s'.store = pool s.store)
      (users : tids s'.store.users = tids s.store.users ++ [some tid]) (taking : taken s'.tasks = taken s.tasks)
      (inserting : inserted s.tasks = before ++ after) (inserting' : inserted s'.tasks = before ++ tid :: after) :
      Flow s .internal s'
  | incrby {tid s' before after before' after'} {v : Int} (counts : pool s.store = some v)
      (counted : pool s'.store = some (v + 1)) (users : tids s'.store.users = tids s.store.users)
      (taking : taken s.tasks = before ++ tid :: after) (taking' : taken s'.tasks = before ++ after)
      (inserting : inserted s.tasks = before' ++ tid :: after') (inserting' : inserted s'.tasks = before' ++ after') :
      Flow s (.returned tid) s'
  | reject {tid s' before after} (counted : pool s'.store = pool s.store)
      (users : tids s'.store.users = tids s.store.users) (taking : taken s.tasks = before ++ tid :: after)
      (taking' : taken s'.tasks = before ++ after) (inserting : inserted s'.tasks = inserted s.tasks) :
      Flow s .rejected s'

theorem Moves.untold {store store' : AccountStore} {task : Task} {event : Event} {rest : List Task}
    (moves : Moves store task event store' rest) (untold : task.untold) : ∀ next ∈ rest, next.untold := by
  cases moves with
  | quiet _ _ _ _ _ _ keeps => exact keeps untold
  | insert => simpa [Task.untold] using untold
  | incrby | reject => simp

theorem Step.moves {store : AccountStore} {task : Task} {event : Event} {pre post rest : List Task}
    (here : s.tasks = pre ++ task :: post)
    (effect : Effect env s.store task event store rest) (alive : event ≠ .failed) (ledger : Ledger past s) :
    Moves s.store task event store rest := by
  refine effect.moves alive ledger.pool (ledger.untold task (by simp [here])) fun tid member => ?_
  obtain ⟨n, same, -⟩ := ledger.new tid (by simp [here, member])
  exact ⟨n, same⟩

theorem Step.untold {event : Event} (moved : Step env s event s') (alive : event ≠ .failed)
    (told : ∀ body, event = .registe body → body.get "tid" = none) (ledger : Ledger past s) :
    ∀ task ∈ s'.tasks, task.untold := by
  have untold := ledger.untold
  cases moved with
  | tick => exact untold
  | login | refresh | changePassWord | forgetPassword => exact forall_spawned untold (fun _ => id) trivial
  | registe => exact forall_spawned untold (fun _ => id) (told _ rfl)
  | @run pre task post event store rest here effect =>
    have moves := Step.moves here effect alive ledger
    exact forall_replaced (here ▸ untold) (fun _ => id) (moves.untold (untold task (by simp [here])))

theorem Step.flow {event : Event} (moved : Step env s event s') (alive : event ≠ .failed)
    (ledger : Ledger past s) : Flow s event s' := by
  cases moved with
  | tick | login | refresh | forgetPassword =>
    exact .quiet rfl rfl rfl (by simp) (by simp) (by simp [Task.taken]) (by simp [Task.inserted])
  | changePassWord done =>
    obtain ⟨counted, users⟩ := tids_replaced (changeUpdate_ok done)
    exact .quiet counted users rfl (by simp) (by simp) (by simp [Task.taken]) (by simp [Task.inserted])
  | @registe body tid hash read =>
    rw [registeGet_eq ledger.pool] at read
    obtain ⟨digest, -, same⟩ := Redis.map_ok.mp read
    obtain ⟨rfl, rfl⟩ := Prod.mk.inj same
    exact .registe ledger.pool rfl rfl (by simp [Task.taken]) (by simp [Task.inserted])
  | @run pre task post event store rest here effect =>
    cases Step.moves here effect alive ledger with
    | quiet counted users silent kept taking inserting =>
      refine .quiet counted users silent kept ?_ (by simp [here, taking]) (by simp [here, inserting])
      rintro body rfl
      cases effect
    | @insert tid hash body _ counted users =>
      exact @Flow.insert s tid _ (inserted pre) (inserted post) counted users (by simp [here, Task.taken])
        (by simp [here, Task.inserted]) (by simp [Task.inserted])
    | @incrby tid hash body _ v counts counted users =>
      exact @Flow.incrby s tid _ (taken pre) (taken post) (inserted pre) (inserted post) v counts counted
        (by rw [users]) (by simp [here, Task.taken]) (by simp) (by simp [here, Task.inserted]) (by simp)
    | @reject tid hash body stage before =>
      exact @Flow.reject s tid _ (taken pre) (taken post) rfl rfl (by simp [here, Task.taken]) (by simp)
        (by simp [here, before])

/-! ### Runs -/

theorem Flow.ledger {event : Event} (flow : Flow s event s') (ledger : Ledger past s)
    (untold : ∀ task ∈ s'.tasks, task.untold) : Ledger (past ++ [event]) s' := by
  obtain ⟨pool, users, old, new, -⟩ := ledger
  cases flow with
  | quiet counted users' silent _ _ taking inserting =>
    refine ⟨?_, ?_, ?_, ?_, untold⟩ <;> simp only [returned_snoc, silent, List.append_nil, taking, inserting]
    · exact counted.trans pool
    · rwa [users']
    · exact old
    · exact new
  | @registe body _ v counts counted users' taking inserting =>
    obtain rfl := Option.some.inj (counts.symm.trans pool)
    refine ⟨?_, ?_, ?_, ?_, untold⟩ <;>
      simp only [returned_snoc, Event.returns, List.append_nil, taking, inserting]
    · exact counted.trans pool
    · rwa [users']
    · exact old
    · intro tid member
      rcases List.mem_append.mp member with waiting | fresh
      · exact new tid waiting
      · obtain rfl := List.mem_singleton.mp fresh
        exact ⟨_, rfl, by omega, le_refl _⟩
  | @insert tid _ before after counted users' taking inserting inserting' =>
    refine ⟨?_, ?_, ?_, ?_, untold⟩ <;>
      simp only [returned_snoc, Event.returns, List.append_nil, taking, inserting']
    · exact counted.trans pool
    · rw [users']
      rw [inserting] at users
      have placed := (((List.perm_append_singleton tid after).append_left before).append_left (returned past)).map some
      exact (users.append_right [some tid]).trans (by simpa using placed)
    · exact old
    · exact new
  | @incrby tid _ before after before' after' v counts counted users' taking taking' inserting inserting' =>
    obtain rfl := Option.some.inj (counts.symm.trans pool)
    have length : (returned (past ++ [.returned tid])).length = (returned past).length + 1 := by
      simp [Event.returns]
    refine ⟨?_, ?_, ?_, ?_, untold⟩
    · rw [counted, length]
      simp
    · rw [users', returned_snoc, inserting', Event.returns, List.append_assoc]
      rw [inserting] at users
      exact users.trans ((List.perm_middle.append_left _).map some)
    · intro other member
      rw [length]
      rw [returned_snoc, Event.returns, List.mem_append, List.mem_singleton] at member
      rcases member with before | rfl
      · obtain ⟨n, same, low, high⟩ := old other before
        exact ⟨n, same, low, by push_cast; omega⟩
      · obtain ⟨n, same, low, high⟩ := new other (by simp [taking])
        exact ⟨n, same, low, by push_cast; omega⟩
    · intro other member
      rw [length]
      obtain ⟨n, same, low, high⟩ := new other (by
        rw [taking]
        rw [taking'] at member
        rcases List.mem_append.mp member with first | last <;> simp [*])
      exact ⟨n, same, low, by push_cast; omega⟩
  | @reject tid _ before after counted users' taking taking' inserting =>
    refine ⟨?_, ?_, ?_, ?_, untold⟩ <;> simp only [returned_snoc, Event.returns, List.append_nil, inserting]
    · exact counted.trans pool
    · rwa [users']
    · exact old
    · intro other member
      refine new other ?_
      rw [taking]
      rw [taking'] at member
      rcases List.mem_append.mp member with first | last <;> simp [*]

/-- No two calls hold the same tid, those that returned and those that wait. -/
def Apart (past : List Event) (s : State) : Prop := (returned past ++ taken s.tasks).Nodup

/-- A `registe` reads the pool while no other is under way. -/
def Isolated (s : State) : Event → Prop
  | .registe _ => taken s.tasks = []
  | _ => True

/-- The tid after the pool is free exactly if no call is under way. -/
theorem apart_snoc_iff (ledger : Ledger past s) (apart : Apart past s) :
    (returned past ++ (taken s.tasks ++ [Json.num ((returned past).length + 1)])).Nodup ↔ taken s.tasks = [] := by
  constructor
  · intro distinct
    by_contra busy
    -- One more tid than there are numbers up to the pool.
    have numbers : returned past ++ (taken s.tasks ++ [.num ((returned past).length + 1)]) ⊆
        (List.range ((returned past).length + 1)).map fun k : Nat => Json.num ((k : Int) + 1) := by
      intro tid member
      obtain ⟨n, rfl, low, high⟩ : ∃ n : Int, tid = .num n ∧ 1 ≤ n ∧ n ≤ (returned past).length + 1 := by
        simp only [List.mem_append, List.mem_singleton] at member
        rcases member with old | waiting | rfl
        · obtain ⟨n, same, low, high⟩ := ledger.old tid old
          exact ⟨n, same, low, by omega⟩
        · exact ledger.new tid waiting
        · exact ⟨_, rfl, by omega, le_refl _⟩
      exact List.mem_map.mpr ⟨(n - 1).toNat, List.mem_range.mpr (by omega), by congr 1; omega⟩
    have room := (distinct.subperm numbers).length_le
    have waiting := List.length_pos_iff.mpr busy
    simp only [List.length_append, List.length_cons, List.length_nil, List.length_map, List.length_range] at room
    omega
  · intro idle
    rw [idle, List.nil_append, List.nodup_append]
    have old := apart
    rw [Apart, idle, List.append_nil] at old
    refine ⟨old, by simp, ?_⟩
    rintro tid member _ fresh rfl
    obtain ⟨n, same, -, high⟩ := ledger.old tid member
    rw [List.mem_singleton.mp fresh] at same
    have equal := Json.num.inj same
    omega

theorem Flow.apart_iff {event : Event} (flow : Flow s event s') (ledger : Ledger past s) (apart : Apart past s) :
    Apart (past ++ [event]) s' ↔ Isolated s event := by
  cases flow with
  | quiet _ _ silent _ starts taking =>
    have isolated : Isolated s event := by
      cases event with
      | registe body => exact (starts body rfl).elim
      | _ => trivial
    rw [Apart, returned_snoc, silent, List.append_nil, taking]
    exact iff_of_true apart isolated
  | @registe body _ v counts counted users' taking =>
    obtain rfl := Option.some.inj (counts.symm.trans ledger.pool)
    simp only [Apart, returned_snoc, taking, Event.returns, List.append_nil]
    exact apart_snoc_iff ledger apart
  | insert _ _ taking =>
    simp only [Apart, returned_snoc, taking, Event.returns, List.append_nil]
    exact iff_of_true apart trivial
  | @incrby tid _ before after _ _ _ _ _ _ taking taking' =>
    rw [Apart, taking] at apart
    have moved : (returned past ++ (before ++ tid :: after)).Perm (returned past ++ ([tid] ++ (before ++ after))) :=
      List.perm_middle.append_left _
    rw [Apart, returned_snoc, taking', Event.returns, List.append_assoc]
    exact iff_of_true (moved.nodup_iff.mp apart) trivial
  | @reject tid _ before after _ _ taking taking' =>
    rw [Apart, taking] at apart
    simp only [Apart, returned_snoc, taking', Event.returns, List.append_nil]
    exact iff_of_true (apart.sublist (((List.sublist_cons_self tid after).append_left before).append_left _)) trivial

/-- Tids that clash go on clashing until a call is rejected. -/
theorem Flow.apart_of {event : Event} (flow : Flow s event s') (kept : event ≠ .rejected)
    (apart : Apart (past ++ [event]) s') : Apart past s := by
  cases flow with
  | quiet _ _ silent _ _ taking =>
    rwa [Apart, returned_snoc, silent, List.append_nil, taking] at apart
  | registe _ _ _ taking =>
    simp only [Apart, returned_snoc, taking, Event.returns, List.append_nil, ← List.append_assoc] at apart
    exact apart.sublist (List.sublist_append_left _ _)
  | insert _ _ taking =>
    simpa only [Apart, returned_snoc, taking, Event.returns, List.append_nil] using apart
  | @incrby tid _ before after _ _ _ _ _ _ taking taking' =>
    rw [Apart, returned_snoc, taking', Event.returns, List.append_assoc] at apart
    have moved : (returned past ++ (before ++ tid :: after)).Perm (returned past ++ ([tid] ++ (before ++ after))) :=
      List.perm_middle.append_left _
    rw [Apart, taking]
    exact moved.nodup_iff.mpr apart
  | reject => exact (kept rfl).elim

theorem init_ledger (now : Int) : Ledger [] (init now) :=
  ⟨Redis.counter_empty, by simp [tids, init, returned], by simp [returned], by simp [init], by simp [init]⟩

/-- No command fails, and no body brings a tid. -/
def Regular : Event → Prop
  | .failed => False
  | .registe body => body.get "tid" = none
  | _ => True

abbrev RegularStep (env : AccountEnv) (s : State) (event : Event) (s' : State) : Prop :=
  Step env s event s' ∧ Regular event

section Runs

variable {now : Int} {history : History}

theorem RegularStep.flow {event : Event} (moved : RegularStep env s event s')
    (ledger : Ledger past s) : Flow s event s' ∧ Ledger (past ++ [event]) s' := by
  obtain ⟨taken, regular⟩ := moved
  have alive : event ≠ .failed := by
    rintro rfl
    exact regular
  have told : ∀ body, event = .registe body → body.get "tid" = none := by
    rintro body rfl
    exact regular
  have flow := taken.flow alive ledger
  exact ⟨flow, flow.ledger ledger (taken.untold alive told ledger)⟩

theorem run_ledger (run : Transition.Run (RegularStep env) (init now) history s) :
    Ledger (labels history) s :=
  Transition.Run.invariant (P := fun history s => Ledger (labels history) s) (init_ledger now)
    (fun _ _ _ _ _ ledger moved => by simpa using (moved.flow ledger).2) run

theorem run_apart (run : Transition.Run (RegularStep env) (init now) history s)
    (alone : ∀ x ∈ history, Isolated x.1 x.2) : Apart (labels history) s := by
  induction run with
  | nil => simp [Apart, returned, init]
  | @snoc history t u event before moved ih =>
    rw [List.forall_mem_append, List.forall_mem_singleton] at alone
    have ledger := run_ledger before
    rw [labels_append]
    exact ((moved.flow ledger).1.apart_iff ledger (ih alone.1)).mpr alone.2

/-- Where no call is rejected, the tids tell that all steps were isolated. -/
theorem run_isolated (run : Transition.Run (RegularStep env) (init now) history s)
    (kept : .rejected ∉ labels history) (distinct : Apart (labels history) s) :
    ∀ x ∈ history, Isolated x.1 x.2 := by
  induction run with
  | nil => simp
  | @snoc history t u event before moved ih =>
    rw [labels_append] at kept distinct
    simp only [labels_cons, labels_nil, List.mem_append, List.mem_singleton, not_or] at kept
    have ledger := run_ledger before
    have flow := (moved.flow ledger).1
    have apart := flow.apart_of (fun same => kept.2 same.symm) distinct
    rw [List.forall_mem_append, List.forall_mem_singleton]
    exact ⟨ih kept.1 apart, (flow.apart_iff ledger apart).mp distinct⟩

end Runs

/-! ### What registration hands out -/

/-- No tid is returned twice, no two users share one, and once every call has finished the pool has
reached them all. -/
structure HandedOut (past : List Event) (s : State) : Prop where
  returned : (returned past).Nodup
  users : (s.store.users.map Users.tid).Nodup
  pool : taken s.tasks = [] → ∃ v, pool s.store = some v ∧
    ∀ user ∈ s.store.users, ∃ n, user.tid = some (.num n) ∧ n ≤ v

theorem inserted_sublist (tasks : List Task) : (inserted tasks).Sublist (taken tasks) := by
  induction tasks with
  | nil => exact List.Sublist.refl _
  | cons task tasks ih =>
    have head : task.inserted.Sublist task.taken := by
      cases task with
      | registe tid hash body stage => cases stage <;> simp [Task.inserted, Task.taken]
      | _ => exact List.Sublist.refl _
    exact head.append ih

theorem Ledger.handedOut (ledger : Ledger past s) (apart : Apart past s) : HandedOut past s where
  returned := apart.sublist (List.sublist_append_left _ _)
  users := by
    have held := apart.sublist ((inserted_sublist s.tasks).append_left (AccountSystem.returned past))
    exact ledger.users.nodup_iff.mpr (held.map (Option.some_injective _))
  pool idle := by
    have none := inserted_sublist s.tasks
    rw [idle, List.sublist_nil] at none
    refine ⟨_, ledger.pool, fun user member => ?_⟩
    have listed : user.tid ∈ tids s.store.users := List.mem_map_of_mem member
    rw [ledger.users.mem_iff, none, List.append_nil] at listed
    obtain ⟨tid, out, owner⟩ := List.mem_map.mp listed
    obtain ⟨n, rfl, -, high⟩ := ledger.old tid out
    exact ⟨n, owner.symm, high⟩

/-- Registration hands out no tid twice in a run whose calls read the pool one after the other has
finished. Of the complete runs, in which no call is rejected, these are all that do. -/
theorem handedOut_iff {now : Int} {history : History} (run : Run env now history s)
    (alive : .failed ∉ labels history) (told : ∀ body, .registe body ∈ labels history → body.get "tid" = none) :
    ((∀ x ∈ history, Isolated x.1 x.2) → HandedOut (labels history) s) ∧
      (taken s.tasks = [] → .rejected ∉ labels history → HandedOut (labels history) s →
        ∀ x ∈ history, Isolated x.1 x.2) := by
  have regular : Transition.Run (RegularStep env) (init now) history s := by
    refine run.restrict (C := fun _ event => Regular event) fun x member => ?_
    have listed : x.2 ∈ labels history := List.mem_map_of_mem member
    cases same : x.2 with
    | failed => exact alive (same ▸ listed)
    | registe body => exact told body (same ▸ listed)
    | _ => trivial
  constructor
  · intro alone
    exact (run_ledger regular).handedOut (run_apart regular alone)
  · intro idle kept out
    refine run_isolated regular kept ?_
    rw [Apart, idle, List.append_nil]
    exact out.returned

def otherBody : Json :=
  .obj [("name", .str "Other"), ("password", .str "123456789Sd"), ("email", .str "other@no-reply.com"),
    ("description", .str ""), ("sex", .str "Other"), ("question", .obj [("Q1", .str "A1")]),
    ("birthday", .str "1711929600000")]

theorem otherBody_registered : ∃ t, registe (sampleEnv sampleSigner) "660a3b1e9c1f4e0012ab34cf"
    "660a3b1e9c1f4e0012ab34d0" otherBody (sampleRegistered 0) = (.ok (.num 2), t) := by
  have counts : pool (sampleRegistered 0) = some 1 := Redis.counter_set _ _ 1
  have read : registeGet (sampleEnv sampleSigner) otherBody (sampleRegistered 0) =
      .ok (.num 2, sampleSha256 "123456789Sd") := by
    rw [registeGet_eq counts]
    rfl
  have new : registeFind (sampleEnv sampleSigner) otherBody (sampleRegistered 0) = .ok () := rfl
  obtain ⟨inserted, insert⟩ : ∃ inserted, registeInsert (sampleEnv sampleSigner) "660a3b1e9c1f4e0012ab34cf" (.num 2)
      (sampleSha256 "123456789Sd") otherBody (sampleRegistered 0) = .ok inserted := ⟨_, rfl⟩
  have kept : pool (registeSave "660a3b1e9c1f4e0012ab34d0" (.num 2) otherBody inserted) = some 1 := by
    obtain ⟨user, -, -, rfl⟩ := registeInsert_ok (numbered_of_none rfl) insert
    exact counts
  obtain ⟨t, incrby, -⟩ := registeIncrby_ok kept
  exact ⟨t, by simp only [registe, read, new, insert, incrby]⟩

/-- Two registrations, one after the other. -/
theorem handedOut_sample : ∃ history s, Run (sampleEnv sampleSigner) 0 history s ∧
    returned (labels history) = [.num 1, .num 2] ∧ HandedOut (labels history) s := by
  obtain ⟨first, run, whole, alone⟩ := registe_alone (s := init 0) rfl (registe_sample sampleSigner 0)
  obtain ⟨t, done⟩ := otherBody_registered
  obtain ⟨later, again, whole', alone'⟩ := registe_alone (s := ⟨sampleRegistered 0, []⟩) rfl done
  have all : labels (first ++ later) = [.registe sampleBody, .internal, .internal, .internal, .returned (.num 1),
      .registe otherBody, .internal, .internal, .internal, .returned (.num 2)] := by
    rw [labels_append, whole, whole']
    rfl
  refine ⟨_, _, run.append again, by rw [all]; rfl, (handedOut_iff (run.append again) (by simp [all]) ?_).1 ?_⟩
  · rw [all]
    intro body member
    simp only [List.mem_cons, Event.registe.injEq, reduceCtorEq, List.not_mem_nil, or_false, false_or] at member
    rcases member with rfl | rfl <;> rfl
  · intro x member
    cases same : x.2 with
    | registe body =>
      have idle : x.1.tasks = [] := (List.mem_append.mp member).elim (alone x · body same) (alone' x · body same)
      show taken x.1.tasks = []
      rw [idle]
      rfl
    | _ => trivial

/-- Two registrations both read the empty pool, and both return tid 1. -/
theorem overlapping_registrations : ∃ history s, Run (sampleEnv sampleSigner) 0 history s ∧
    labels history = [.registe sampleBody, .registe otherBody, .internal, .internal, .internal, .returned (.num 1),
      .internal, .internal, .internal, .returned (.num 1)] ∧ s.tasks = [] ∧ ¬ HandedOut (labels history) s := by
  have start : Run (sampleEnv sampleSigner) 0 [] (init 0) := .nil
  have reading := (start.snoc (@Step.registe _ _ sampleBody (.num 1) (sampleSha256 "123456789Sd!") rfl)).snoc
    (@Step.registe _ _ otherBody (.num 1) (sampleSha256 "123456789Sd") rfl)
  have insert : registeInsert (sampleEnv sampleSigner) "660a3b1e9c1f4e0012ab34cd" (.num 1) (sampleSha256 "123456789Sd!")
      sampleBody (init 0).store = .ok { (init 0).store with users := (sampleRegistered 0).users } := rfl
  obtain ⟨first, finished, firstLabels⟩ := registe_finishes (t := sampleRegistered 0)
    (s := ⟨(init 0).store, [.registe (.num 1) (sampleSha256 "123456789Sd!") sampleBody .find,
      .registe (.num 1) (sampleSha256 "123456789Sd") otherBody .find]⟩) rfl rfl insert rfl
  obtain ⟨inserted, insert'⟩ : ∃ inserted, registeInsert (sampleEnv sampleSigner) "660a3b1e9c1f4e0012ab34cf" (.num 1)
      (sampleSha256 "123456789Sd") otherBody (sampleRegistered 0) = .ok inserted := ⟨_, rfl⟩
  have counts : pool (registeSave "660a3b1e9c1f4e0012ab34d0" (.num 1) otherBody inserted) = some 1 := by
    obtain ⟨user, -, -, rfl⟩ := registeInsert_ok (numbered_of_none rfl) insert'
    exact Redis.counter_set _ _ 1
  obtain ⟨t, incrby, -⟩ := registeIncrby_ok counts
  obtain ⟨second, ended, secondLabels⟩ := registe_finishes
    (s := ⟨sampleRegistered 0, [.registe (.num 1) (sampleSha256 "123456789Sd") otherBody .find]⟩) rfl rfl insert' incrby
  refine ⟨_, _, (reading.append finished).append ended, ?_, rfl, fun handed => ?_⟩
  · rw [labels_append, labels_append, firstLabels, secondLabels]
    rfl
  · have distinct := handed.returned
    rw [labels_append, labels_append, firstLabels, secondLabels] at distinct
    simp [returned, Event.returns] at distinct

end TacoBack.AccountSystem
