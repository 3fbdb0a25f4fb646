import TacoBack.Account.Session
import TacoBack.App.Keys
import TacoBack.Friends.Progress

/-!
# A service among the others

What the backend does with the keys of one service, that service can do alone: the calls of the others come
and go without its noticing.
-/

namespace TacoBack

open Transition

namespace FriendSystem

open RequestService App

variable {env : Env} {driver : Mongo.Driver} {s t : State}

def Store.restrict (s : Store) : Store := { s with redis := Redis.restrict requestKey s.redis }

def State.restrict (s : State) : State := { s with store := s.store.restrict }

theorem callRead_restrict (tid rid : String) (db : Redis.Db Stored) :
    callRead tid rid (Redis.restrict requestKey db) = callRead tid rid db := by
  have same : getReuqest tid rid (Redis.restrict requestKey db) = getReuqest tid rid db :=
    Redis.hget_congr rid (Redis.restrict_own (requestKey_namespace tid))
  rw [callRead, callRead, same]

theorem removeRequest_restrict {tid rid : String} {db db' : Redis.Db Stored} (done : removeRequest tid rid db = .ok db') :
    removeRequest tid rid (Redis.restrict requestKey db) = .ok (Redis.restrict requestKey db') :=
  (Redis.local_hdel _ rid).restrict_ok (requestKey_namespace tid) done

/-- A step of a task finds no other keys than its own. -/
theorem Effect.restrict {s store : Store} {task : Task} {event : Event} {rest : List Task}
    (effect : Effect env driver s task event store rest) :
    Effect env driver s.restrict task event store.restrict rest := by
  cases effect with
  | add => exact .add
  | call sent => exact .call sent
  | hset bound carries done =>
    exact .hset bound carries ((Redis.local_hset _ _ _).restrict_ok (requestKey_namespace _) done)
  | hsetnx done => exact .hsetnx ((Redis.local_hsetnx _ _ _).restrict_ok (requestKey_namespace _) done)
  | zadd done => exact .zadd ((Redis.local_zadd _ _ _).restrict_ok (requestKey_split _) done)
  | hdel bound carries done => exact .hdel bound carries (removeRequest_restrict done)
  | accept bound carries => exact .accept bound carries
  | «open» fresh => exact .open fresh
  | saveFirst => exact .saveFirst
  | saveSecond => exact .saveSecond
  | remove done => exact .remove (removeRequest_restrict done)
  | commit => exact .commit
  | reply => exact .reply
  | updateTag => exact .updateTag
  | findUser found => exact .findUser found
  | delete => exact .delete
  | fail left => exact .fail left

theorem Step.restrict {event : Event} (taken : Step env driver s event t) :
    Step env driver s.restrict event t.restrict := by
  cases taken with
  | tick later => exact .tick later
  | users => exact .users
  | add new => exact .add new
  | call found => exact .call ((callRead_restrict _ _ _).trans found)
  | removeRequest done => exact .removeRequest (removeRequest_restrict done)
  | updateTag has => exact .updateTag has
  | remove has => exact .remove has
  | run here effect => exact .run here effect.restrict

/-- The clock goes on and the users change while the services do nothing. -/
theorem drift (later : s.store.now ≤ t.store.now) (redis : t.store.redis = s.store.redis)
    (friends : t.store.friends = s.store.friends) (tasks : t.tasks = s.tasks) :
    Transition.Run (Step env driver) s [(s, .internal), ({ s with store := { s.store with now := t.store.now } },
      .users t.store.users)] t := by
  obtain ⟨⟨now, db, edges, users⟩, waiting⟩ := s
  obtain ⟨⟨now', db', edges', users'⟩, waiting'⟩ := t
  obtain rfl : db' = db := redis
  obtain rfl : edges' = edges := friends
  obtain rfl : waiting' = waiting := tasks
  exact (Run.single (.tick later)).snoc .users

end FriendSystem

namespace AccountSystem

open AccountService App

variable {env : AccountEnv} {s t : State}

/-- A store like `s` with other keys in Redis. -/
def onRedis (f : Redis.Db Stored → Redis.Db Stored) (s : AccountStore) : AccountStore := { s with redis := f s.redis }

def restrictStore : AccountStore → AccountStore := onRedis (Redis.restrict accountKey)

def State.restrict (s : State) : State := { s with store := restrictStore s.store }

theorem registeInsert_onRedis (f : Redis.Db Stored → Redis.Db Stored) (id hash : String) (tid body : Json)
    (s : AccountStore) :
    registeInsert env id tid hash body (onRedis f s) = (registeInsert env id tid hash body s).map (onRedis f) := by
  unfold registeInsert
  cases userDocument env id tid hash body <;> rfl

theorem changeUpdate_onRedis (f : Redis.Db Stored → Redis.Db Stored) (tid old_pwd new_pwd : Option Json)
    (s : AccountStore) : changeUpdate env tid old_pwd new_pwd (onRedis f s) =
      (changeUpdate env tid old_pwd new_pwd s).map fun result => (result.1, onRedis f result.2) := by
  unfold changeUpdate
  cases digest env new_pwd with
  | error e => rfl
  | ok hash =>
    cases env.driver.mixedFilter (tid.getD .null) with
    | none => rfl
    | some p => cases env.driver.stringFilter (old_pwd.getD .null) <;> rfl

theorem forgetUpdate_onRedis (f : Redis.Db Stored → Redis.Db Stored) (tid new_pwd : Option Json) (s : AccountStore) :
    forgetUpdate env tid new_pwd (onRedis f s) =
      (forgetUpdate env tid new_pwd s).map fun result => (result.1, onRedis f result.2) := by
  unfold forgetUpdate
  cases digest env new_pwd with
  | error e => rfl
  | ok hash => cases env.driver.mixedFilter (tid.getD .null) <;> rfl

theorem registeGet_restrict (body : Json) (s : AccountStore) :
    registeGet env body (restrictStore s) = registeGet env body s := by
  have same : Redis.get (restrictStore s).redis ACCOUNT_POOL_NAMESPACE = Redis.get s.redis ACCOUNT_POOL_NAMESPACE :=
    Redis.get_restrict accountKey_pool
  rw [registeGet, registeGet, same]

theorem registeIncrby_restrict {s counted : AccountStore} (done : registeIncrby s = .ok counted) :
    registeIncrby (restrictStore s) = .ok (restrictStore counted) := by
  unfold registeIncrby at done ⊢
  split at done
  · cases done
  · rename_i raised
    obtain rfl := Except.ok.inj done
    have own : Redis.incrby (restrictStore s).redis ACCOUNT_POOL_NAMESPACE 1 = _ :=
      (Redis.local_incrby _ 1).restrict_ok accountKey_pool raised
    rw [own]
    rfl

theorem Effect.restrict {store store' : AccountStore} {task : Task} {event : Event} {rest : List Task}
    (effect : Effect env store task event store' rest) :
    Effect env (restrictStore store) task event (restrictStore store') rest := by
  cases effect with
  | find new => exact .find new
  | known thrown => exact .known thrown
  | insert done => exact .insert ((registeInsert_onRedis _ _ _ _ _ _).trans (by rw [done]; rfl))
  | invalid thrown => exact .invalid ((registeInsert_onRedis _ _ _ _ _ _).trans (by rw [thrown]; rfl))
  | save id => exact .save id
  | incrby done => exact .incrby (registeIncrby_restrict done)
  | sign signed => exact .sign signed
  | refuse unsigned => exact .refuse unsigned
  | @set issue renew =>
    have own := @Redis.set_restrict _ accountKey store.redis _ (accountKey_key issue.kind issue.tid) issue.token
    show Effect env _ _ _ { store with redis := Redis.restrict accountKey _ } _
    rw [own]
    exact .set
  | @setnx issue renew =>
    have own := @Redis.setnx_restrict _ accountKey store.redis _ (accountKey_key issue.kind issue.tid) (issue.kind.expire env).ms
    show Effect env _ _ _ { store with redis := Redis.restrict accountKey _ } _
    rw [own]
    exact .setnx
  | forgetPassword done => exact .forgetPassword ((forgetUpdate_onRedis _ _ _ _).trans (by rw [done]; rfl))
  | throw thrown => exact .throw ((forgetUpdate_onRedis _ _ _ _).trans (by rw [thrown]; rfl))
  | @del tid =>
    have own : restrictStore (delToken tid store) = delToken tid (restrictStore store) := by
      simp only [restrictStore, onRedis, delToken, Redis.del_restrict (accountKey_token tid)]
    rw [own]
    exact .del
  | fail => exact .fail

theorem Step.restrict {event : Event} (taken : Step env s event t) : Step env s.restrict event t.restrict := by
  cases taken with
  | tick later => exact .tick later
  | registe read => exact .registe ((registeGet_restrict _ _).trans read)
  | login hashed found => exact .login hashed found
  | refresh read => exact .refresh read
  | changePassWord done => exact .changePassWord ((changeUpdate_onRedis _ _ _ _ _).trans (by rw [done]; rfl))
  | forgetPassword accepted => exact .forgetPassword accepted
  | run here effect => exact .run here effect.restrict

/-- What another service writes stays outside the keys of this one. -/
theorem drift (later : s.store.now ≤ t.store.now) (redis : t.store.redis = s.store.redis)
    (users : t.store.users = s.store.users) (questions : t.store.questions = s.store.questions)
    (tasks : t.tasks = s.tasks) : Step env s .internal t := by
  obtain ⟨⟨now, db, people, asked⟩, waiting⟩ := s
  obtain ⟨⟨now', db', people', asked'⟩, waiting'⟩ := t
  obtain rfl : db' = db := redis
  obtain rfl : people' = people := users
  obtain rfl : asked' = asked := questions
  obtain rfl : waiting' = waiting := tasks
  exact .tick later

end AccountSystem

namespace App

variable {env : AppEnv} {s t : State} {event : Event} {now : Int} {history : History}

/-- What a step of a service shows. A change of users is not the friend services' own. -/
def shownFriend : FriendSystem.Event → List FriendSystem.Event
  | .internal | .users _ => []
  | event => [event]

def shownAccount : AccountSystem.Event → List AccountSystem.Event
  | .internal => []
  | event => [event]

def Event.ofFriend : Event → List FriendSystem.Event
  | .friend event => shownFriend event
  | _ => []

def Event.ofAccount : Event → List AccountSystem.Event
  | .account event => shownAccount event
  | _ => []

theorem users_kept {env : Env} {driver : Mongo.Driver} {s t : FriendSystem.State} {event : FriendSystem.Event}
    (taken : FriendSystem.Step env driver s event t) (own : ∀ users, event ≠ .users users) :
    t.store.users = s.store.users := by
  cases taken with
  | users => exact (own _ rfl).elim
  | run here effect => cases effect <;> rfl
  | _ => rfl

theorem Step.clock (taken : Step env s event t) : s.store.now ≤ t.store.now := by
  cases taken with
  | account taken => exact taken.wrote.2
  | friend taken => exact taken.wrote.2
  | _ => exact le_rfl

theorem restrict_request (taken : Step env s event t) (other : ∀ e, event ≠ .friend e) :
    t.ofFriend.restrict.store.redis = s.ofFriend.restrict.store.redis := by
  refine Redis.restrict_congr fun key own => ?_
  rcases taken.wrote with ⟨e, -, wrote⟩ | ⟨e, same, -⟩ | rest
  · exact wrote.outside (accountKey_of_request own)
  · exact (other e same).elim
  · exact rest key (by simp [otherKey, own])

theorem restrict_account (taken : Step env s event t) (other : ∀ e, event ≠ .account e) :
    t.ofAccount.restrict.store.redis = s.ofAccount.restrict.store.redis := by
  refine Redis.restrict_congr fun key own => ?_
  rcases taken.wrote with ⟨e, same, -⟩ | ⟨e, -, wrote⟩ | rest
  · exact (other e same).elim
  · exact wrote.outside (keys_apart own)
  · exact rest key (by simp [otherKey, own])

/-- Each step of the backend is one of the friend services, or to them a matter of time and users. -/
theorem Step.ofFriend (taken : Step env s event t) :
    ∃ k, Transition.Run (FriendSystem.Step env.request env.account.driver) s.ofFriend.restrict k t.ofFriend.restrict ∧
      (labels k).flatMap shownFriend = event.ofFriend := by
  have quiet : (∀ e, event ≠ .friend e) → t.store.friends = s.store.friends → t.friend = s.friend →
      ∃ k, Transition.Run (FriendSystem.Step env.request env.account.driver) s.ofFriend.restrict k t.ofFriend.restrict ∧
        (labels k).flatMap shownFriend = [] := by
    intro other friends tasks
    exact ⟨_, FriendSystem.drift taken.clock (restrict_request taken other) friends tasks, rfl⟩
  cases taken with
  | @friend event u taken own =>
    have same : (s.putFriend u).ofFriend = u := by
      have users := users_kept taken own
      obtain ⟨⟨clock, db, edges, people⟩, tasks⟩ := u
      obtain rfl : people = s.store.users := users
      rfl
    rw [same]
    refine ⟨_, Run.single taken.restrict, ?_⟩
    simp [Event.ofFriend]
  | _ => exact quiet (by simp) rfl rfl

theorem Step.ofAccount (taken : Step env s event t) (untouched : event ≠ .profile) :
    ∃ k, Transition.Run (AccountSystem.Step env.account) s.ofAccount.restrict k t.ofAccount.restrict ∧
      (labels k).flatMap shownAccount = event.ofAccount := by
  have quiet : (∀ e, event ≠ .account e) → t.store.users = s.store.users → t.store.questions = s.store.questions →
      t.account = s.account →
      ∃ k, Transition.Run (AccountSystem.Step env.account) s.ofAccount.restrict k t.ofAccount.restrict ∧
        (labels k).flatMap shownAccount = [] := by
    intro other users questions tasks
    exact ⟨_, Run.single (AccountSystem.drift taken.clock (restrict_account taken other) users questions tasks), rfl⟩
  cases taken with
  | account taken =>
    refine ⟨_, Run.single taken.restrict, ?_⟩
    simp [Event.ofAccount]
  | profile => exact (untouched rfl).elim
  | _ => exact quiet (by simp) rfl rfl rfl

/-! ### What a service can do alone, it can do here -/

theorem lift_account {h : AccountSystem.History} {u : AccountSystem.State}
    (alone : Transition.Run (AccountSystem.Step env.account) s.ofAccount h u) :
    ∃ history, Transition.Run (Step env) s history (s.putAccount u) ∧ labels history = (labels h).map .account := by
  induction alone with
  | nil => exact ⟨[], .nil, rfl⟩
  | snoc _ taken ih =>
    obtain ⟨history, run, same⟩ := ih
    exact ⟨_, run.snoc (.account taken), by simp [same]⟩

theorem lift_friend {h : FriendSystem.History} {u : FriendSystem.State}
    (alone : Transition.Run (FriendSystem.Step env.request env.account.driver) s.ofFriend h u)
    (own : ∀ x ∈ h, ∀ users, x.2 ≠ .users users) :
    ∃ history, Transition.Run (Step env) s history (s.putFriend u) ∧ labels history = (labels h).map .friend ∧
      (s.putFriend u).ofFriend = u := by
  induction alone with
  | nil => exact ⟨[], .nil, rfl, rfl⟩
  | @snoc h t u event before taken ih =>
    rw [List.forall_mem_append, List.forall_mem_singleton] at own
    obtain ⟨history, run, same, still⟩ := ih own.1
    have users := users_kept taken own.2
    have next : FriendSystem.Step env.request env.account.driver (s.putFriend t).ofFriend event u := still ▸ taken
    refine ⟨_, run.snoc (.friend next own.2), by simp [same], ?_⟩
    have kept : u.store.users = s.store.users := users.trans (congrArg (fun t => t.store.users) still).symm
    obtain ⟨⟨clock, db, edges, people⟩, tasks⟩ := u
    obtain rfl : people = s.store.users := kept
    rfl

def sampleAppEnv : AppEnv where
  account := AccountService.sampleEnv AccountSystem.sampleJwt
  request := RequestService.sampleEnv
  noticeSize := 10

/-- User 1 registers and logs in, and then sends a request to user 2. -/
theorem backend_run : ∃ history s, Run sampleAppEnv 0 history s ∧ .profile ∉ labels history ∧
    ∃ rid, (labels history).flatMap Event.ofFriend = [.add "1" "2" 0, .hset "2" rid] := by
  obtain ⟨session, entering, sessionLabels⟩ := AccountSystem.session_run
  obtain ⟨first, registered, accountLabels⟩ := @lift_account sampleAppEnv (init 0) _ _ entering
  let entered := (init 0).putAccount ⟨AccountSystem.sampleLoggedIn, []⟩
  have hash : Redis.hashAt entered.ofFriend.store.redis (RequestService.REQUEST_NAMESPACE "2") = .ok ∅ := rfl
  have zset : Redis.zsetAt entered.ofFriend.store.redis (RequestService.REQUEST_HASH_KEY_NAMESPACE "2") = .ok ∅ := rfl
  obtain ⟨adding, redis, files, addLabels, -⟩ := @FriendSystem.add_files sampleAppEnv.request
    sampleAppEnv.account.driver entered.ofFriend "1" FriendSystem.sampleAdd rfl rfl _ _ hash zset
  have own : ∀ x ∈ adding, ∀ users, x.2 ≠ .users users := by
    intro x member users same
    have listed := List.mem_map_of_mem (f := Prod.snd) member
    rw [same] at listed
    have whole : .users users ∈ labels adding := listed
    rw [addLabels] at whole
    simp at whole
  obtain ⟨second, sent, friendLabels, -⟩ := lift_friend files own
  refine ⟨_, _, registered.append sent, ?_, ?_⟩
  · rw [labels_append, accountLabels, friendLabels]
    simp
  · rw [labels_append, accountLabels, friendLabels, sessionLabels, addLabels]
    exact ⟨_, rfl⟩

/-! ### What the backend does, its services do -/

/-- Whatever the rest of the backend does, the friend services go through a run of their own. -/
theorem run_ofFriend (run : Run env now history s) :
    ∃ h, FriendSystem.Run env.request env.account.driver now h s.ofFriend.restrict ∧
      (labels h).flatMap shownFriend = (labels history).flatMap Event.ofFriend := by
  have start : (init now).ofFriend.restrict = FriendSystem.init now := by
    simp only [ofFriend_init, FriendSystem.State.restrict, FriendSystem.Store.restrict, FriendSystem.init,
      Redis.restrict_empty]
  obtain ⟨h, own, shown⟩ := Run.simulate (C := fun _ => True) (fun s : State => s.ofFriend.restrict) Event.ofFriend
    shownFriend (fun _ _ _ _ _ taken _ => taken.ofFriend) run (fun _ _ => trivial)
  rw [start] at own
  exact ⟨h, own, shown⟩

theorem run_ofFriend_sample : ∃ history s h, Run sampleAppEnv 0 history s ∧
    FriendSystem.Run sampleAppEnv.request sampleAppEnv.account.driver 0 h s.ofFriend.restrict ∧
    (labels h).flatMap shownFriend = (labels history).flatMap Event.ofFriend := by
  obtain ⟨history, s, run, -⟩ := backend_run
  obtain ⟨h, own, shown⟩ := run_ofFriend run
  exact ⟨history, s, h, run, own, shown⟩

/-- So does the account service, as long as no profile is updated. -/
theorem run_ofAccount (run : Run env now history s) (untouched : .profile ∉ labels history) :
    ∃ h, AccountSystem.Run env.account now h s.ofAccount.restrict ∧
      (labels h).flatMap shownAccount = (labels history).flatMap Event.ofAccount := by
  have start : (init now).ofAccount.restrict = AccountSystem.init now := by
    simp only [ofAccount_init, AccountSystem.State.restrict, AccountSystem.restrictStore, AccountSystem.onRedis,
      AccountSystem.init, Redis.restrict_empty]
  have meets : ∀ x ∈ history, x.2 ≠ .profile := by
    rintro x member same
    exact untouched (same ▸ List.mem_map_of_mem (f := Prod.snd) member)
  obtain ⟨h, own, shown⟩ := Run.simulate (C := fun event => event ≠ .profile) (fun s : State => s.ofAccount.restrict)
    Event.ofAccount shownAccount (fun _ _ _ _ _ taken other => taken.ofAccount other) run meets
  rw [start] at own
  exact ⟨h, own, shown⟩

theorem run_ofAccount_sample : ∃ history s h, Run sampleAppEnv 0 history s ∧
    AccountSystem.Run sampleAppEnv.account 0 h s.ofAccount.restrict ∧
    (labels h).flatMap shownAccount = (labels history).flatMap Event.ofAccount := by
  obtain ⟨history, s, run, untouched, -⟩ := backend_run
  obtain ⟨h, own, shown⟩ := run_ofAccount run untouched
  exact ⟨history, s, h, run, own, shown⟩

end App

end TacoBack
