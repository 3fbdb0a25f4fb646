import TacoBack.Account.System
import TacoBack.BlackList.Service
import TacoBack.Friends.Blocking
import TacoBack.Friends.System
import TacoBack.Notice.Service

/-!
# The backend as one system

Every service of the backend on the one Redis and the one database that they share, with the calls of
each cut as in its own system. A step of one service finds what the steps of all the others left.
-/

namespace TacoBack

namespace NoticeService

/-- The two commands of `getNotice` on the key space of Redis, where `setNotice` leaves the notices. -/
def zrangeNotice (size : Int) (tid : String) (page : Int) (db : Redis.Db Stored) : Except Redis.ReplyError (List String) :=
  Redis.zrange db (NOTICE_NAMESPACE tid) ((page - 1) * size) (page * size)

def zremrangeNotice (size : Int) (tid : String) (page : Int) (db : Redis.Db Stored) :
    Except Redis.ReplyError (Redis.Db Stored) :=
  Redis.zremrangebyrank db (NOTICE_NAMESPACE tid) ((page - 1) * size) (page * size)

end NoticeService

namespace App

structure AppEnv where
  account : AccountEnv
  request : Env
  noticeSize : Int

structure Store where
  now : Int
  redis : Redis.Db Stored
  users : List Users
  questions : List Questions
  friends : List Friend
  blackList : List BlackList

structure State where
  store : Store
  account : List AccountSystem.Task
  friend : List FriendSystem.Task

def init (now : Int) : State where
  store := { now := now, redis := fun _ => none, users := [], questions := [], friends := [], blackList := [] }
  account := []
  friend := []

/-- What the account service has of the state, and what the friend and request services have. -/
def State.ofAccount (s : State) : AccountSystem.State where
  store := { now := s.store.now, redis := s.store.redis, users := s.store.users, questions := s.store.questions }
  tasks := s.account

def State.ofFriend (s : State) : FriendSystem.State where
  store := { now := s.store.now, redis := s.store.redis, friends := s.store.friends, users := s.store.users }
  tasks := s.friend

def State.putAccount (s : State) (t : AccountSystem.State) : State where
  store := { s.store with
    now := t.store.now, redis := t.store.redis, users := t.store.users, questions := t.store.questions }
  account := t.tasks
  friend := s.friend

def State.putFriend (s : State) (t : FriendSystem.State) : State where
  store := { s.store with now := t.store.now, redis := t.store.redis, friends := t.store.friends }
  account := s.account
  friend := t.tasks

def State.putRedis (s : State) (redis : Redis.Db Stored) : State where
  store := { s.store with redis := redis }
  account := s.account
  friend := s.friend

/-- `FriendsService.block` and `unblock`, on the black lists in Redis. -/
def performList (redis : Redis.Db Stored) : BlockSystem.Call → Redis.Db Stored × Except Failure Bool
  | .block source target => FriendsService.block BlackListCacheService.BLACK_LIST_CACHE source target redis
  | .unblock source target => FriendsService.unblock BlackListCacheService.BLACK_LIST_CACHE source target redis

/-- `notices` shows what `getNotice` has read; its second command follows in a step of its own. -/
inductive Event where
  | account (event : AccountSystem.Event)
  | friend (event : FriendSystem.Event)
  | profile
  | list (call : BlockSystem.Call) (result : Except Failure Bool)
  | blackList (call : BlackListSystem.Call)
  | setNotice (result : Except Redis.ReplyError Unit)
  | notices (tid : String) (read : Except Redis.ReplyError (List String))
  | taken (tid : String)

/-- One step of the backend. `updateProfile` may set any field of one user. Who the users are is up to the
account service alone, so the friend services have no step of their own that changes them. -/
inductive Step (env : AppEnv) (s : State) : Event → State → Prop where
  | account {event t} (taken : AccountSystem.Step env.account s.ofAccount event t) :
      Step env s (.account event) (s.putAccount t)
  | friend {event t} (taken : FriendSystem.Step env.request env.account.driver s.ofFriend event t)
      (own : ∀ users, event ≠ .users users) : Step env s (.friend event) (s.putFriend t)
  | profile {p : Users → Bool} {f : Users → Users} :
      Step env s .profile { s with store := { s.store with users := Mongo.updateOne p f s.store.users } }
  | list {call} :
      Step env s (.list call (performList s.store.redis call).2) (s.putRedis (performList s.store.redis call).1)
  | blackList {call} :
      Step env s (.blackList call)
        { s with store := { s.store with blackList := BlackListSystem.perform s.store.blackList call } }
  | setNotice {tid : Json} {text redis} (done : NoticeService.setNotice tid text s.store.redis = .ok redis) :
      Step env s (.setNotice (.ok ())) (s.putRedis redis)
  | unset {tid : Json} {text e} (refused : NoticeService.setNotice tid text s.store.redis = .error e) :
      Step env s (.setNotice (.error e)) s
  | notices {tid page} :
      Step env s (.notices tid (NoticeService.zrangeNotice env.noticeSize tid page s.store.redis)) s
  | taken {tid page redis}
      (done : NoticeService.zremrangeNotice env.noticeSize tid page s.store.redis = .ok redis) :
      Step env s (.taken tid) (s.putRedis redis)

abbrev History := List (State × Event)

abbrev Run (env : AppEnv) (now : Int) : History → State → Prop := Transition.Run (Step env) (init now)

/-! ### The services among each other -/

@[simp] theorem ofAccount_putAccount (s : State) (t : AccountSystem.State) : (s.putAccount t).ofAccount = t := rfl

@[simp] theorem ofFriend_init (now : Int) : (init now).ofFriend = FriendSystem.init now := rfl

@[simp] theorem ofAccount_init (now : Int) : (init now).ofAccount = AccountSystem.init now := rfl

end App

end TacoBack
