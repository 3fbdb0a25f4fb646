import TacoBack.Account.Effects
import TacoBack.App.System
import TacoBack.Lib.Keyspace

/-!
# Who writes which key

The account service writes the pool and the tokens, the request service the hashes and sorted sets of its
recipients, and nobody anything else.
-/

namespace TacoBack

namespace AccountSystem

open AccountService

variable {env : AccountEnv} {s t : State}

/-- What a step of the account service writes to Redis. -/
inductive Wrote (db : Redis.Db Stored) : Redis.Db Stored → Prop where
  | nothing : Wrote db db
  | set (kind : Kind) (tid : Option Json) (token : String) : Wrote db (Redis.set db (kind.key tid) token)
  | setnx (kind : Kind) (tid : Option Json) (ms : String) : Wrote db (Redis.setnx db (kind.key tid) ms)
  | del (tid : Option Json) : Wrote db (Redis.del db (TOKEN_NAMESPACE tid))
  | incrby {db'} (done : Redis.incrby db ACCOUNT_POOL_NAMESPACE 1 = .ok db') : Wrote db db'

theorem Effect.wrote {store store' : AccountStore} {task : Task} {event : Event} {rest : List Task}
    (effect : Effect env store task event store' rest) : Wrote store.redis store'.redis ∧ store'.now = store.now := by
  cases effect with
  | insert done =>
    obtain ⟨clock, redis⟩ := registeInsert_stores done
    exact ⟨redis ▸ .nothing, clock⟩
  | incrby done =>
    unfold registeIncrby at done
    split at done
    · cases done
    · rename_i raised
      obtain rfl := Except.ok.inj done
      exact ⟨.incrby raised, rfl⟩
  | @set issue renew => exact ⟨.set issue.kind issue.tid issue.token, rfl⟩
  | @setnx issue renew => exact ⟨.setnx issue.kind issue.tid _, rfl⟩
  | forgetPassword done =>
    obtain ⟨p, hash, -, rfl⟩ := forgetUpdate_ok done
    exact ⟨.nothing, rfl⟩
  | @del tid => exact ⟨.del tid, rfl⟩
  | _ => exact ⟨.nothing, rfl⟩

theorem Step.wrote {event : Event} (taken : Step env s event t) :
    Wrote s.store.redis t.store.redis ∧ s.store.now ≤ t.store.now := by
  cases taken with
  | tick later => exact ⟨.nothing, later⟩
  | changePassWord done =>
    obtain ⟨p, hash, -, rfl⟩ := changeUpdate_ok done
    exact ⟨.nothing, le_rfl⟩
  | run here effect => exact ⟨effect.wrote.1, effect.wrote.2.ge⟩
  | _ => exact ⟨.nothing, le_rfl⟩

end AccountSystem

namespace FriendSystem

open RequestService

variable {env : Env} {driver : Mongo.Driver} {s t : State}

/-- What a step of the friend and request services writes to Redis. -/
inductive Wrote (db : Redis.Db Stored) : Redis.Db Stored → Prop where
  | nothing : Wrote db db
  | hash (tid : String) (fields : AList fun _ : String => Stored) :
      Wrote db (Redis.putHash db (REQUEST_NAMESPACE tid) fields)
  | zset (tid : String) (scores : AList fun _ : String => Int) :
      Wrote db (Function.update db (REQUEST_HASH_KEY_NAMESPACE tid) (some (.zset scores)))

theorem removeRequest_wrote {tid rid : String} {db db' : Redis.Db Stored} (done : removeRequest tid rid db = .ok db') :
    Wrote db db' := by
  obtain ⟨fields, -, rfl⟩ := Redis.map_ok.mp done
  exact .hash tid _

theorem Effect.wrote {s store : Store} {task : Task} {event : Event} {rest : List Task}
    (effect : Effect env driver s task event store rest) : Wrote s.redis store.redis ∧ store.now = s.now := by
  cases effect with
  | hset _ _ done =>
    obtain ⟨fields, -, rfl⟩ := Redis.map_ok.mp done
    exact ⟨.hash _ _, rfl⟩
  | hsetnx done =>
    obtain ⟨fields, -, wrote⟩ := Redis.map_ok.mp done
    split at wrote
    · exact ⟨wrote ▸ .nothing, rfl⟩
    · exact ⟨wrote ▸ .hash _ _, rfl⟩
  | zadd done =>
    obtain ⟨scores, -, rfl⟩ := Redis.map_ok.mp done
    exact ⟨.zset _ _, rfl⟩
  | hdel _ _ done | remove done => exact ⟨removeRequest_wrote done, rfl⟩
  | _ => exact ⟨.nothing, rfl⟩

theorem Step.wrote {event : Event} (taken : Step env driver s event t) :
    Wrote s.store.redis t.store.redis ∧ s.store.now ≤ t.store.now := by
  cases taken with
  | tick later => exact ⟨.nothing, later⟩
  | removeRequest done => exact ⟨removeRequest_wrote done, le_rfl⟩
  | run here effect => exact ⟨effect.wrote.1, effect.wrote.2.ge⟩
  | _ => exact ⟨.nothing, le_rfl⟩

end FriendSystem

namespace App

open AccountService RequestService NoticeService BlackListCacheService

def startsWith (name key : String) : Bool := name.toList.isPrefixOf key.toList

/-- The keys of the account service, and those of the request service. -/
def accountKey (key : String) : Bool := key == ACCOUNT_POOL_NAMESPACE || startsWith "TOKEN:" key

def requestKey (key : String) : Bool := startsWith "request:" key

variable {key : String} {c : Char}

@[simp] theorem startsWith_append (name rest : String) : startsWith name (name ++ rest) = true := by
  simp [startsWith]

theorem startsWith_head {name : String} (own : startsWith name key = true) (first : name.toList.head? = some c) :
    key.toList.head? = some c := by
  obtain ⟨rest, whole⟩ := List.isPrefixOf_iff_prefix.mp own
  rw [← whole, List.head?_append_of_ne_nil _ (by rintro none; rw [none] at first; cases first)]
  exact first

theorem accountKey_head (own : accountKey key = true) :
    key.toList.head? = some 'A' ∨ key.toList.head? = some 'T' := by
  rw [accountKey, Bool.or_eq_true, beq_iff_eq] at own
  rcases own with rfl | token
  · exact .inl rfl
  · exact .inr (startsWith_head token rfl)

theorem requestKey_head (own : requestKey key = true) : key.toList.head? = some 'r' := startsWith_head own rfl

/-- No key belongs to both services. -/
theorem keys_apart (own : accountKey key = true) : requestKey key = false := by
  rw [← Bool.not_eq_true]
  intro other
  have second := requestKey_head other
  rcases accountKey_head own with first | first <;> rw [first] at second <;> cases second

@[simp] theorem requestKey_namespace (tid : String) : requestKey (REQUEST_NAMESPACE tid) = true :=
  startsWith_append _ _

@[simp] theorem requestKey_split (tid : String) : requestKey (REQUEST_HASH_KEY_NAMESPACE tid) = true := by
  rw [split_eq_namespace]
  exact requestKey_namespace _

theorem accountKey_of_request (own : requestKey key = true) : accountKey key = false := by
  rw [← Bool.not_eq_true]
  intro other
  rw [keys_apart other] at own
  cases own

@[simp] theorem accountKey_namespace (tid : String) : accountKey (REQUEST_NAMESPACE tid) = false :=
  accountKey_of_request (requestKey_namespace tid)

@[simp] theorem accountKey_split (tid : String) : accountKey (REQUEST_HASH_KEY_NAMESPACE tid) = false :=
  accountKey_of_request (requestKey_split tid)

@[simp] theorem accountKey_pool : accountKey ACCOUNT_POOL_NAMESPACE = true := by
  simp [accountKey]

theorem key_eq (kind : AccountSystem.Kind) (tid : Option Json) : ∃ rest, kind.key tid = "TOKEN:" ++ rest := by
  cases kind with
  | access => exact ⟨_, rfl⟩
  | refresh => exact ⟨_, REFRESH_TOKEN_NS_eq tid⟩

@[simp] theorem accountKey_key (kind : AccountSystem.Kind) (tid : Option Json) : accountKey (kind.key tid) = true := by
  obtain ⟨rest, same⟩ := key_eq kind tid
  rw [same, accountKey, startsWith_append, Bool.or_true]

@[simp] theorem accountKey_token (tid : Option Json) : accountKey (TOKEN_NAMESPACE tid) = true :=
  accountKey_key .access tid

/-- The keys of neither service: those of the notices, the black lists and the caches. -/
def otherKey (key : String) : Bool := !accountKey key && !requestKey key

theorem otherKey_iff : otherKey key = true ↔ accountKey key = false ∧ requestKey key = false := by
  simp [otherKey]

theorem otherKey_of_head (first : key.toList.head? = some c) (new : c ∉ ['A', 'T', 'r']) : otherKey key = true := by
  simp only [List.mem_cons, List.not_mem_nil, or_false, not_or] at new
  rw [otherKey_iff, ← Bool.not_eq_true, ← Bool.not_eq_true]
  constructor
  · intro own
    rcases accountKey_head own with same | same <;> rw [first] at same
    · exact new.1 (Option.some.inj same)
    · exact new.2.1 (Option.some.inj same)
  · intro own
    exact new.2.2 (Option.some.inj (first.symm.trans (requestKey_head own)))

theorem otherKey_notice (tid : String) : otherKey (NOTICE_NAMESPACE tid) = true :=
  otherKey_of_head (c := 'N') (by simp [NOTICE_NAMESPACE]) (by decide)

theorem otherKey_list (source : String) : otherKey (useNameSpace BLACK_LIST_CACHE [source]) = true :=
  otherKey_of_head (c := 'B') (by simp [useNameSpace, BLACK_LIST_CACHE]) (by decide)

end App

theorem AccountSystem.Wrote.outside {db db' : Redis.Db Stored} (wrote : Wrote db db') {key : String}
    (outside : App.accountKey key = false) : db' key = db key := by
  have apart : ∀ own, App.accountKey own = true → key ≠ own := by
    rintro own mine rfl
    rw [outside] at mine
    cases mine
  cases wrote with
  | nothing => rfl
  | set kind tid token => exact Redis.set_of_ne db token (apart _ (App.accountKey_key kind tid))
  | setnx kind tid ms => exact Redis.setnx_of_ne db ms (apart _ (App.accountKey_key kind tid))
  | del tid => exact Redis.del_of_ne db (apart _ (App.accountKey_token tid))
  | incrby done => exact (Redis.local_incrby _ 1).of_ne done (apart _ App.accountKey_pool)

theorem FriendSystem.Wrote.outside {db db' : Redis.Db Stored} (wrote : Wrote db db') {key : String}
    (outside : App.requestKey key = false) : db' key = db key := by
  have apart : ∀ own, App.requestKey own = true → key ≠ own := by
    rintro own mine rfl
    rw [outside] at mine
    cases mine
  cases wrote with
  | nothing => rfl
  | hash tid fields => exact Redis.putHash_of_ne db fields (apart _ (App.requestKey_namespace tid))
  | zset tid scores => exact Function.update_of_ne (apart _ (App.requestKey_split tid)) _ _

namespace App

open NoticeService BlackListCacheService

variable {env : AppEnv} {s t : State} {event : Event}

/-- Calls on black lists and notices write keys of their own. -/
theorem performList_outside (db : Redis.Db Stored) (call : BlockSystem.Call) {key : String}
    (outside : otherKey key = false) : (performList db call).1 key = db key := by
  have apart : ∀ source, key ≠ useNameSpace BLACK_LIST_CACHE [source] := by
    rintro source rfl
    rw [otherKey_list] at outside
    cases outside
  cases call with
  | block source target => rfl
  | unblock source target =>
    simp only [performList, FriendsService.unblock, inBlackList_eq_true, if_true]
    cases done : removeTarget BLACK_LIST_CACHE source target db with
    | error e => rfl
    | ok removed => exact (Redis.local_srem _ target).of_ne done (apart source)

theorem zremrangeNotice_outside {size page : Int} {tid : String} {db db' : Redis.Db Stored}
    (done : zremrangeNotice size tid page db = .ok db') {key : String} (outside : otherKey key = false) :
    db' key = db key := by
  obtain ⟨scores, -, rfl⟩ := Redis.map_ok.mp done
  refine Function.update_of_ne ?_ _ _
  rintro rfl
  rw [otherKey_notice] at outside
  cases outside

/-- What a step of the backend writes to Redis, and under whose keys. -/
theorem Step.wrote (taken : Step env s event t) :
    (∃ e, event = .account e ∧ AccountSystem.Wrote s.store.redis t.store.redis) ∨
    (∃ e, event = .friend e ∧ FriendSystem.Wrote s.store.redis t.store.redis) ∨
    ∀ key, otherKey key = false → t.store.redis key = s.store.redis key := by
  cases taken with
  | account taken => exact .inl ⟨_, rfl, taken.wrote.1⟩
  | friend taken => exact .inr (.inl ⟨_, rfl, taken.wrote.1⟩)
  | list => exact .inr (.inr fun key => performList_outside s.store.redis _)
  | setNotice done => cases done
  | taken done => exact .inr (.inr fun key => zremrangeNotice_outside done)
  | _ => exact .inr (.inr fun _ _ => rfl)

end App

end TacoBack
