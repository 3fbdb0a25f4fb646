import TacoBack.App.Projection
import TacoBack.Jwt.Readers
import TacoBack.Lib.Counter
import TacoBack.Request.Store

/-!
# What the keys hold

In every state of the backend each key holds a value of the type its name stands for. Notices, black lists and
the white list of tokens have names of their own, under which nothing is ever stored.
-/

namespace TacoBack.App

open AccountService RequestService NoticeService BlackListCacheService Transition

variable {env : AppEnv} {s t : State} {event : Event} {now : Int} {history : History}

inductive Allowed : String → Redis.Value Stored → Prop where
  | pool {text : String} {n : Int} (counts : text.toInt? = some n) (positive : 0 < n) :
      Allowed ACCOUNT_POOL_NAMESPACE (.string text)
  | token (kind : AccountSystem.Kind) (tid : Option Json) (text : String) : Allowed (kind.key tid) (.string text)
  | hash (tid : String) (fields : AList fun _ : String => Stored) : Allowed (REQUEST_NAMESPACE tid) (.hash fields)
  | zset (tid : String) (scores : AList fun _ : String => Int) :
      Allowed (REQUEST_HASH_KEY_NAMESPACE tid) (.zset scores)

theorem allowed_pool {key : String} {value : Redis.Value Stored} (allowed : Allowed key value)
    (here : key = ACCOUNT_POOL_NAMESPACE) : ∃ text n, value = .string text ∧ text.toInt? = some n ∧ 0 < n := by
  cases allowed with
  | pool counts positive => exact ⟨_, _, rfl, counts, positive⟩
  | token kind tid text =>
    obtain ⟨rest, same⟩ := key_eq kind tid
    exact (token_ne_pool rest (same.symm.trans here)).elim
  | hash tid fields =>
    have other := accountKey_pool
    rw [← here, accountKey_namespace] at other
    cases other
  | zset tid scores =>
    have other := accountKey_pool
    rw [← here, accountKey_split] at other
    cases other

theorem toInt?_toString (n : Int) : (toString n).toInt? = some n := by
  have counted := Redis.counter_set (fun _ => none : Redis.Db Unit) "" n
  rwa [Redis.counter, Redis.get_set] at counted

theorem incrby_typed {db db' : Redis.Db Stored} (typed : Redis.Typed Allowed db)
    (done : Redis.incrby db ACCOUNT_POOL_NAMESPACE 1 = .ok db') : Redis.Typed Allowed db' := by
  unfold Redis.incrby at done
  split at done
  · cases done
  · obtain rfl := Except.ok.inj done
    exact typed.set (.pool (toInt?_toString 1) (by decide))
  · rename_i text read
    split at done
    · rename_i old parsed
      obtain rfl := Except.ok.inj done
      have positive : 0 < old := by
        cases held : db ACCOUNT_POOL_NAMESPACE with
        | none => simp [Redis.get, held] at read
        | some value =>
          obtain ⟨text', n, rfl, counts, more⟩ := allowed_pool (typed _ _ held) rfl
          simp only [Redis.get, held, Except.ok.injEq, Option.some.injEq] at read
          rw [read, parsed] at counts
          rwa [Option.some.inj counts]
      exact typed.set (.pool (toInt?_toString _) (by omega))
    · cases done

theorem account_typed {db db' : Redis.Db Stored} (wrote : AccountSystem.Wrote db db')
    (typed : Redis.Typed Allowed db) : Redis.Typed Allowed db' := by
  cases wrote with
  | nothing => exact typed
  | set kind tid token => exact typed.set (.token kind tid token)
  | setnx kind tid ms => exact typed.setnx (.token kind tid ms)
  | del tid => exact typed.del
  | incrby done => exact incrby_typed typed done

theorem friend_typed {db db' : Redis.Db Stored} (wrote : FriendSystem.Wrote db db')
    (typed : Redis.Typed Allowed db) : Redis.Typed Allowed db' := by
  cases wrote with
  | nothing => exact typed
  | hash tid fields => exact typed.putHash (.hash tid fields)
  | zset tid scores =>
    refine typed.update fun held same => ?_
    obtain rfl := Option.some.inj same
    exact .zset tid scores

/-- Nothing is allowed under the other keys, so all that matters there is that they stay empty. -/
theorem Allowed.own {key : String} {value : Redis.Value Stored} (allowed : Allowed key value) : otherKey key = false := by
  cases allowed <;> simp [otherKey]

theorem Allowed.text {key : String} {value : Redis.Value Stored} (allowed : Allowed key value)
    (own : accountKey key = true) : ∃ text, value = .string text := by
  cases allowed with
  | pool | token => exact ⟨_, rfl⟩
  | hash => simp at own
  | zset => simp at own

theorem absent_other (typed : Redis.Typed Allowed s.store.redis) {key : String} (other : otherKey key = true) :
    s.store.redis key = none := by
  refine typed.absent fun value allowed => ?_
  rw [allowed.own] at other
  cases other

theorem performList_absent {db : Redis.Db Stored} (absent : ∀ key, otherKey key = true → db key = none)
    (call : BlockSystem.Call) : (performList db call).1 = db ∧ (performList db call).2 =
      match call with
      | .block _ _ => .error (.service .IN_BLACK_LIST .INTERNAL_SERVER_ERROR)
      | .unblock _ _ => .ok true := by
  cases call with
  | block source target => exact ⟨rfl, rfl⟩
  | unblock source target =>
    have empty := absent _ (otherKey_list source)
    have read : Redis.setAt db (useNameSpace BLACK_LIST_CACHE [source]) = .ok ∅ := by simp only [Redis.setAt, empty]
    have gone : removeTarget BLACK_LIST_CACHE source target db = .ok db := by
      simp only [removeTarget, Redis.srem, read, Except.map, Redis.putSet, Finset.erase_empty, if_true]
      rw [← empty, Function.update_eq_self]
    simp only [performList, FriendsService.unblock, inBlackList_eq_true, if_true, gone, and_self]

theorem range_empty (start stop : Int) : SortedSet.range (∅ : SortedSet.Scores Int) start stop = [] := by
  rw [List.eq_nil_iff_forall_not_mem]
  exact fun member listed => AList.notMem_empty member (SortedSet.mem_of_mem_range listed)

theorem zremrangeNotice_absent {size page : Int} {tid : String} {db db' : Redis.Db Stored}
    (absent : ∀ key, otherKey key = true → db key = none) (done : zremrangeNotice size tid page db = .ok db') :
    db' = db := by
  have empty := absent _ (otherKey_notice tid)
  obtain ⟨scores, read, rfl⟩ := Redis.map_ok.mp done
  simp only [Redis.zsetAt, empty, Except.ok.injEq] at read
  subst read
  have none : Redis.zsetValue (α := Stored) (SortedSet.removeRange (∅ : SortedSet.Scores Int)
      ((page - 1) * size) (page * size)) = .none := by
    rw [SortedSet.removeRange, range_empty]
    rfl
  rw [none, ← empty, Function.update_eq_self]

theorem Step.typed (taken : Step env s event t) (typed : Redis.Typed Allowed s.store.redis) :
    Redis.Typed Allowed t.store.redis := by
  have absent : ∀ key, otherKey key = true → s.store.redis key = none := fun key => absent_other typed
  cases taken with
  | account taken => exact account_typed taken.wrote.1 typed
  | friend taken => exact friend_typed taken.wrote.1 typed
  | @list call =>
    show Redis.Typed Allowed (performList s.store.redis call).1
    rw [(performList_absent absent call).1]
    exact typed
  | setNotice done => cases done
  | taken done =>
    obtain rfl := zremrangeNotice_absent absent done
    exact typed
  | _ => exact typed

theorem run_typed (run : Run env now history s) : Redis.Typed Allowed s.store.redis :=
  run.preserved (P := fun s => Redis.Typed Allowed s.store.redis) Redis.typed_empty
    fun _ _ _ typed taken => taken.typed typed

/-! ### What follows for the calls -/

theorem pool_counts (typed : Redis.Typed Allowed s.store.redis) :
    ∃ v, AccountService.pool s.ofAccount.store = some v ∧ 0 ≤ v := by
  unfold AccountService.pool Redis.counter Redis.get
  simp only [State.ofAccount]
  cases held : s.store.redis ACCOUNT_POOL_NAMESPACE with
  | none => exact ⟨0, rfl, le_rfl⟩
  | some value =>
    obtain ⟨text, n, rfl, counts, more⟩ := allowed_pool (typed _ _ held) rfl
    exact ⟨n, counts, more.le⟩

/-- No command of the account service ever finds a value that it cannot read. -/
theorem account_answers (run : Run env now history s) :
    (∀ body e, registeGet env.account body s.ofAccount.store ≠ .error (.redis e)) ∧
    (∃ counted, registeIncrby s.ofAccount.store = .ok counted) ∧
    ∀ tid, ∃ answer, alive tid s.ofAccount.store = .ok answer := by
  have typed := run_typed run
  obtain ⟨v, counts, -⟩ := pool_counts typed
  refine ⟨fun body e refused => ?_, ?_, fun tid => ?_⟩
  · rw [registeGet_eq counts] at refused
    cases read : digest env.account (body.get "password") with
    | ok hash =>
      rw [read] at refused
      cases refused
    | error other =>
      rw [read] at refused
      obtain rfl := Except.error.inj refused
      unfold digest at read
      split at read <;> cases read
  · obtain ⟨counted, raised, -⟩ := registeIncrby_ok counts
    exact ⟨counted, raised⟩
  · obtain ⟨text, read⟩ := typed.get_ok fun value allowed => allowed.text (accountKey_token tid)
    have same : Redis.get s.ofAccount.store.redis (TOKEN_NAMESPACE tid) = .ok text := read
    unfold alive
    rw [same]
    cases text <;> exact ⟨_, rfl⟩

theorem account_answers_sample : ∃ history s, Run sampleAppEnv 0 history s ∧
    (∀ body e, registeGet sampleAppEnv.account body s.ofAccount.store ≠ .error (.redis e)) ∧
    (∃ counted, registeIncrby s.ofAccount.store = .ok counted) ∧
    ∀ tid, ∃ answer, alive tid s.ofAccount.store = .ok answer := by
  obtain ⟨history, s, run, -⟩ := backend_run
  exact ⟨history, s, run, account_answers run⟩

/-- A recipient's hash may be another one's sorted set, if the one is called like the other after `split:`. -/
theorem Allowed.request {key tid : String} {value : Redis.Value Stored} (allowed : Allowed key value)
    (here : key = REQUEST_NAMESPACE tid) : (∃ fields, value = .hash fields) ∨
      ∃ other scores, tid = "split:" ++ other ∧ value = .zset scores := by
  have own := requestKey_namespace tid
  rw [← here] at own
  cases allowed with
  | pool => simp [keys_apart accountKey_pool] at own
  | token kind owner text => simp [keys_apart (accountKey_key kind owner)] at own
  | hash other fields => exact .inl ⟨fields, rfl⟩
  | zset other scores =>
    rw [split_eq_namespace] at here
    exact .inr ⟨other, scores, (requestNamespace_inj here).symm, rfl⟩

/-- The key of the recipient's requests holds a sorted set, that of another recipient. -/
def HashTaken (db : Redis.Db Stored) (tid : String) : Prop :=
  ∃ other scores, tid = "split:" ++ other ∧ db (REQUEST_HASH_KEY_NAMESPACE other) = some (.zset scores)

/-- The key of the recipient's ranks holds a hash, that of another recipient. -/
def ZsetTaken (db : Redis.Db Stored) (tid : String) : Prop :=
  ∃ fields, db (REQUEST_NAMESPACE ("split:" ++ tid)) = some (.hash fields)

theorem hashAt_cases (typed : Redis.Typed Allowed s.store.redis) (tid : String) :
    (HashTaken s.store.redis tid ∧ Redis.hashAt s.store.redis (REQUEST_NAMESPACE tid) = .error .wrongType) ∨
    ¬ HashTaken s.store.redis tid ∧ ∃ fields, Redis.hashAt s.store.redis (REQUEST_NAMESPACE tid) = .ok fields := by
  by_cases occupied : HashTaken s.store.redis tid
  · refine .inl ⟨occupied, ?_⟩
    obtain ⟨other, scores, rfl, held⟩ := occupied
    rw [split_eq_namespace] at held
    simp only [Redis.hashAt, held]
  · refine .inr ⟨occupied, ?_⟩
    unfold Redis.hashAt
    cases held : s.store.redis (REQUEST_NAMESPACE tid) with
    | none => exact ⟨_, rfl⟩
    | some value =>
      rcases (typed _ _ held).request rfl with ⟨fields, rfl⟩ | ⟨other, scores, rfl, rfl⟩
      · exact ⟨fields, rfl⟩
      · exact (occupied ⟨other, scores, rfl, by rw [split_eq_namespace]; exact held⟩).elim

theorem zsetAt_cases (typed : Redis.Typed Allowed s.store.redis) (tid : String) :
    (ZsetTaken s.store.redis tid ∧ Redis.zsetAt s.store.redis (REQUEST_HASH_KEY_NAMESPACE tid) = .error .wrongType) ∨
    ¬ ZsetTaken s.store.redis tid ∧
      ∃ scores, Redis.zsetAt s.store.redis (REQUEST_HASH_KEY_NAMESPACE tid) = .ok scores := by
  unfold ZsetTaken Redis.zsetAt
  rw [split_eq_namespace]
  cases held : s.store.redis (REQUEST_NAMESPACE ("split:" ++ tid)) with
  | none => exact .inr ⟨by simp, _, rfl⟩
  | some value =>
    rcases (typed _ _ held).request rfl with ⟨fields, rfl⟩ | ⟨other, scores, -, rfl⟩
    · exact .inl ⟨⟨fields, rfl⟩, rfl⟩
    · exact .inr ⟨by simp, scores, rfl⟩

/-- In every state of the backend a request is filed, unless a key of its recipient is taken by another one. -/
theorem addRequest_files_iff (run : Run env now history s) (request : Request) :
    (addRequest env.request request s.store.redis).2 = .ok (ridOf env.request request) ↔
      ¬ HashTaken s.store.redis request.recive ∧ ¬ ZsetTaken s.store.redis request.recive := by
  have typed := run_typed run
  rcases hashAt_cases typed request.recive with ⟨occupied, refused⟩ | ⟨free, fields, hash⟩
  · refine iff_of_false ?_ fun both => both.1 occupied
    have failed : addHset env.request request s.store.redis = .error .wrongType := by
      rw [addHset, Redis.hset, refused]
      rfl
    rw [addRequest, failed]
    simp
  · rcases zsetAt_cases typed request.recive with ⟨occupied, refused⟩ | ⟨clear, scores, zset⟩
    · refine iff_of_false ?_ fun both => both.2 occupied
      have wrote : addHset env.request request s.store.redis = _ := Redis.hset_ok _ _ hash
      have skipped := Redis.hsetnx_of_holds (.number (raisedExpire env.request request)) (holds_addHset wrote)
      have still := Redis.zsetAt_congr (Redis.putHash_of_ne s.store.redis
        (fields.insert (ridOf env.request request) (.record request)) (split_ne_namespace request.recive))
      rw [refused] at still
      simp only [addRequest, wrote, addHsetnx, skipped, addZadd, Redis.zadd, still, Except.map]
      simp
    · rw [addRequest_ok hash zset]
      exact iff_of_true rfl ⟨free, clear⟩

theorem addRequest_files_sample : ∃ history s, Run sampleAppEnv 0 history s ∧ ∀ request,
    (addRequest sampleAppEnv.request request s.store.redis).2 = .ok (ridOf sampleAppEnv.request request) ↔
      ¬ HashTaken s.store.redis request.recive ∧ ¬ ZsetTaken s.store.redis request.recive := by
  obtain ⟨history, s, run, -⟩ := backend_run
  exact ⟨history, s, run, addRequest_files_iff run⟩

/-- What the calls show that use no key of the two services. -/
def Event.Idle : Event → Prop
  | .setNotice result => result = .error .wrongArity
  | .notices _ read => read = .ok []
  | .list (.block _ _) result => result = .error (.service .IN_BLACK_LIST .INTERNAL_SERVER_ERROR)
  | .list (.unblock _ _) result => result = .ok true
  | _ => True

theorem zrangeNotice_absent {size page : Int} {tid : String} (typed : Redis.Typed Allowed s.store.redis) :
    zrangeNotice size tid page s.store.redis = .ok [] := by
  have empty := absent_other typed (otherKey_notice tid)
  have read : Redis.zsetAt s.store.redis (NOTICE_NAMESPACE tid) = .ok ∅ := by simp only [Redis.zsetAt, empty]
  rw [zrangeNotice, Redis.zrange, read, Except.map, range_empty]

theorem Step.idle (taken : Step env s event t) (typed : Redis.Typed Allowed s.store.redis) : event.Idle := by
  cases taken with
  | @list call =>
    have result := (performList_absent (fun key => absent_other typed) call).2
    cases call with
    | block source target => exact result
    | unblock source target => exact result
  | setNotice done => cases done
  | unset refused =>
    cases refused
    rfl
  | notices => exact zrangeNotice_absent typed
  | _ => trivial

/-- In no run is a notice stored or read, a user put on a black list in Redis, or anyone let through by the middleware,
and nothing is ever stored under their keys. -/
theorem others_idle (run : Run env now history s) :
    (∀ event ∈ labels history, event.Idle) ∧ (∀ key, otherKey key = true → s.store.redis key = none) ∧
    ∀ jwt authorization user, TokenValidityCheckMiddleware.use jwt s.store.redis authorization ≠ .ok user := by
  have typed := run_typed run
  refine ⟨fun event member => ?_, fun key => absent_other typed, fun jwt authorization user => ?_⟩
  · obtain ⟨x, listed, rfl⟩ := List.mem_map.mp member
    obtain ⟨past, next, before, taken⟩ := run.reached listed
    exact taken.idle (run_typed before)
  · have empty := @absent_other _ typed "token:white-list" (otherKey_of_head (c := 't') rfl (by decide))
    have unlisted : ∀ token, Redis.hexists s.store.redis "token:white-list" token = .ok false := by
      intro token
      simp [Redis.hexists, Redis.hashAt, empty, Except.map]
    unfold TokenValidityCheckMiddleware.use
    cases authorization with
    | none => simp
    | some text => simp [unlisted]

theorem others_idle_sample : ∃ history s, Run sampleAppEnv 0 history s ∧
    (∀ event ∈ labels history, event.Idle) ∧ (∀ key, otherKey key = true → s.store.redis key = none) ∧
    ∀ jwt authorization user, TokenValidityCheckMiddleware.use jwt s.store.redis authorization ≠ .ok user := by
  obtain ⟨history, s, run, -⟩ := backend_run
  exact ⟨history, s, run, others_idle run⟩

end TacoBack.App
