import TacoBack.Lib.Schedule
import TacoBack.Request.Store

/-!
# Calls for different recipients

Calls of the four operations of the request store, cut at every Redis command and interleaved in
any order. The sorted set of a recipient is kept under the key that is the hash of another string,
so the writes for one recipient reach some others.
-/

namespace TacoBack.RequestSystem

open RequestService

inductive Operation where
  | addRequest (request : Request)
  | removeRequest (tid rid : String)
  | getReuqest (tid rid : String)
  | getAllRequest (tid : String) (page : Option Int)

inductive Answer where
  | added (rid : String)
  | removed
  | request (stored : Option Stored)
  | requests (listed : List (Option Stored))

/-- How far a call has come: the command it sends next, or its result. -/
inductive Progress where
  | hset (request : Request)
  | hsetnx (request : Request)
  | zadd (request : Request)
  | hdel (tid rid : String)
  | hget (tid rid : String)
  | zrange (tid : String) (page : Option Int)
  | listing (tid : String) (keys : List String) (listed : List (Option Stored))
  | done (result : Except Redis.ReplyError Answer)

def Operation.tid : Operation → String
  | .addRequest request => request.recive
  | .removeRequest tid _ | .getReuqest tid _ | .getAllRequest tid _ => tid

def Operation.start : Operation → Progress
  | .addRequest request => .hset request
  | .removeRequest tid rid => .hdel tid rid
  | .getReuqest tid rid => .hget tid rid
  | .getAllRequest tid page => .zrange tid page

def written (db : Redis.Db Stored) (reply : Except Redis.ReplyError (Redis.Db Stored)) (next : Progress) :
    Redis.Db Stored × Progress :=
  match reply with
  | .ok after => (after, next)
  | .error e => (db, .done (.error e))

def answered {α : Type} (db : Redis.Db Stored) (reply : Except Redis.ReplyError α) (next : α → Progress) :
    Redis.Db Stored × Progress :=
  match reply with
  | .ok answer => (db, next answer)
  | .error e => (db, .done (.error e))

/-- The next command of a call. A command that fails ends it. -/
def command (env : Env) (size : Int) : Redis.Db Stored × Progress → Redis.Db Stored × Progress
  | (db, .hset request) => written db (addHset env request db) (.hsetnx request)
  | (db, .hsetnx request) => written db (addHsetnx env request db) (.zadd request)
  | (db, .zadd request) => written db (addZadd env request db) (.done (.ok (.added (ridOf env request))))
  | (db, .hdel tid rid) => written db (removeRequest tid rid db) (.done (.ok .removed))
  | (db, .hget tid rid) => answered db (getReuqest tid rid db) fun stored => .done (.ok (.request stored))
  | (db, .zrange tid page) => answered db (requestKeys size tid page db) fun keys => .listing tid keys []
  | (db, .listing _ [] listed) => (db, .done (.ok (.requests listed)))
  | (db, .listing tid (key :: keys) listed) =>
    answered db (Redis.hget db (REQUEST_NAMESPACE tid) key) fun stored => .listing tid keys (listed ++ [stored])
  | (db, .done result) => (db, .done result)

/-- The state before the first step of the calls `operation 0`, `operation 1` and so on. -/
def begin (operation : ℕ → Operation) : Schedule.Tasks (Redis.Db Stored) Progress where
  store := fun _ => none
  task := fun i => (operation i).start

variable {env : Env} {size : Int} {db db' : Redis.Db Stored} {progress : Progress} {tid : String}

/-! ### Calls that nothing comes between -/

theorem addRequest_alone (request : Request) :
    (command env size)^[3] (db, .hset request) =
      ((addRequest env request db).1, .done ((addRequest env request db).2.map .added)) := by
  show command env size (command env size (written db (addHset env request db) (.hsetnx request))) = _
  cases first : addHset env request db with
  | error e =>
    simp only [addRequest, first]
    rfl
  | ok hashed =>
    show command env size (written hashed (addHsetnx env request hashed) (.zadd request)) = _
    cases second : addHsetnx env request hashed with
    | error e =>
      simp only [addRequest, first, second]
      rfl
    | ok marked =>
      show written marked (addZadd env request marked) _ = _
      cases third : addZadd env request marked with
      | error e | ok filed =>
        simp only [addRequest, first, second, third]
        rfl

theorem listing_alone (keys : List String) (listed : List (Option Stored)) :
    ∃ n, (command env size)^[n] (db, .listing tid keys listed) =
      (db, .done ((keys.mapM fun key => Redis.hget db (REQUEST_NAMESPACE tid) key).map
        fun more => .requests (listed ++ more))) := by
  induction keys generalizing listed with
  | nil =>
    refine ⟨1, ?_⟩
    show (db, Progress.done (.ok (.requests listed))) = (db, .done (.ok (.requests (listed ++ []))))
    rw [List.append_nil]
  | cons key keys ih =>
    rw [List.mapM_cons]
    cases read : Redis.hget db (REQUEST_NAMESPACE tid) key with
    | error e =>
      refine ⟨1, ?_⟩
      show answered db (Redis.hget db (REQUEST_NAMESPACE tid) key) _ = _
      rw [read]
      rfl
    | ok stored =>
      obtain ⟨n, rest⟩ := ih (listed ++ [stored])
      refine ⟨n + 1, ?_⟩
      have first : command env size (db, .listing tid (key :: keys) listed) =
          (db, .listing tid keys (listed ++ [stored])) := by
        rw [command, read]
        rfl
      rw [Function.iterate_succ_apply, first, rest]
      cases keys.mapM fun key => Redis.hget db (REQUEST_NAMESPACE tid) key with
      | error e => rfl
      | ok more =>
        show (db, Progress.done (.ok (.requests (listed ++ [stored] ++ more)))) =
          (db, Progress.done (.ok (.requests (listed ++ stored :: more))))
        rw [List.append_assoc, List.singleton_append]

/-- The four operations as functions of the store. -/
def Operation.perform (env : Env) (size : Int) (db : Redis.Db Stored) :
    Operation → Redis.Db Stored × Except Redis.ReplyError Answer
  | .addRequest request =>
    ((RequestService.addRequest env request db).1, (RequestService.addRequest env request db).2.map .added)
  | .removeRequest tid rid =>
    match RequestService.removeRequest tid rid db with
    | .ok removed => (removed, .ok .removed)
    | .error e => (db, .error e)
  | .getReuqest tid rid => (db, (RequestService.getReuqest tid rid db).map .request)
  | .getAllRequest tid page => (db, (RequestService.getAllRequest size tid page db).map .requests)

/-- Left alone, a call does what its function says. -/
theorem command_alone (operation : Operation) : ∃ n, (command env size)^[n] (db, operation.start) =
    ((operation.perform env size db).1, .done (operation.perform env size db).2) := by
  cases operation with
  | addRequest request => exact ⟨3, addRequest_alone request⟩
  | removeRequest tid rid =>
    refine ⟨1, ?_⟩
    show written db (removeRequest tid rid db) _ = _
    simp only [Operation.perform]
    cases removeRequest tid rid db <;> rfl
  | getReuqest tid rid =>
    refine ⟨1, ?_⟩
    show answered db (getReuqest tid rid db) _ = _
    simp only [Operation.perform]
    cases getReuqest tid rid db <;> rfl
  | getAllRequest tid page =>
    simp only [Operation.perform, getAllRequest]
    cases read : requestKeys size tid page db with
    | error e =>
      refine ⟨1, ?_⟩
      show answered db (requestKeys size tid page db) _ = _
      rw [read]
      rfl
    | ok keys =>
      obtain ⟨n, rest⟩ := @listing_alone env size db tid keys []
      refine ⟨n + 1, ?_⟩
      have first : command env size (db, .zrange tid page) = (db, .listing tid keys []) := by
        rw [command, read]
        rfl
      rw [Function.iterate_succ_apply, Operation.start, first, rest]
      rfl

/-! ### The key of a command -/

def Progress.key : Progress → Option String
  | .hset request | .hsetnx request => some (REQUEST_NAMESPACE request.recive)
  | .zadd request => some (REQUEST_HASH_KEY_NAMESPACE request.recive)
  | .hdel tid _ | .hget tid _ | .listing tid _ _ => some (REQUEST_NAMESPACE tid)
  | .zrange tid _ => some (REQUEST_HASH_KEY_NAMESPACE tid)
  | .done _ => none

theorem written_other {key other : String} {write : Redis.Db Stored → Except Redis.ReplyError (Redis.Db Stored)}
    {next : Progress} (single : Redis.Local key write) (different : other ≠ key) :
    (written db (write db) next).1 other = db other := by
  obtain ⟨value, writes⟩ := single
  rw [writes db]
  cases value (db key) with
  | error => rfl
  | ok held => exact Function.update_of_ne different _ _

theorem written_same {key : String} {write : Redis.Db Stored → Except Redis.ReplyError (Redis.Db Stored)}
    {next : Progress} (single : Redis.Local key write) (same : db key = db' key) :
    (written db (write db) next).2 = (written db' (write db') next).2 ∧
      ∀ own, some key = some own →
        (written db (write db) next).1 own = (written db' (write db') next).1 own := by
  obtain ⟨value, writes⟩ := single
  rw [writes db, writes db', same]
  cases value (db' key) with
  | error => exact ⟨rfl, fun own found => Option.some.inj found ▸ same⟩
  | ok held =>
    refine ⟨rfl, fun own found => ?_⟩
    obtain rfl := Option.some.inj found
    simp [written, Except.map]

@[simp] theorem answered_store {α : Type} (reply : Except Redis.ReplyError α) (next : α → Progress) :
    (answered db reply next).1 = db := by
  cases reply <;> rfl

theorem answered_same {α : Type} {reply reply' : Except Redis.ReplyError α} {next : α → Progress}
    (read : reply = reply') (same : ∀ key, progress.key = some key → db key = db' key) :
    (answered db reply next).2 = (answered db' reply' next).2 ∧
      ∀ key, progress.key = some key → (answered db reply next).1 key = (answered db' reply' next).1 key := by
  subst read
  cases reply <;> exact ⟨rfl, same⟩

/-- A call writes no other key than that of its next command. -/
theorem command_other {other : String} (different : progress.key ≠ some other) :
    (command env size (db, progress)).1 other = db other := by
  have apart : ∀ key, progress.key = some key → other ≠ key :=
    fun key found same => different (found.trans (congrArg some same.symm))
  cases progress with
  | hset request => exact written_other (Redis.local_hset _ _ _) (apart _ rfl)
  | hsetnx request => exact written_other (Redis.local_hsetnx _ _ _) (apart _ rfl)
  | zadd request => exact written_other (Redis.local_zadd _ _ _) (apart _ rfl)
  | hdel tid rid => exact written_other (Redis.local_hdel _ _) (apart _ rfl)
  | hget tid rid => rw [command, answered_store]
  | zrange tid page => rw [command, answered_store]
  | listing tid keys listed =>
    cases keys with
    | nil => rfl
    | cons key keys => rw [command, answered_store]
  | done result => rfl

/-- What a call does next, and what it writes, depends on the key of its next command alone. -/
theorem command_same (same : ∀ key, progress.key = some key → db key = db' key) :
    (command env size (db, progress)).2 = (command env size (db', progress)).2 ∧
      ∀ key, progress.key = some key →
        (command env size (db, progress)).1 key = (command env size (db', progress)).1 key := by
  cases progress with
  | hset request => exact written_same (Redis.local_hset _ _ _) (same _ rfl)
  | hsetnx request => exact written_same (Redis.local_hsetnx _ _ _) (same _ rfl)
  | zadd request => exact written_same (Redis.local_zadd _ _ _) (same _ rfl)
  | hdel tid rid => exact written_same (Redis.local_hdel _ _) (same _ rfl)
  | hget tid rid => exact answered_same (Redis.hget_congr rid (same _ rfl)) same
  | zrange tid page => exact answered_same (requestKeys_congr (same _ rfl)) same
  | listing tid keys listed =>
    cases keys with
    | nil => exact ⟨rfl, same⟩
    | cons first keys => exact answered_same (Redis.hget_congr first (same _ rfl)) same
  | done result => exact ⟨rfl, same⟩

/-! ### Stores that agree outside some keys -/

def Agree (hidden : Set String) (db db' : Redis.Db Stored) : Prop := ∀ key, key ∉ hidden → db key = db' key

variable {hidden : Set String}

theorem Agree.symm (agree : Agree hidden db db') : Agree hidden db' db := fun key seen => (agree key seen).symm

theorem Agree.trans {db'' : Redis.Db Stored} (first : Agree hidden db db') (second : Agree hidden db' db'') :
    Agree hidden db db'' := fun key seen => (first key seen).trans (second key seen)

theorem agree_command (unseen : ∀ key, progress.key = some key → key ∈ hidden) :
    Agree hidden db (command env size (db, progress)).1 :=
  fun _ seen => (command_other fun found => seen (unseen _ found)).symm

theorem Agree.next (agree : Agree hidden db db') (seen : ∀ key, progress.key = some key → key ∉ hidden) :
    Agree hidden (command env size (db, progress)).1 (command env size (db', progress)).1 ∧
      (command env size (db, progress)).2 = (command env size (db', progress)).2 := by
  obtain ⟨next, writes⟩ := @command_same env size db db' progress fun key found => agree key (seen key found)
  refine ⟨fun key visible => ?_, next⟩
  by_cases own : progress.key = some key
  · exact writes key own
  · rw [command_other own, command_other own]
    exact agree key visible

/-! ### Calls for one recipient -/

/-- The call is one for `tid`. -/
def Progress.On (tid : String) : Progress → Prop
  | .hset request | .hsetnx request | .zadd request => request.recive = tid
  | .hdel owner _ | .hget owner _ | .zrange owner _ | .listing owner _ _ => owner = tid
  | .done _ => True

/-- What is left of the call reads hashes, if anything. -/
def Progress.Inert : Progress → Prop
  | .hget _ _ | .listing _ _ _ | .done _ => True
  | _ => False

theorem Operation.start_on (operation : Operation) : operation.start.On operation.tid := by
  cases operation <;> rfl

theorem Progress.On.key {key : String} (on : progress.On tid) (found : progress.key = some key) :
    key = REQUEST_NAMESPACE tid ∨ key = REQUEST_HASH_KEY_NAMESPACE tid := by
  cases progress <;> simp only [Progress.On] at on <;> simp only [Progress.key, Option.some.injEq] at found
  case zadd | zrange => exact .inr (on ▸ found.symm)
  case done => cases found
  all_goals exact .inl (on ▸ found.symm)

theorem written_on {reply : Except Redis.ReplyError (Redis.Db Stored)} {next : Progress} (on : next.On tid) :
    (written db reply next).2.On tid := by
  cases reply
  · trivial
  · exact on

theorem answered_on {α : Type} {reply : Except Redis.ReplyError α} {next : α → Progress}
    (on : ∀ answer, (next answer).On tid) : (answered db reply next).2.On tid := by
  cases reply
  · trivial
  · exact on _

theorem Progress.On.next (on : progress.On tid) : (command env size (db, progress)).2.On tid := by
  cases progress with
  | hset request => exact written_on on
  | hsetnx request => exact written_on on
  | zadd request => exact written_on trivial
  | hdel owner rid => exact written_on trivial
  | hget owner rid => exact answered_on fun _ => trivial
  | zrange owner page => exact answered_on fun _ => on
  | listing owner keys listed =>
    cases keys with
    | nil => trivial
    | cons key keys => exact answered_on fun _ => on
  | done result => trivial

theorem Progress.Inert.next (inert : progress.Inert) :
    (command env size (db, progress)).1 = db ∧ (command env size (db, progress)).2.Inert := by
  cases progress with
  | hget owner rid =>
    refine ⟨answered_store _ _, ?_⟩
    show (answered db (getReuqest owner rid db) _).2.Inert
    cases getReuqest owner rid db <;> trivial
  | listing owner keys listed =>
    cases keys with
    | nil => exact ⟨rfl, trivial⟩
    | cons key keys =>
      refine ⟨answered_store _ _, ?_⟩
      show (answered db (Redis.hget db _ key) _).2.Inert
      cases Redis.hget db (REQUEST_NAMESPACE owner) key <;> trivial
  | done result => exact ⟨rfl, trivial⟩
  | _ => cases inert

/-- Once a call has used its sorted set, it writes nothing more. -/
theorem Progress.On.inert (on : progress.On tid) (found : progress.key = some (REQUEST_HASH_KEY_NAMESPACE tid)) :
    (command env size (db, progress)).2.Inert := by
  have apart := split_ne_namespace tid
  cases progress <;> simp only [Progress.On] at on <;> simp only [Progress.key, Option.some.injEq] at found
  case zadd request =>
    show (written db (addZadd env request db) _).2.Inert
    cases addZadd env request db <;> trivial
  case zrange owner page =>
    show (answered db (requestKeys size owner page db) _).2.Inert
    cases requestKeys size owner page db <;> trivial
  case done => cases found
  all_goals exact absurd (on ▸ found.symm) apart

/-! ### Which recipients are reached -/

/-- `"split:"`, `n` times, before a string. -/
def splits (n : ℕ) (tid : String) : String := (fun s => "split:" ++ s)^[n] tid

/-- The keys that a write for `a` may reach through the requests of others. -/
def Reached (a : String) : Set String := {key | ∃ n, key = REQUEST_NAMESPACE (splits n a)}

theorem splits_succ (n : ℕ) (tid : String) : splits (n + 1) tid = "split:" ++ splits n tid :=
  Function.iterate_succ_apply' _ _ _

theorem splits_length (n : ℕ) (tid : String) : (splits n tid).length = 6 * n + tid.length := by
  have prefixes : "split:".length = 6 := by decide
  induction n with
  | zero => simp [splits]
  | succ n ih =>
    rw [splits_succ, String.length_append, ih, prefixes]
    omega

theorem namespace_reached {a : String} : REQUEST_NAMESPACE tid ∈ Reached a ↔ ∃ n, tid = splits n a := by
  constructor
  · intro reached
    obtain ⟨n, same⟩ := reached
    exact ⟨n, requestNamespace_inj same⟩
  · intro reached
    obtain ⟨n, rfl⟩ := reached
    exact ⟨n, rfl⟩

theorem split_reached {a : String} :
    REQUEST_HASH_KEY_NAMESPACE tid ∈ Reached a ↔ a = "split:" ++ tid ∨ ∃ n, tid = splits n a := by
  rw [split_eq_namespace, namespace_reached]
  constructor
  · intro reached
    obtain ⟨n, same⟩ := reached
    cases n with
    | zero => exact .inl same.symm
    | succ n =>
      rw [splits_succ] at same
      exact .inr ⟨n, by simpa using same⟩
  · intro reached
    rcases reached with same | ⟨n, same⟩
    · exact ⟨0, same.symm⟩
    · exact ⟨n + 1, by rw [splits_succ, same]⟩

/-- How a call stands in two executions, of which one has additional calls for `a`. -/
def Matches (a tid : String) (p p' : Progress) : Prop :=
  p.On tid ∧ p'.On tid ∧
    ((∃ n, tid = splits n a) ∨ (a = "split:" ++ tid ∧ p.Inert ∧ p'.Inert) ∨ p = p')

theorem reached_keys {a : String} {n : ℕ} (on : progress.On (splits n a)) :
    ∀ key, progress.key = some key → key ∈ Reached a := by
  intro key found
  rcases on.key found with rfl | rfl
  · exact namespace_reached.mpr ⟨n, rfl⟩
  · exact split_reached.mpr (.inr ⟨n, rfl⟩)

/-- A step of the same call in both executions. -/
theorem Matches.common {a : String} {p p' : Progress} (matched : Matches a tid p p')
    (agree : Agree (Reached a) db db') :
    Agree (Reached a) (command env size (db, p)).1 (command env size (db', p')).1 ∧
      Matches a tid (command env size (db, p)).2 (command env size (db', p')).2 := by
  obtain ⟨on, on', kind⟩ := matched
  by_cases reached : ∃ n, tid = splits n a
  · obtain ⟨n, rfl⟩ := reached
    have left := @agree_command env size db p _ (reached_keys on)
    have right := @agree_command env size db' p' _ (reached_keys on')
    exact ⟨left.symm.trans (agree.trans right), on.next, on'.next, .inl ⟨n, rfl⟩⟩
  rcases kind with found | ⟨border, inert, inert'⟩ | rfl
  · exact absurd found reached
  · have left := @Progress.Inert.next env size db p inert
    have right := @Progress.Inert.next env size db' p' inert'
    refine ⟨?_, on.next, on'.next, .inr (.inl ⟨border, left.2, right.2⟩)⟩
    rw [left.1, right.1]
    exact agree
  · by_cases zset : p.key = some (REQUEST_HASH_KEY_NAMESPACE tid) ∧ a = "split:" ++ tid
    · obtain ⟨found, border⟩ := zset
      have unseen : ∀ key, p.key = some key → key ∈ Reached a := by
        intro key same
        obtain rfl := Option.some.inj (found.symm.trans same)
        exact split_reached.mpr (.inl border)
      have left := @agree_command env size db p _ unseen
      have right := @agree_command env size db' p _ unseen
      exact ⟨left.symm.trans (agree.trans right), on.next, on.next,
        .inr (.inl ⟨border, on.inert found, on.inert found⟩)⟩
    · have seen : ∀ key, p.key = some key → key ∉ Reached a := by
        intro key found
        rcases on.key found with rfl | rfl
        · exact fun inside => reached (namespace_reached.mp inside)
        · intro inside
          rcases split_reached.mp inside with border | inner
          · exact zset ⟨found, border⟩
          · exact reached inner
      obtain ⟨stores, same⟩ := @Agree.next env size db db' p _ agree seen
      exact ⟨stores, on.next, on.next, .inr (.inr same)⟩

/-- A step of an additional call for `a`. -/
theorem Matches.additional {a : String} {p p' : Progress} (matched : Matches a a p p')
    (agree : Agree (Reached a) db db') :
    Agree (Reached a) db (command env size (db', p')).1 ∧ Matches a a p (command env size (db', p')).2 := by
  obtain ⟨on, on', _⟩ := matched
  have own : ∃ n, a = splits n a := ⟨0, rfl⟩
  refine ⟨agree.trans (agree_command (reached_keys (n := 0) on')), on, on'.next, .inl own⟩

/-! ### Isolation -/

/-- The calls for `a` that write. -/
def Operation.Writes (a : String) : Operation → Prop
  | .addRequest request => request.recive = a
  | .removeRequest tid _ => tid = a
  | _ => False

/-- Additional `addRequest` and `removeRequest` calls for `a`, anywhere in a run, change the result of
no call for `b`. -/
def Isolated (env : Env) (size : Int) (a b : String) : Prop :=
  ∀ (operation : ℕ → Operation) (extra : ℕ → Bool), (∀ i, extra i = true → (operation i).Writes a) →
    ∀ (schedule : List ℕ) i, extra i = false → (operation i).tid = b →
      (Schedule.exec (command env size) (schedule.filter fun i => !extra i) (begin operation)).task i =
        (Schedule.exec (command env size) schedule (begin operation)).task i

theorem Operation.writes_tid {a : String} {operation : Operation} (writes : operation.Writes a) :
    operation.tid = a := by
  cases operation <;> simp only [Operation.Writes] at writes <;> exact writes

theorem isolated_of_apart {a b : String} (border : a ≠ "split:" ++ b) (apart : ∀ n, b ≠ splits n a) :
    Isolated env size a b := by
  intro operation extra writes schedule i kept recipient
  have start : ∀ j, Matches a (operation j).tid ((begin operation).task j) ((begin operation).task j) :=
    fun j => ⟨(operation j).start_on, (operation j).start_on, .inr (.inr rfl)⟩
  have common : ∀ j store store' p p', extra j = false → Agree (Reached a) store store' →
      Matches a (operation j).tid p p' →
      Agree (Reached a) (command env size (store, p)).1 (command env size (store', p')).1 ∧
        Matches a (operation j).tid (command env size (store, p)).2 (command env size (store', p')).2 :=
    fun _ _ _ _ _ _ agree matched => matched.common agree
  have additional : ∀ j store store' p p', extra j = true → Agree (Reached a) store store' →
      Matches a (operation j).tid p p' →
      Agree (Reached a) store (command env size (store', p')).1 ∧
        Matches a (operation j).tid p (command env size (store', p')).2 := by
    intro j store store' p p' added agree matched
    rw [Operation.writes_tid (writes j added)] at matched ⊢
    exact matched.additional agree
  have run := Schedule.exec_related common additional schedule (s := begin operation) (fun _ _ => rfl) start
  obtain ⟨_, _, kind⟩ := run.2 i
  rw [recipient] at kind
  rcases kind with ⟨n, reached⟩ | ⟨inside, _⟩ | same
  · exact absurd reached (apart n)
  · exact absurd inside border
  · exact same

/-! ### Clashes -/

/-- The calls `operation i` for these `i`, each to its end, one after the other. -/
def inTurn (first : ℕ) : ℕ → List ℕ
  | 0 => []
  | n + 1 => List.replicate 3 first ++ inTurn (first + 1) n

theorem exec_inTurn {s : Schedule.Tasks (Redis.Db Stored) Progress} {first n : ℕ} {request : Request}
    (start : s.task first = .hset request) :
    Schedule.exec (command env size) (inTurn first (n + 1)) s =
      Schedule.exec (command env size) (inTurn (first + 1) n)
        { store := (addRequest env request s.store).1,
          task := Function.update s.task first (.done ((addRequest env request s.store).2.map .added)) } := by
  rw [inTurn, Schedule.exec_append, Schedule.exec_replicate, start, addRequest_alone]

theorem inTurn_filter {first : ℕ} (later : 0 < first) (n : ℕ) :
    ((inTurn first n).filter fun i => !(i == 0)) = inTurn first n := by
  apply List.filter_eq_self.mpr
  induction n generalizing first with
  | zero => simp [inTurn]
  | succ n ih =>
    intro i member
    rcases List.mem_append.mp member with here | there
    · obtain rfl := (List.mem_replicate.mp here).2
      simpa using later.ne'
    · exact ih (Nat.lt_succ_of_lt later) i there

theorem inTurn_zero_filter (n : ℕ) : ((inTurn 0 (n + 1)).filter fun i => !(i == 0)) = inTurn 1 n := by
  rw [inTurn, List.filter_append, inTurn_filter Nat.one_pos]
  rfl

/-- Requests for `a`, `split:a`, `split:split:a` and so on. -/
def chained (a : String) (i : ℕ) : Request := { sampleRequest with recive := splits i a }

/-- The request number `n` is the next. Its hash key is free, or holds the sorted set of the one before. -/
structure Front (a : String) (db : Redis.Db Stored) (n : ℕ) (blocked : Bool) : Prop where
  here : match blocked with
    | true => ∃ scores, db (REQUEST_NAMESPACE (splits n a)) = some (.zset scores)
    | false => db (REQUEST_NAMESPACE (splits n a)) = none
  ahead : ∀ m, n < m → db (REQUEST_NAMESPACE (splits m a)) = none

theorem splits_ne {a : String} {m n : ℕ} (less : n < m) : splits m a ≠ splits n a := by
  intro same
  have lengths := congrArg String.length same
  rw [splits_length, splits_length] at lengths
  omega

/-- Each request of the chain blocks the next one, unless it is blocked itself. -/
theorem Front.add {a : String} {n : ℕ} {blocked : Bool} (front : Front a db n blocked) :
    (addRequest env (chained a n) db).2.isOk = !blocked ∧
      Front a (addRequest env (chained a n) db).1 (n + 1) !blocked := by
  have free : db (REQUEST_NAMESPACE (splits (n + 1) a)) = none := front.ahead (n + 1) (Nat.lt_succ_self n)
  cases blocked with
  | true =>
    obtain ⟨scores, held⟩ := front.here
    have refused : addHset env (chained a n) db = .error .wrongType := by
      show Redis.hset db (REQUEST_NAMESPACE (splits n a)) _ _ = _
      rw [Redis.hset, Redis.hashAt, held]
      rfl
    rw [addRequest, refused]
    exact ⟨rfl, free, fun m less => front.ahead m (Nat.lt_of_succ_lt less)⟩
  | false =>
    have hash : Redis.hashAt db (REQUEST_NAMESPACE (chained a n).recive) = .ok ∅ := by
      rw [Redis.hashAt, show db (REQUEST_NAMESPACE (chained a n).recive) = none from front.here]
    have key : REQUEST_HASH_KEY_NAMESPACE (chained a n).recive = REQUEST_NAMESPACE (splits (n + 1) a) := by
      rw [split_eq_namespace, splits_succ]
      rfl
    have zset : Redis.zsetAt db (REQUEST_HASH_KEY_NAMESPACE (chained a n).recive) = .ok ∅ := by
      rw [Redis.zsetAt, key, free]
    rw [addRequest_ok hash zset]
    refine ⟨rfl, ⟨_, by rw [filing, key]; exact Function.update_self _ _ _⟩, fun m less => ?_⟩
    show filing env (chained a n) ∅ ∅ db _ = none
    rw [filing_of_ne, front.ahead m (Nat.lt_of_succ_lt less)]
    · exact fun same => splits_ne (Nat.lt_of_succ_lt less) (requestNamespace_inj same)
    · rw [key]
      exact fun same => splits_ne less (requestNamespace_inj same)

theorem exec_chain {a : String} {s : Schedule.Tasks (Redis.Db Stored) Progress} {first n : ℕ} {blocked : Bool}
    (start : ∀ i, first ≤ i → s.task i = .hset (chained a i)) (front : Front a s.store first blocked) :
    ∃ result, (Schedule.exec (command env size) (inTurn first (n + 1)) s).task (first + n) = .done result ∧
      result.isOk = !(Bool.not^[n] blocked) := by
  induction n generalizing s first blocked with
  | zero =>
    have added := (@Front.add env s.store a first blocked front).1
    rw [exec_inTurn (start first le_rfl)]
    refine ⟨_, Function.update_self _ _ _, ?_⟩
    show _ = !blocked
    rw [← added]
    cases (addRequest env (chained a first) s.store).2 <;> rfl
  | succ n ih =>
    rw [exec_inTurn (start first le_rfl), show first + (n + 1) = first + 1 + n by omega,
      Function.iterate_succ_apply]
    refine ih (fun i later => ?_) front.add.2
    show Function.update s.task first _ i = _
    rw [Function.update_of_ne (by omega)]
    exact start i (by omega)

theorem begin_front (a : String) (n : ℕ) : Front a (fun _ => none) n false := ⟨rfl, fun _ _ => rfl⟩

/-- A request for `a` reaches every recipient whose name is `a` after some `"split:"`. -/
theorem not_isolated_splits (env : Env) (size : Int) (a : String) (n : ℕ) :
    ¬ Isolated env size a (splits (n + 1) a) := by
  intro isolated
  let operation := fun i => Operation.addRequest (chained a i)
  have same := isolated operation (fun i => i == 0)
    (fun i zero => by rw [show i = 0 by simpa using zero]; rfl) (inTurn 0 (n + 2)) (n + 1) (by simp) rfl
  have start : ∀ first i, first ≤ i → (begin operation).task i = .hset (chained a i) := fun _ _ _ => rfl
  rw [inTurn_zero_filter] at same
  obtain ⟨alone, runs, ok⟩ := @exec_chain env size a _ 1 n _ (start 1) (begin_front a 1)
  obtain ⟨both, runs', ok'⟩ := @exec_chain env size a _ 0 (n + 1) _ (start 0) (begin_front a 0)
  rw [Nat.add_comm 1 n] at runs
  rw [Nat.zero_add] at runs'
  rw [runs, runs'] at same
  obtain rfl := Progress.done.inj same
  rw [ok, Function.iterate_succ_apply'] at ok'
  simp at ok'

/-- A request for `a` takes the key of the sorted set of the recipient whose name it ends in. -/
theorem not_isolated_border (env : Env) (size : Int) (b : String) : ¬ Isolated env size ("split:" ++ b) b := by
  intro isolated
  let empty : Redis.Db Stored := fun _ => none
  let first : Request := { sampleRequest with recive := "split:" ++ b }
  let second : Request := { sampleRequest with recive := b }
  let operation := fun i => Operation.addRequest (if i = 0 then first else second)
  have same := isolated operation (fun i => i == 0)
    (fun i zero => by rw [show i = 0 by simpa using zero]; rfl) (inTurn 0 2) 1 rfl rfl
  have alone : (Schedule.exec (command env size) (inTurn 1 1) (begin operation)).task 1 =
      .done ((addRequest env second empty).2.map .added) := by
    rw [@exec_inTurn env size (begin operation) 1 0 second rfl, inTurn, Schedule.exec_nil]
    simp only [Function.update_self]
    rfl
  have after : (Schedule.exec (command env size) (inTurn 0 2) (begin operation)).task 1 =
      .done ((addRequest env second (addRequest env first empty).1).2.map .added) := by
    rw [@exec_inTurn env size (begin operation) 0 1 first rfl, @exec_inTurn env size _ 1 0 second rfl, inTurn,
      Schedule.exec_nil]
    simp only [Function.update_self]
    rfl
  have files : addRequest env first empty = (filing env first ∅ ∅ empty, .ok (ridOf env first)) :=
    addRequest_ok rfl rfl
  have filesAlone : addRequest env second empty = (filing env second ∅ ∅ empty, .ok (ridOf env second)) :=
    addRequest_ok rfl rfl
  have refused : (addRequest env second (filing env first ∅ ∅ empty)).2 = .error .wrongType := by
    have blank : filing env first ∅ ∅ empty (REQUEST_NAMESPACE b) = none := by
      apply filing_of_ne
      · exact fun equal => split_append_ne b (requestNamespace_inj equal).symm
      · rw [split_eq_namespace]
        exact fun equal => splits_ne (n := 0) (m := 2) (by decide) (requestNamespace_inj equal).symm
    have held : Redis.Holds (filing env first ∅ ∅ empty) (REQUEST_HASH_KEY_NAMESPACE b) (ridOf env first)
        (.record first) := by
      rw [split_eq_namespace]
      exact holds_filing
    have read : Redis.hashAt (filing env first ∅ ∅ empty) (REQUEST_NAMESPACE b) = .ok ∅ := by
      rw [Redis.hashAt, blank]
    exact addRequest_refused read held
  rw [inTurn_zero_filter, alone, after, files, filesAlone, refused] at same
  cases Progress.done.inj same

/-- Calls for `a` change nothing for `b`, unless `a` is `b` after one `"split:"`, or `b` is `a` after
any number of them. -/
theorem isolated_iff (env : Env) (size : Int) {a b : String} (different : a ≠ b) :
    Isolated env size a b ↔ a ≠ "split:" ++ b ∧ ∀ n, b ≠ splits (n + 1) a := by
  constructor
  · intro isolated
    constructor
    · rintro rfl
      exact not_isolated_border env size b isolated
    · rintro n rfl
      exact not_isolated_splits env size a n isolated
  · intro apart
    apply isolated_of_apart apart.1
    intro n
    cases n with
    | zero => exact different.symm
    | succ n => exact apart.2 n

theorem isolated_sample : Isolated sampleEnv 10 "1" "2" := by
  refine (isolated_iff sampleEnv 10 (by decide)).mpr ⟨by decide, fun n same => ?_⟩
  have lengths := congrArg String.length same
  have one : "2".length = 1 := by decide
  rw [splits_length, one] at lengths
  omega

/-- A first request for `"split:1"` makes every later one for user 1 fail. -/
theorem inbox_blocked :
    let clash : Request := { sampleRequest with recive := "split:1" }
    let own : Request := { sampleRequest with recive := "1" }
    (addRequest sampleEnv own fun _ => none).2 = .ok "1-2-1-9253d76ce549de18" ∧
      (addRequest sampleEnv own (addRequest sampleEnv clash fun _ => none).1).2 = .error .wrongType ∧
      ¬ Isolated sampleEnv 10 "split:1" "1" :=
  ⟨rfl, rfl, not_isolated_border sampleEnv 10 "1"⟩

end TacoBack.RequestSystem
