import TacoBack.BlackList.Cache

/-!
# AccountCacheService

The cache service writes a token as the account service does, with `SET` and then `SETNX`.
-/

namespace TacoBack.AccountCacheService

variable {α : Type}

/-- The namespace `AccountCacheModule.use` gives when it is called without one. -/
def ACCOUNT_CACHE : String := "ACCOUNT_CACHE"

def tokenKey (ns tid : String) : String := useNameSpace ns ["token", tid]

def writeToken (ns tid token expire : String) (db : Redis.Db α) : Redis.Db α :=
  Redis.setnx (Redis.set db (tokenKey ns tid) token) (tokenKey ns tid) expire

def deleteToken (ns tid : String) (db : Redis.Db α) : Redis.Db α := Redis.del db (tokenKey ns tid)

def getToken (ns tid : String) (db : Redis.Db α) : Except Redis.ReplyError (Option String) :=
  Redis.get db (tokenKey ns tid)

inductive Call where
  | writeToken (tid token expire : String)
  | deleteToken (tid : String)

def perform (ns : String) (db : Redis.Db α) : Call → Redis.Db α
  | .writeToken tid token expire => writeToken ns tid token expire db
  | .deleteToken tid => deleteToken ns tid db

/-- The token last written for each tid and not deleted since. -/
def record (tokens : String → Option String) : Call → String → Option String
  | .writeToken tid token _ => Function.update tokens tid (some token)
  | .deleteToken tid => Function.update tokens tid none

theorem tokenKey_inj {ns a b : String} (same : tokenKey ns a = tokenKey ns b) : a = b := by
  simpa [tokenKey, useNameSpace, String.intercalate_cons_cons] using same

theorem getToken_perform {ns : String} {db : Redis.Db α} {tokens : String → Option String}
    (reads : ∀ tid, getToken ns tid db = .ok (tokens tid)) (call : Call) (tid : String) :
    getToken ns tid (perform ns db call) = .ok (record tokens call tid) := by
  have kept : ∀ other value, tid ≠ other →
      getToken ns tid (Function.update db (tokenKey ns other) value) = .ok (tokens tid) := by
    intro other value different
    rw [← reads tid, getToken, getToken, Redis.get, Redis.get,
      Function.update_of_ne fun same => different (tokenKey_inj same)]
  cases call with
  | writeToken other token expire =>
    rw [perform, record, writeToken, Redis.setnx_set]
    by_cases same : tid = other
    · subst same
      rw [Function.update_self, getToken, Redis.get_set]
    · rw [Function.update_of_ne same]
      exact kept other _ same
  | deleteToken other =>
    rw [perform, record, deleteToken]
    by_cases same : tid = other
    · subst same
      simp [getToken, Redis.get, Redis.del]
    · rw [Function.update_of_ne same]
      exact kept other _ same

/-- No `expire` ends a token: it is read until it is deleted or written anew. -/
theorem getToken_performs (ns : String) (calls : List Call) (tid : String) :
    getToken ns tid (calls.foldl (perform ns) (fun _ => none : Redis.Db α)) =
      .ok (calls.foldl record (fun _ => none) tid) := by
  have each : ∀ (db : Redis.Db α) (tokens : String → Option String), (∀ tid, getToken ns tid db = .ok (tokens tid)) →
      ∀ tid, getToken ns tid (calls.foldl (perform ns) db) = .ok (calls.foldl record tokens tid) := by
    induction calls with
    | nil => exact fun db tokens reads => reads
    | cons call calls ih => exact fun db tokens reads => ih _ _ (getToken_perform reads call)
  exact each _ _ (fun _ => rfl) tid

end TacoBack.AccountCacheService
