import TacoBack.Errors

/-!
# BlackListCacheService

The black list of a user is the set `<ns>:<source>`.
-/

namespace TacoBack

def useNameSpace (base : String) (args : List String) : String := base ++ ":" ++ ":".intercalate args

/-- A promise that is used as a value, whatever it settles to. -/
structure Promise (α : Type) where
  outcome : Except Redis.ReplyError α

/-- `Boolean` of an object. -/
def Promise.toBoolean {α : Type} (_ : Promise α) : Bool := true

namespace BlackListCacheService

/-- The namespace `BlackListCacheModule.use` gives when it is called without one. -/
def BLACK_LIST_CACHE : String := "BLACK_LIST_CACHE"

variable {α : Type}

/-- The reply of `SISMEMBER` is not awaited. -/
def inBlackList (ns source target : String) (db : Redis.Db α) : Bool :=
  Promise.toBoolean ⟨Redis.sismember db (useNameSpace ns [source]) target⟩

def addBlackList (ns source target : String) (db : Redis.Db α) : Except Redis.ReplyError (Redis.Db α) :=
  Redis.sadd db (useNameSpace ns [source]) target

def removeTarget (ns source target : String) (db : Redis.Db α) : Except Redis.ReplyError (Redis.Db α) :=
  Redis.srem db (useNameSpace ns [source]) target

@[simp] theorem inBlackList_eq_true (ns source target : String) (db : Redis.Db α) :
    inBlackList ns source target db = true := rfl

end BlackListCacheService

end TacoBack
