import TacoBack.Lib.Properties
import TacoBack.Lib.Redis

/-!
# Encoded hash values

A store whose hash values are encoded, field by field. Each command does to the encoded store what it does to the
store itself.
-/

namespace AList

variable {β γ : Type} (f : β → γ) (fields : AList fun _ : String => β)

private theorem map_kerase (key : String) (entries : List (Sigma fun _ : String => β)) :
    ((entries.kerase key).map fun entry => (⟨entry.1, f entry.2⟩ : Sigma fun _ : String => γ)) =
      (entries.map fun entry => ⟨entry.1, f entry.2⟩).kerase key := by
  induction entries with
  | nil => rfl
  | cons entry entries ih =>
    by_cases here : key = entry.1
    · subst here
      simp
    · rw [List.kerase_cons_ne here, List.map_cons, List.map_cons, ih]
      exact (@List.kerase_cons_ne String (fun _ => γ) _ key ⟨entry.1, f entry.2⟩ _ here).symm

theorem mapValues_erase (key : String) : (fields.erase key).mapValues f = (fields.mapValues f).erase key :=
  AList.ext (map_kerase f key fields.entries)

theorem mapValues_insert (key : String) (value : β) :
    (fields.insert key value).mapValues f = (fields.mapValues f).insert key (f value) := by
  apply AList.ext
  calc ((fields.insert key value).mapValues f).entries
      = (⟨key, value⟩ :: fields.entries.kerase key).map fun entry => ⟨entry.1, f entry.2⟩ := rfl
    _ = ⟨key, f value⟩ :: (fields.mapValues f).entries.kerase key :=
      congrArg (List.cons _) (map_kerase f key fields.entries)
    _ = ((fields.mapValues f).insert key (f value)).entries := rfl

end AList

namespace Redis

variable {α β : Type} (f : α → β)

def Value.encode : Value α → Value β
  | .string text => .string text
  | .hash fields => .hash (fields.mapValues f)
  | .zset scores => .zset scores
  | .set members => .set members

def encode (db : Db α) : Db β := fun key => (db key).map (Value.encode f)

@[simp] theorem encode_empty : encode f (fun _ => none) = fun _ => none := rfl

theorem encode_update (db : Db α) (key : String) (value : Option (Value α)) :
    encode f (Function.update db key value) = Function.update (encode f db) key (value.map (Value.encode f)) := by
  funext other
  by_cases same : other = key
  · subst same
    simp [encode]
  · simp [encode, same]

variable (db : Db α) (key : String)

theorem hashAt_encode : hashAt (encode f db) key = (hashAt db key).map (AList.mapValues f) := by
  unfold hashAt encode
  cases db key with
  | none => rfl
  | some value => cases value <;> rfl

theorem zsetAt_encode : zsetAt (encode f db) key = zsetAt db key := by
  unfold zsetAt encode
  cases db key with
  | none => rfl
  | some value => cases value <;> rfl

theorem putHash_encode (fields : AList fun _ : String => α) :
    encode f (putHash db key fields) = putHash (encode f db) key (fields.mapValues f) := by
  have empty : (fields.mapValues f).entries.isEmpty = fields.entries.isEmpty := by
    simp [AList.mapValues]
  rw [putHash, putHash, encode_update, empty]
  split <;> rfl

theorem hget_encode (field : String) : hget (encode f db) key field = (hget db key field).map (Option.map f) := by
  rw [hget, hget, hashAt_encode]
  cases hashAt db key with
  | error e => rfl
  | ok fields => exact congrArg Except.ok (AList.lookup_mapValues f fields field)

theorem hset_encode (field : String) (value : α) :
    hset (encode f db) key field (f value) = (hset db key field value).map (encode f) := by
  rw [hset, hset, hashAt_encode]
  cases hashAt db key with
  | error e => rfl
  | ok fields =>
    refine congrArg Except.ok ?_
    rw [putHash_encode, AList.mapValues_insert]

theorem hsetnx_encode (field : String) (value : α) :
    hsetnx (encode f db) key field (f value) = (hsetnx db key field value).map (encode f) := by
  rw [hsetnx, hsetnx, hashAt_encode]
  cases hashAt db key with
  | error e => rfl
  | ok fields =>
    refine congrArg Except.ok ?_
    have held : ((fields.mapValues f).lookup field).isSome = (fields.lookup field).isSome := by
      rw [AList.lookup_mapValues, Option.isSome_map]
    dsimp only
    rw [held]
    split
    · rfl
    · rw [putHash_encode, AList.mapValues_insert]

theorem hdel_encode (field : String) : hdel (encode f db) key field = (hdel db key field).map (encode f) := by
  rw [hdel, hdel, hashAt_encode]
  cases hashAt db key with
  | error e => rfl
  | ok fields =>
    refine congrArg Except.ok ?_
    rw [putHash_encode, AList.mapValues_erase]

theorem zadd_encode (score : Int) (member : String) :
    zadd (encode f db) key score member = (zadd db key score member).map (encode f) := by
  rw [zadd, zadd, zsetAt_encode]
  cases zsetAt db key with
  | error e => rfl
  | ok scores => exact congrArg Except.ok (encode_update f db key (some (.zset (scores.insert member score)))).symm

theorem zrange_encode (start stop : Int) : zrange (encode f db) key start stop = zrange db key start stop := by
  rw [zrange, zrange, zsetAt_encode]

end Redis
