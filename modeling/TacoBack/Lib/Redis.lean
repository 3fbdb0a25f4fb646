import Mathlib.Data.Finset.Erase
import Mathlib.Data.Finset.Insert
import TacoBack.Lib.SortedSet

/-!
# A typed key-value store

The Redis commands on strings, hashes and sorted sets. A key holds a value of one type; a command
of another type fails and changes nothing. Hash values are of an arbitrary type `α`, the meaning
of the text they are stored as.
-/

namespace Redis

inductive Value (α : Type) where
  | string (text : String)
  | hash (fields : AList fun _ : String => α)
  | zset (scores : AList fun _ : String => Int)
  | set (members : Finset String)

abbrev Db (α : Type) := String → Option (Value α)

inductive ReplyError where
  | wrongType
  | notInteger
  | notFloat
  | wrongArity
  | syntaxError
  deriving DecidableEq

variable {α : Type}

/-! ### Strings -/

def get (db : Db α) (key : String) : Except ReplyError (Option String) :=
  match db key with
  | none => .ok none
  | some (.string text) => .ok (some text)
  | some _ => .error .wrongType

def set (db : Db α) (key text : String) : Db α :=
  Function.update db key (some (.string text))

def setnx (db : Db α) (key text : String) : Db α :=
  if (db key).isSome then db else set db key text

def del (db : Db α) (key : String) : Db α := Function.update db key none

def incrby (db : Db α) (key : String) (n : Int) : Except ReplyError (Db α) :=
  match get db key with
  | .error e => .error e
  | .ok none => .ok (set db key (toString n))
  | .ok (some text) =>
    match text.toInt? with
    | some old => .ok (set db key (toString (old + n)))
    | none => .error .notInteger

@[simp] theorem get_set (db : Db α) (key text : String) : get (set db key text) key = .ok (some text) := by
  simp [get, set]

theorem set_of_ne (db : Db α) {key other : String} (text : String) (different : other ≠ key) :
    set db key text other = db other :=
  Function.update_of_ne different _ _

theorem del_of_ne (db : Db α) {key other : String} (different : other ≠ key) : del db key other = db other :=
  Function.update_of_ne different _ _

theorem setnx_of_some {db : Db α} {key : String} (text : String) (present : (db key).isSome) :
    setnx db key text = db := if_pos present

theorem setnx_of_ne (db : Db α) {key other : String} (text : String) (different : other ≠ key) :
    setnx db key text other = db other := by
  unfold setnx
  split
  · rfl
  · exact set_of_ne db text different

theorem setnx_set (db : Db α) (key text other : String) : setnx (set db key text) key other = set db key text :=
  setnx_of_some _ (by simp [set])

/-! ### Hashes -/

def hashAt (db : Db α) (key : String) : Except ReplyError (AList fun _ : String => α) :=
  match db key with
  | none => .ok ∅
  | some (.hash fields) => .ok fields
  | some _ => .error .wrongType

/-- A hash left without fields is no key at all. -/
def putHash (db : Db α) (key : String) (fields : AList fun _ : String => α) : Db α :=
  Function.update db key (if fields.entries.isEmpty then none else some (.hash fields))

def hget (db : Db α) (key field : String) : Except ReplyError (Option α) :=
  (hashAt db key).map fun fields => fields.lookup field

def hexists (db : Db α) (key field : String) : Except ReplyError Bool :=
  (hashAt db key).map fun fields => (fields.lookup field).isSome

def hset (db : Db α) (key field : String) (value : α) : Except ReplyError (Db α) :=
  (hashAt db key).map fun fields => putHash db key (fields.insert field value)

def hsetnx (db : Db α) (key field : String) (value : α) : Except ReplyError (Db α) :=
  (hashAt db key).map fun fields =>
    if (fields.lookup field).isSome then db else putHash db key (fields.insert field value)

def hdel (db : Db α) (key field : String) : Except ReplyError (Db α) :=
  (hashAt db key).map fun fields => putHash db key (fields.erase field)

def Holds (db : Db α) (key field : String) (value : α) : Prop := hget db key field = .ok (some value)

theorem map_ok {ε β γ : Type} {f : β → γ} {x : Except ε β} {y : γ} :
    x.map f = .ok y ↔ ∃ b, x = .ok b ∧ f b = y := by
  cases x <;> simp [Except.map]

@[simp] theorem hashAt_putHash (db : Db α) (key : String) (fields : AList fun _ : String => α) :
    hashAt (putHash db key fields) key = .ok fields := by
  simp only [hashAt, putHash, Function.update_self]
  by_cases empty : fields.entries.isEmpty
  · have same : fields = ∅ := AList.ext (List.isEmpty_iff.mp empty)
    rw [if_pos empty, same]
  · rw [if_neg empty]

theorem hashAt_putHash_of_ne (db : Db α) {key other : String} (fields : AList fun _ : String => α)
    (different : other ≠ key) : hashAt (putHash db key fields) other = hashAt db other := by
  simp only [hashAt, putHash, Function.update_of_ne different]

theorem putHash_of_ne (db : Db α) {key other : String} (fields : AList fun _ : String => α)
    (different : other ≠ key) : putHash db key fields other = db other :=
  Function.update_of_ne different _ _

theorem hashAt_congr {db db' : Db α} {key : String} (same : db key = db' key) : hashAt db key = hashAt db' key := by
  simp only [hashAt, same]

/-- What `putHash` leaves at the key. -/
def hashValue (fields : AList fun _ : String => α) : Option (Value α) :=
  if fields.entries.isEmpty then none else some (.hash fields)

def HoldsHash (db : Db α) (key : String) (fields : AList fun _ : String => α) : Prop := db key = hashValue fields

theorem holdsHash_putHash (db : Db α) (key : String) (fields : AList fun _ : String => α) :
    HoldsHash (putHash db key fields) key fields := Function.update_self _ _ _

theorem HoldsHash.read {db : Db α} {key : String} {fields : AList fun _ : String => α}
    (held : HoldsHash db key fields) : hashAt db key = .ok fields := by
  have same : db key = putHash db key fields key := held.trans (holdsHash_putHash db key fields).symm
  rw [hashAt_congr same, hashAt_putHash]

theorem HoldsHash.of_eq {db db' : Db α} {key : String} {fields : AList fun _ : String => α}
    (held : HoldsHash db key fields) (same : db' key = db key) : HoldsHash db' key fields := same.trans held

theorem HoldsHash.absent {db : Db α} {key : String} {fields : AList fun _ : String => α}
    (held : HoldsHash db key fields) (blank : ∀ field, fields.lookup field = none) : db key = none := by
  have empty : fields.entries = [] := by
    apply List.eq_nil_iff_forall_not_mem.mpr
    intro entry member
    exact AList.lookup_eq_none.mp (blank entry.1) (List.mem_map_of_mem member)
  rw [HoldsHash, hashValue, empty] at held
  exact held

theorem hget_congr {db db' : Db α} {key : String} (field : String) (same : db key = db' key) :
    hget db key field = hget db' key field := by
  rw [hget, hget, hashAt_congr same]

theorem hset_ok {db : Db α} {key : String} {fields : AList fun _ : String => α} (field : String) (value : α)
    (read : hashAt db key = .ok fields) :
    hset db key field value = .ok (putHash db key (fields.insert field value)) := by
  simp [hset, read, Except.map]

theorem hsetnx_of_holds {db : Db α} {key field : String} {old : α} (value : α) (held : Holds db key field old) :
    hsetnx db key field value = .ok db := by
  obtain ⟨fields, read, found⟩ := map_ok.mp held
  simp [hsetnx, read, Except.map, found]

theorem hdel_ok {db : Db α} {key : String} {fields : AList fun _ : String => α} (field : String)
    (read : hashAt db key = .ok fields) : hdel db key field = .ok (putHash db key (fields.erase field)) := by
  simp [hdel, read, Except.map]

theorem holds_empty {key field : String} {value : α} : ¬ Holds (fun _ => none : Db α) key field value := by
  intro held
  obtain ⟨fields, read, found⟩ := map_ok.mp held
  obtain rfl := Except.ok.inj read
  simp at found

theorem holds_putHash {db : Db α} {key k f : String} {fields : AList fun _ : String => α} {v : α} :
    Holds (putHash db key fields) k f v ↔
      (k = key ∧ fields.lookup f = some v) ∨ (k ≠ key ∧ Holds db k f v) := by
  by_cases same : k = key
  · subst same
    simp [Holds, hget, Except.map]
  · simp [Holds, hget, hashAt_putHash_of_ne _ _ same, same]

theorem holds_hset {db db' : Db α} {key field k f : String} {value v : α}
    (done : hset db key field value = .ok db') :
    Holds db' k f v ↔ (k = key ∧ f = field ∧ v = value) ∨ (¬ (k = key ∧ f = field) ∧ Holds db k f v) := by
  obtain ⟨fields, read, rfl⟩ := map_ok.mp done
  rw [holds_putHash]
  by_cases here : k = key
  · subst here
    by_cases there : f = field
    · subst there
      simp [AList.lookup_insert, eq_comm]
    · simp [AList.lookup_insert_ne there, there, Holds, hget, read, Except.map]
  · simp [here]

theorem holds_hsetnx {db db' : Db α} {key field k f : String} {value v : α}
    (done : hsetnx db key field value = .ok db') :
    Holds db' k f v ↔
      (k = key ∧ f = field ∧ v = value ∧ hget db key field = .ok none) ∨ Holds db k f v := by
  obtain ⟨fields, read, wrote⟩ := map_ok.mp done
  have reads : hget db key field = .ok (fields.lookup field) := by simp [hget, read, Except.map]
  rw [reads]
  cases found : fields.lookup field with
  | some old =>
    rw [if_pos (by simp [found])] at wrote
    subst wrote
    simp
  | none =>
    rw [if_neg (by simp [found])] at wrote
    subst wrote
    have inserted : hset db key field value = .ok (putHash db key (fields.insert field value)) := by
      simp [hset, read, Except.map]
    rw [holds_hset inserted]
    constructor
    · rintro (⟨rfl, rfl, rfl⟩ | ⟨_, held⟩)
      · exact .inl ⟨rfl, rfl, rfl, rfl⟩
      · exact .inr held
    · rintro (⟨rfl, rfl, rfl, _⟩ | held)
      · exact .inl ⟨rfl, rfl, rfl⟩
      · refine .inr ⟨?_, held⟩
        rintro ⟨rfl, rfl⟩
        rw [Holds, reads, found] at held
        cases held

theorem holds_hdel {db db' : Db α} {key field k f : String} {v : α} (done : hdel db key field = .ok db') :
    Holds db' k f v ↔ ¬ (k = key ∧ f = field) ∧ Holds db k f v := by
  obtain ⟨fields, read, rfl⟩ := map_ok.mp done
  rw [holds_putHash]
  by_cases here : k = key
  · subst here
    by_cases there : f = field
    · subst there
      simp
    · simp [AList.lookup_erase_ne there, there, Holds, hget, read, Except.map]
  · simp [here]

/-! ### Sorted sets -/

def zsetAt (db : Db α) (key : String) : Except ReplyError (AList fun _ : String => Int) :=
  match db key with
  | none => .ok ∅
  | some (.zset scores) => .ok scores
  | some _ => .error .wrongType

def zadd (db : Db α) (key : String) (score : Int) (member : String) : Except ReplyError (Db α) :=
  (zsetAt db key).map fun scores => Function.update db key (some (.zset (scores.insert member score)))

/-- The scores and members of a `ZADD`, in turn. -/
def scorePairs : List String → Except ReplyError (List (Int × String))
  | [] => .ok []
  | [_] => .error .syntaxError
  | score :: member :: rest =>
    match score.toInt? with
    | none => .error .notFloat
    | some n => (scorePairs rest).map fun pairs => (n, member) :: pairs

/-- `ZADD` with the texts that follow the key. -/
def zaddArgs (db : Db α) (key : String) (args : List String) : Except ReplyError (Db α) :=
  if args.length < 2 then .error .wrongArity
  else
    match scorePairs args with
    | .error e => .error e
    | .ok pairs => pairs.foldlM (fun db pair => zadd db key pair.1 pair.2) db

def zrange (db : Db α) (key : String) (start stop : Int) : Except ReplyError (List String) :=
  (zsetAt db key).map fun scores => SortedSet.range scores start stop

/-- A sorted set left without members is no key at all. -/
def zsetValue (scores : AList fun _ : String => Int) : Option (Value α) :=
  if scores.entries.isEmpty then none else some (.zset scores)

def zremrangebyrank (db : Db α) (key : String) (start stop : Int) : Except ReplyError (Db α) :=
  (zsetAt db key).map fun scores => Function.update db key (zsetValue (SortedSet.removeRange scores start stop))

theorem zsetAt_congr {db db' : Db α} {key : String} (same : db key = db' key) : zsetAt db key = zsetAt db' key := by
  simp only [zsetAt, same]

theorem zrange_congr {db db' : Db α} {key : String} {start stop : Int} (same : db key = db' key) :
    zrange db key start stop = zrange db' key start stop := by
  rw [zrange, zrange, zsetAt_congr same]

theorem zadd_ok {db : Db α} {key : String} {scores : AList fun _ : String => Int} (score : Int) (member : String)
    (read : zsetAt db key = .ok scores) :
    zadd db key score member = .ok (Function.update db key (some (.zset (scores.insert member score)))) := by
  simp [zadd, read, Except.map]

theorem zsetAt_of_holds {db : Db α} {key field : String} {value : α} (held : Holds db key field value) :
    zsetAt db key = .error .wrongType := by
  obtain ⟨fields, stored, found⟩ := map_ok.mp held
  unfold hashAt at stored
  unfold zsetAt
  cases at_key : db key with
  | none =>
    rw [at_key] at stored
    obtain rfl := Except.ok.inj stored
    simp at found
  | some value => cases value <;> simp_all

/-- `ZADD` on a key that holds a hash fails, so it never hides a hash field. -/
theorem holds_zadd {db db' : Db α} {key member k f : String} {score : Int} {v : α}
    (done : zadd db key score member = .ok db') : Holds db' k f v ↔ Holds db k f v := by
  obtain ⟨scores, read, rfl⟩ := map_ok.mp done
  by_cases here : k = key
  · subst here
    have before : ¬ Holds db k f v := by
      intro held
      rw [zsetAt_of_holds held] at read
      cases read
    simp only [before, iff_false]
    simp [Holds, hget, hashAt, Except.map]
  · simp [Holds, hget, hashAt, Function.update_of_ne here]

/-! ### Sets -/

def setAt (db : Db α) (key : String) : Except ReplyError (Finset String) :=
  match db key with
  | none => .ok ∅
  | some (.set members) => .ok members
  | some _ => .error .wrongType

/-- A set left without members is no key at all. -/
def putSet (db : Db α) (key : String) (members : Finset String) : Db α :=
  Function.update db key (if members = ∅ then none else some (.set members))

def sismember (db : Db α) (key member : String) : Except ReplyError Bool :=
  (setAt db key).map fun members => decide (member ∈ members)

def sadd (db : Db α) (key member : String) : Except ReplyError (Db α) :=
  (setAt db key).map fun members => putSet db key (insert member members)

def srem (db : Db α) (key member : String) : Except ReplyError (Db α) :=
  (setAt db key).map fun members => putSet db key (members.erase member)

/-- `SADD` with the texts that follow the key. -/
def saddArgs (db : Db α) (key : String) (args : List String) : Except ReplyError (Db α) :=
  if args.isEmpty then .error .wrongArity
  else (setAt db key).map fun members => putSet db key (args.foldl (fun members arg => insert arg members) members)

def sremArgs (db : Db α) (key : String) (args : List String) : Except ReplyError (Db α) :=
  if args.isEmpty then .error .wrongArity
  else (setAt db key).map fun members => putSet db key (args.foldl Finset.erase members)

def sismemberArgs (db : Db α) (key : String) : List String → Except ReplyError Bool
  | [member] => sismember db key member
  | _ => .error .wrongArity

@[simp] theorem setAt_putSet (db : Db α) (key : String) (members : Finset String) :
    setAt (putSet db key members) key = .ok members := by
  simp only [setAt, putSet, Function.update_self]
  by_cases empty : members = ∅
  · rw [if_pos empty, empty]
  · rw [if_neg empty]

theorem putSet_of_ne (db : Db α) {key other : String} (members : Finset String) (different : other ≠ key) :
    putSet db key members other = db other :=
  Function.update_of_ne different _ _

theorem sremArgs_of_ne {db db' : Db α} {key other : String} {args : List String}
    (done : sremArgs db key args = .ok db') (different : other ≠ key) : db' other = db other := by
  unfold sremArgs at done
  split at done
  · cases done
  · obtain ⟨members, -, rfl⟩ := map_ok.mp done
    exact putSet_of_ne db _ different

theorem not_holds_of_setAt {db : Db α} {key field : String} {members : Finset String} {value : α}
    (read : setAt db key = .ok members) : ¬ Holds db key field value := by
  intro held
  obtain ⟨fields, stored, found⟩ := map_ok.mp held
  unfold hashAt at stored
  unfold setAt at read
  cases at_key : db key with
  | none =>
    rw [at_key] at stored
    obtain rfl := Except.ok.inj stored
    simp at found
  | some value => cases value <;> simp_all

/-- No command on sets shows or hides a hash field. -/
theorem holds_putSet {db : Db α} {key k f : String} {members old : Finset String} {v : α}
    (read : setAt db key = .ok old) : Holds (putSet db key members) k f v ↔ Holds db k f v := by
  by_cases here : k = key
  · subst here
    exact iff_of_false (not_holds_of_setAt (setAt_putSet db k members)) (not_holds_of_setAt read)
  · simp [Holds, hget, hashAt, putSet_of_ne _ _ here]

/-! ### Writes elsewhere -/

theorem hset_of_ne {db db' : Db α} {key field other : String} {value : α} (done : hset db key field value = .ok db')
    (different : other ≠ key) : db' other = db other := by
  obtain ⟨fields, -, rfl⟩ := map_ok.mp done
  exact putHash_of_ne db _ different

theorem hsetnx_of_ne {db db' : Db α} {key field other : String} {value : α}
    (done : hsetnx db key field value = .ok db') (different : other ≠ key) : db' other = db other := by
  obtain ⟨fields, -, wrote⟩ := map_ok.mp done
  split at wrote
  · rw [← wrote]
  · rw [← wrote]
    exact putHash_of_ne db _ different

theorem zadd_of_ne {db db' : Db α} {key member other : String} {score : Int}
    (done : zadd db key score member = .ok db') (different : other ≠ key) : db' other = db other := by
  obtain ⟨scores, -, rfl⟩ := map_ok.mp done
  exact Function.update_of_ne different _ _

/-! ### Commands on one key -/

/-- A command whose reply, and what it writes, depend on one key, which alone it writes. -/
def Local (key : String) (command : Db α → Except ReplyError (Db α)) : Prop :=
  ∃ write : Option (Value α) → Except ReplyError (Option (Value α)),
    ∀ db, command db = (write (db key)).map (Function.update db key)

theorem local_hash (key : String) (write : Option (Value α) → (AList fun _ : String => α) → Option (Value α)) :
    Local key fun db => (hashAt db key).map fun fields => Function.update db key (write (db key) fields) := by
  refine ⟨fun held => (hashAt (fun _ => held) key).map (write held), fun db => ?_⟩
  show (hashAt (fun _ => db key) key).map _ = ((hashAt (fun _ => db key) key).map _).map _
  cases hashAt (fun _ => db key) key <;> rfl

theorem local_hset (key field : String) (value : α) : Local key fun db => hset db key field value :=
  local_hash key fun _ fields => hashValue (fields.insert field value)

theorem local_hdel (key field : String) : Local key fun db : Db α => hdel db key field :=
  local_hash key fun _ fields => hashValue (fields.erase field)

theorem local_hsetnx (key field : String) (value : α) : Local key fun db => hsetnx db key field value := by
  have single := local_hash key fun held fields =>
    if (fields.lookup field).isSome then held else hashValue (fields.insert field value)
  convert single using 2 with db
  unfold hsetnx
  congr 1
  funext fields
  split
  · exact (Function.update_eq_self key db).symm
  · rfl

theorem local_zadd (key : String) (score : Int) (member : String) :
    Local key fun db : Db α => zadd db key score member := by
  refine ⟨fun held => (zsetAt (fun _ => held) key).map fun scores => some (.zset (scores.insert member score)),
    fun db => ?_⟩
  show (zsetAt (fun _ => db key) key).map _ = ((zsetAt (fun _ => db key) key).map _).map _
  cases zsetAt (fun _ => db key) key <;> rfl

end Redis
