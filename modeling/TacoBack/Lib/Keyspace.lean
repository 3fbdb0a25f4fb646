import TacoBack.Lib.Redis

/-!
# Key spaces

The part of a store under the keys that one program owns. A command on an owned key does to the part
what it does to the whole, and a command on another key leaves the part as it is.
-/

namespace Redis

variable {α : Type} {P : String → Bool} {db db' : Db α} {key : String}

def restrict (P : String → Bool) (db : Db α) : Db α := fun key => if P key then db key else none

theorem restrict_own (own : P key = true) : restrict P db key = db key := if_pos own

theorem restrict_update (own : P key = true) (value : Option (Value α)) :
    restrict P (Function.update db key value) = Function.update (restrict P db) key value := by
  funext other
  by_cases same : other = key
  · subst same
    rw [restrict_own own, Function.update_self, Function.update_self]
  · simp only [restrict, Function.update_of_ne same]

theorem restrict_congr (same : ∀ key, P key = true → db' key = db key) : restrict P db' = restrict P db := by
  funext key
  by_cases own : P key = true
  · rw [restrict_own own, restrict_own own, same key own]
  · simp only [restrict, if_neg own]

@[simp] theorem restrict_empty : restrict P (fun _ => none : Db α) = fun _ => none := by
  funext key
  simp [restrict]

/-! ### Commands -/

theorem Local.restrict {command : Db α → Except ReplyError (Db α)} (single : Local key command)
    (own : P key = true) (db : Db α) : command (restrict P db) = (command db).map (restrict P) := by
  obtain ⟨write, same⟩ := single
  rw [same, same, restrict_own own]
  cases write (db key) with
  | error e => rfl
  | ok value => exact congrArg Except.ok (restrict_update own value).symm

theorem Local.restrict_ok {command : Db α → Except ReplyError (Db α)} (single : Local key command)
    (own : P key = true) (done : command db = .ok db') : command (Redis.restrict P db) = .ok (Redis.restrict P db') := by
  rw [single.restrict own, done]
  rfl

/-- A command writes its own key alone. -/
theorem Local.of_ne {command : Db α → Except ReplyError (Db α)} (single : Local key command)
    (done : command db = .ok db') {other : String} (different : other ≠ key) : db' other = db other := by
  obtain ⟨write, same⟩ := single
  rw [same] at done
  obtain ⟨value, -, rfl⟩ := map_ok.mp done
  exact Function.update_of_ne different _ _

theorem get_restrict (own : P key = true) : get (restrict P db) key = get db key := by
  simp only [get, restrict_own own]

theorem set_restrict (own : P key = true) (text : String) :
    restrict P (set db key text) = set (restrict P db) key text :=
  restrict_update own _

theorem setnx_restrict (own : P key = true) (text : String) :
    restrict P (setnx db key text) = setnx (restrict P db) key text := by
  unfold setnx
  rw [restrict_own own]
  split
  · rfl
  · exact set_restrict own text

theorem del_restrict (own : P key = true) : restrict P (del db key) = del (restrict P db) key :=
  restrict_update own _

theorem local_incrby (key : String) (n : Int) : Local key fun db : Db α => incrby db key n := by
  refine ⟨fun held => (incrby (fun _ => held) key n).map fun after => after key, fun db => ?_⟩
  have same : get (fun _ => db key) key = get db key := rfl
  simp only [incrby, same]
  cases get db key with
  | error e => rfl
  | ok text =>
    cases text with
    | none => simp [Except.map, set]
    | some text =>
      dsimp only
      cases text.toInt? <;> simp [Except.map, set]

theorem local_srem (key member : String) : Local key fun db : Db α => srem db key member := by
  refine ⟨fun held => (setAt (fun _ => held) key).map fun members =>
    if members.erase member = ∅ then none else some (.set (members.erase member)), fun db => ?_⟩
  show (setAt (fun _ => db key) key).map _ = ((setAt (fun _ => db key) key).map _).map _
  cases setAt (fun _ => db key) key <;> rfl

/-! ### Types -/

/-- Each key that is there holds a value that its name allows. -/
def Typed (allowed : String → Value α → Prop) (db : Db α) : Prop := ∀ key value, db key = some value → allowed key value

variable {allowed : String → Value α → Prop}

theorem typed_empty : Typed allowed (fun _ => none : Db α) := by
  intro key value held
  cases held

theorem Typed.update (typed : Typed allowed db) {value : Option (Value α)}
    (fits : ∀ held, value = some held → allowed key held) : Typed allowed (Function.update db key value) := by
  intro other held present
  by_cases same : other = key
  · subst same
    rw [Function.update_self] at present
    exact fits held present
  · rw [Function.update_of_ne same] at present
    exact typed other held present

theorem Typed.set (typed : Typed allowed db) {text : String} (fits : allowed key (.string text)) :
    Typed allowed (set db key text) := by
  refine typed.update fun held same => ?_
  obtain rfl := Option.some.inj same
  exact fits

theorem Typed.setnx (typed : Typed allowed db) {text : String} (fits : allowed key (.string text)) :
    Typed allowed (setnx db key text) := by
  unfold Redis.setnx
  split
  · exact typed
  · exact typed.set fits

theorem Typed.del (typed : Typed allowed db) : Typed allowed (del db key) :=
  typed.update fun _ same => by cases same

theorem Typed.putHash (typed : Typed allowed db) {fields : AList fun _ : String => α}
    (fits : allowed key (.hash fields)) : Typed allowed (putHash db key fields) := by
  refine typed.update fun held same => ?_
  split at same
  · cases same
  · obtain rfl := Option.some.inj same
    exact fits

/-- A string command meets no value of another type where the name of the key allows strings alone. -/
theorem Typed.get_ok (typed : Typed allowed db) (texts : ∀ value, allowed key value → ∃ text, value = .string text) :
    ∃ text, get db key = .ok text := by
  unfold get
  cases held : db key with
  | none => exact ⟨none, rfl⟩
  | some value =>
    obtain ⟨text, rfl⟩ := texts value (typed key value held)
    exact ⟨some text, rfl⟩

theorem Typed.absent (typed : Typed allowed db) (none : ∀ value, ¬ allowed key value) : db key = .none := by
  cases held : db key with
  | none => rfl
  | some value => exact (none value (typed key value held)).elim

end Redis
