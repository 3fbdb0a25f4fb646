import Mathlib.Data.List.TakeWhile
import TacoBack.Lib.Json
import TacoBack.Lib.Properties

/-!
# DtoPipe

`transform` replaces the ids of an object by bigints, one key after another and in place. The object that lists the
converters inherits properties as every object does, and the loop takes those for converters too.
-/

namespace TacoBack.DtoPipe

/-- What `BigInt` and the inherited functions throw. -/
inductive Fault where
  | syntaxError
  | rangeError
  | typeError
  deriving DecidableEq

/-- `inherited` is what plain objects inherit under a name, if it is truthy: what calling it with a value, as a
method of `converter`, returns or throws. -/
structure Globals (V : Type) where
  BigInt : V → Except Fault V
  inherited : String → Option (V → Except Fault V)

variable {V : Type} (globals : Globals V)

def converter (key : String) : Option (V → Except Fault V) :=
  if key = "gid" then some globals.BigInt
  else if key = "tid" then some globals.BigInt
  else globals.inherited key

/-- The loop over the keys, with the object as it stands when the loop ends. -/
def transformKeys : List String → (AList fun _ : String => V) → Except Fault Unit × AList fun _ : String => V
  | [], value => (.ok (), value)
  | key :: keys, value =>
    match converter globals key, value.lookup key with
    | some convert, some old =>
      match convert old with
      | .ok new => transformKeys keys (value.replace key new)
      | .error fault => (.error fault, value)
    | _, _ => transformKeys keys value

/-- The outcome and the object that was given, as the call leaves it. On success that object is returned. -/
def transform (value : AList fun _ : String => V) : Except Fault Unit × AList fun _ : String => V :=
  transformKeys globals value.keys value

def IsId (key : String) : Prop := key = "gid" ∨ key = "tid"

/-- What the loop makes of a value under a key. -/
def convert (key : String) (old : V) : Except Fault V :=
  match converter globals key with
  | some convert => convert old
  | none => .ok old

/-- The conversion of a key does not throw. -/
def converts (value : AList fun _ : String => V) (key : String) : Bool :=
  match value.lookup key with
  | some old => (convert globals key old).isOk
  | none => true

/-- The first key, in property order, whose conversion throws. -/
def failing (value : AList fun _ : String => V) : Option String :=
  value.keys.find? fun key => !converts globals value key

/-- The keys before that one. -/
def reached (value : AList fun _ : String => V) : List String :=
  value.keys.takeWhile (converts globals value)

/-- Conversion gives the value of a key back. -/
def Kept (value : AList fun _ : String => V) (key : String) : Prop :=
  ∀ old, value.lookup key = some old → convert globals key old = .ok old

/-- Ids are converted and nothing else, or nothing at all if an id makes the call throw. -/
def ConvertsIds (value : AList fun _ : String => V) : Prop :=
  (∀ after, transform globals value = (.ok (), after) →
    (∀ key old, IsId key → value.lookup key = some old →
      ∃ id, globals.BigInt old = .ok id ∧ after.lookup key = some id) ∧
    ∀ key, ¬ IsId key → after.lookup key = value.lookup key) ∧
  ∀ key, failing globals value = some key → IsId key → (transform globals value).2 = value

variable {globals} {value : AList fun _ : String => V} {key : String} {keys : List String} {old new : V} {fault : Fault}

theorem converter_id (named : IsId key) : converter globals key = some globals.BigInt := by
  obtain rfl | rfl := named <;> rfl

theorem converter_other (other : ¬ IsId key) : converter globals key = globals.inherited key := by
  obtain ⟨notGid, notTid⟩ := not_or.mp other
  rw [converter, if_neg notGid, if_neg notTid]

theorem convert_id (named : IsId key) (old : V) : convert globals key old = globals.BigInt old := by
  rw [convert, converter_id named]

theorem replace_same (found : value.lookup key = some old) : value.replace key old = value := by
  refine AList.eq_of_lookup (AList.keys_replace ..) fun other => ?_
  rw [AList.lookup_replace]
  split
  · rename_i same
    rw [same, found, Option.map_some]
  · rfl

theorem transformKeys_ok (found : value.lookup key = some old) (made : convert globals key old = .ok new) :
    transformKeys globals (key :: keys) value = transformKeys globals keys (value.replace key new) := by
  rw [transformKeys, found]
  unfold convert at made
  cases calls : converter globals key with
  | some convert =>
    rw [calls] at made
    dsimp only at made ⊢
    rw [made]
  | none =>
    rw [calls] at made
    rw [← Except.ok.inj made, replace_same found]

theorem transformKeys_error (found : value.lookup key = some old) (thrown : convert globals key old = .error fault) :
    transformKeys globals (key :: keys) value = (.error fault, value) := by
  rw [transformKeys, found]
  unfold convert at thrown
  cases calls : converter globals key with
  | some convert =>
    rw [calls] at thrown
    dsimp only at thrown ⊢
    rw [thrown]
  | none =>
    rw [calls] at thrown
    cases thrown

theorem converts_iff (found : value.lookup key = some old) :
    converts globals value key = true ↔ ∃ new, convert globals key old = .ok new := by
  rw [converts, found]
  cases made : convert globals key old <;> simp [made, Except.isOk, Except.toBool]

theorem transformKeys_keys : (transformKeys globals keys value).2.keys = value.keys := by
  induction keys generalizing value with
  | nil => rfl
  | cons key keys ih =>
    rw [transformKeys]
    split
    · split
      · rw [ih, AList.keys_replace]
      · rfl
    · exact ih

theorem agree_replace {first : String} {start : AList fun _ : String => V} (fresh : first ∉ keys)
    (agree : ∀ key ∈ first :: keys, value.lookup key = start.lookup key) (new : V) :
    ∀ key ∈ keys, (value.replace first new).lookup key = start.lookup key := by
  intro key member
  have different : key ≠ first := fun same => fresh (same ▸ member)
  rw [AList.lookup_replace_of_ne _ different, agree key (List.mem_cons_of_mem _ member)]

/-- The keys up to the first whose conversion throws are converted, each from its value at the start. -/
theorem transformKeys_spec {start : AList fun _ : String => V} (distinct : keys.Nodup)
    (own : ∀ key ∈ keys, key ∈ start) (agree : ∀ key ∈ keys, value.lookup key = start.lookup key) :
    ((transformKeys globals keys value).1 = .ok () ↔ ∀ key ∈ keys, converts globals start key = true) ∧
    ∀ key, (transformKeys globals keys value).2.lookup key =
      if key ∈ keys.takeWhile (converts globals start) then
        (start.lookup key).bind fun old => (convert globals key old).toOption
      else value.lookup key := by
  induction keys generalizing value with
  | nil => exact ⟨by simp [transformKeys], fun _ => rfl⟩
  | cons first keys ih =>
    obtain ⟨fresh, distinct⟩ := List.nodup_cons.mp distinct
    obtain ⟨old, stored⟩ := Option.isSome_iff_exists.mp (AList.lookup_isSome.mpr (own first List.mem_cons_self))
    have found := (agree first List.mem_cons_self).trans stored
    have goesOn : converts globals start first = true ↔ _ := converts_iff stored
    cases made : convert globals first old with
    | error fault =>
      rw [made] at goesOn
      have stops : ¬ converts globals start first = true := fun ok => nomatch (goesOn.mp ok).choose_spec
      rw [transformKeys_error found made, List.takeWhile_cons_of_neg stops, List.forall_mem_cons]
      exact ⟨⟨nofun, fun all => (stops all.1).elim⟩, fun _ => rfl⟩
    | ok new =>
      have converted := goesOn.mpr ⟨new, made⟩
      obtain ⟨succeeds, rest⟩ := ih distinct (fun key member => own key (List.mem_cons_of_mem _ member))
        (agree_replace fresh agree new)
      rw [transformKeys_ok found made, List.takeWhile_cons_of_pos converted, List.forall_mem_cons]
      refine ⟨succeeds.trans ⟨fun all => ⟨converted, all⟩, And.right⟩, fun key => ?_⟩
      rw [rest key]
      by_cases same : key = first
      · subst same
        have absent : key ∉ keys.takeWhile (converts globals start) :=
          fun member => fresh (List.takeWhile_subset _ member)
        have present : key ∈ value := AList.lookup_isSome.mp (by rw [found]; rfl)
        rw [if_neg absent, if_pos List.mem_cons_self, stored, AList.lookup_replace_self present, Option.bind_some, made]
        rfl
      · simp only [List.mem_cons, same, false_or, AList.lookup_replace_of_ne _ same]

theorem transform_keys : (transform globals value).2.keys = value.keys := transformKeys_keys

theorem transform_ok_iff : (transform globals value).1 = .ok () ↔ failing globals value = none := by
  rw [transform, (transformKeys_spec value.keys_nodup (fun _ => AList.mem_keys.mpr) fun _ _ => rfl).1, failing,
    List.find?_eq_none]
  simp

theorem transform_lookup (key : String) : (transform globals value).2.lookup key =
    if key ∈ reached globals value then (value.lookup key).bind fun old => (convert globals key old).toOption
    else value.lookup key :=
  (transformKeys_spec value.keys_nodup (fun _ => AList.mem_keys.mpr) fun _ _ => rfl).2 key

theorem transform_reached (before : key ∈ reached globals value) : ∃ old new, value.lookup key = some old ∧
    convert globals key old = .ok new ∧ (transform globals value).2.lookup key = some new := by
  have own : key ∈ value := AList.mem_keys.mpr (List.takeWhile_subset _ before)
  obtain ⟨old, found⟩ := Option.isSome_iff_exists.mp (AList.lookup_isSome.mpr own)
  obtain ⟨new, made⟩ := (converts_iff found).mp (List.mem_takeWhile_imp before)
  refine ⟨old, new, found, made, ?_⟩
  rw [transform_lookup, if_pos before, found, Option.bind_some, made]
  rfl

theorem transform_not_reached (beyond : key ∉ reached globals value) :
    (transform globals value).2.lookup key = value.lookup key := by
  rw [transform_lookup, if_neg beyond]

theorem reached_of_ok (ok : failing globals value = none) (found : value.lookup key = some old) :
    key ∈ reached globals value := by
  have all : value.keys.takeWhile (converts globals value) = value.keys :=
    List.takeWhile_eq_self_iff.mpr (by simpa [failing] using ok)
  rw [reached, all]
  exact AList.mem_keys.mp (AList.lookup_isSome.mp (by rw [found]; rfl))

theorem reached_failing (stops : failing globals value = some key) :
    ∃ later, value.keys = reached globals value ++ key :: later := by
  obtain ⟨-, before, later, split, all⟩ := List.find?_eq_some_iff_append.mp stops
  have converting : ∀ earlier ∈ before, converts globals value earlier = true := by simpa using all
  have stopped : ¬ converts globals value key = true := by simpa using List.find?_some stops
  refine ⟨later, ?_⟩
  rw [reached, split, List.takeWhile_append_of_pos converting, List.takeWhile_cons_of_neg stopped, List.append_nil]

theorem lookup_transform_iff (before : key ∈ reached globals value) :
    (transform globals value).2.lookup key = value.lookup key ↔ Kept globals value key := by
  obtain ⟨old, new, found, made, after⟩ := transform_reached before
  rw [after, found]
  constructor
  · intro same given present
    rw [← Option.some.inj (found.symm.trans present), made, Option.some.inj same]
  · intro kept
    exact congrArg some (Except.ok.inj (made.symm.trans (kept old found)))

theorem transform_id (named : IsId key) (before : key ∈ reached globals value) (found : value.lookup key = some old) :
    ∃ id, globals.BigInt old = .ok id ∧ (transform globals value).2.lookup key = some id := by
  obtain ⟨given, id, present, made, after⟩ := transform_reached before
  rw [convert_id named, ← Option.some.inj (found.symm.trans present)] at made
  exact ⟨id, made, after⟩

theorem transform_eq_iff :
    (transform globals value).2 = value ↔ ∀ key ∈ reached globals value, Kept globals value key := by
  constructor
  · intro same key before
    rw [← lookup_transform_iff before, same]
  · intro kept
    refine AList.eq_of_lookup transform_keys fun key => ?_
    by_cases before : key ∈ reached globals value
    · exact (lookup_transform_iff before).mpr (kept key before)
    · exact transform_not_reached before

/-- A call that succeeds keeps the other keys if and only if their conversions do. -/
theorem others_iff (ok : failing globals value = none) :
    (∀ key, ¬ IsId key → (transform globals value).2.lookup key = value.lookup key) ↔
      ∀ key, ¬ IsId key → Kept globals value key := by
  refine forall₂_congr fun key _ => ?_
  by_cases before : key ∈ reached globals value
  · exact lookup_transform_iff before
  · refine iff_of_true (transform_not_reached before) fun old found => ?_
    exact (before (reached_of_ok ok found)).elim

/-- All of it holds of exactly the objects on which inherited functions change nothing, and of which an id that
fails is met before anything is changed. -/
theorem convertsIds_iff (globals : Globals V) (value : AList fun _ : String => V) : ConvertsIds globals value ↔
    (failing globals value = none → ∀ key, ¬ IsId key → Kept globals value key) ∧
    ∀ key, failing globals value = some key → IsId key →
      ∀ earlier ∈ reached globals value, Kept globals value earlier := by
  simp only [ConvertsIds, transform_eq_iff]
  refine and_congr_left fun _ => ?_
  constructor
  · intro property ok
    have succeeded : transform globals value = (.ok (), (transform globals value).2) :=
      Prod.ext (transform_ok_iff.mpr ok) rfl
    exact (others_iff ok).mp (property _ succeeded).2
  · intro kept after succeeded
    have ok := transform_ok_iff.mp (congrArg Prod.fst succeeded)
    obtain rfl : (transform globals value).2 = after := congrArg Prod.snd succeeded
    exact ⟨fun key old named found => transform_id named (reached_of_ok ok found) found,
      (others_iff ok).mpr (kept ok)⟩

/-! ### Two objects -/

inductive Value where
  | json (value : Json)
  | bigint (n : Int)

def Value.toBigInt : Value → Except Fault Value
  | .bigint n | .json (.num n) => .ok (.bigint n)
  | .json (.bool b) => .ok (.bigint b.toNat)
  | .json (.float _) => .error .rangeError
  | .json (.str text) =>
    match text.toInt? with
    | some n => .ok (.bigint n)
    | none => .error .syntaxError
  | .json .null => .error .typeError
  | .json _ => .error .syntaxError

/-- `BigInt` of numbers and decimal texts, and three of the names that objects inherit. -/
def sampleGlobals : Globals Value where
  BigInt := Value.toBigInt
  inherited
    | "toString" => some fun _ => .ok (.json (.str "[object Object]"))
    | "hasOwnProperty" => some fun
      | .json (.str name) => .ok (.json (.bool (name = "gid" ∨ name = "tid")))
      | _ => .ok (.json (.bool false))
    | "__proto__" => some fun _ => .error .typeError
    | _ => none

def sampleNamed : AList fun _ : String => Value :=
  ⟨[⟨"gid", .json (.num 123123)⟩, ⟨"toString", .json (.num 1)⟩], by simp⟩

def sampleMixed : AList fun _ : String => Value :=
  ⟨[⟨"gid", .json (.num 123123)⟩, ⟨"tid", .json (.float "1.5")⟩], by simp⟩

/-- The key toString is overwritten, and a gid stays converted when tid is no integer. -/
theorem not_only_ids : ¬ ConvertsIds sampleGlobals sampleNamed ∧ ¬ ConvertsIds sampleGlobals sampleMixed := by
  constructor
  · rintro ⟨success, -⟩
    have kept := (success _ rfl).2 "toString" (by unfold IsId; decide)
    cases kept
  · rintro ⟨-, failure⟩
    have unchanged := failure "tid" rfl (.inr rfl)
    have gid := congrArg (AList.lookup "gid") unchanged
    cases gid

/-- Ids are converted up to the one that fails, where the call stops; keys that are neither ids nor inherited by every
object are left alone. -/
theorem transform_converts (globals : Globals V) (value : AList fun _ : String => V) :
    (transform globals value).2.keys = value.keys ∧
    (∀ key, ¬ IsId key → globals.inherited key = none →
      (transform globals value).2.lookup key = value.lookup key) ∧
    ((transform globals value).1 = .ok () → ∀ key old, IsId key → value.lookup key = some old →
      ∃ id, globals.BigInt old = .ok id ∧ (transform globals value).2.lookup key = some id) ∧
    ∀ key, failing globals value = some key → IsId key →
      (transform globals value).1 ≠ .ok () ∧
      ∃ before after, value.keys = before ++ key :: after ∧
        (∀ earlier ∈ before, IsId earlier → ∀ old, value.lookup earlier = some old →
          ∃ id, globals.BigInt old = .ok id ∧ (transform globals value).2.lookup earlier = some id) ∧
        ∀ later ∈ key :: after, (transform globals value).2.lookup later = value.lookup later := by
  refine ⟨transform_keys, fun key other absent => ?_, fun ok key old named found => ?_,
    fun key stops named => ⟨?_, ?_⟩⟩
  · by_cases before : key ∈ reached globals value
    · refine (lookup_transform_iff before).mpr fun old _ => ?_
      rw [convert, converter_other other, absent]
    · exact transform_not_reached before
  · exact transform_id named (reached_of_ok (transform_ok_iff.mp ok) found) found
  · intro ok
    cases stops.symm.trans (transform_ok_iff.mp ok)
  · obtain ⟨after, split⟩ := reached_failing stops
    have distinct := value.keys_nodup
    rw [split] at distinct
    refine ⟨_, after, split, fun earlier before named old found => transform_id named before found, ?_⟩
    intro later member
    exact transform_not_reached fun before => List.disjoint_of_nodup_append distinct before member

end TacoBack.DtoPipe
