import TacoBack.Lib.Aggregate
import TacoBack.Lib.Mongo

/-!
# Updates

What an object-document mapper makes of an update object: keys of the schema are set to their values,
and keys that begin with `$` are operators on the fields they name.
-/

namespace Update

open Aggregate

/-- What an update makes of one field of a document: `none` refuses, `some none` removes the field. -/
structure Edit where
  field : String
  value : Document → Option (Option Json)

/-- `operator name field arg` has the edits of one entry under an operator other than `$set`. -/
structure Driver where
  schema : List String
  cast : String → Json → Option Json
  operator : String → String → Json → Option (List Edit)

def isOperator (key : String) : Bool := key.toList.head? == some '$'

/-- The entries under an operator; only objects and arrays have any. -/
def entries : Json → Option (List (String × Json))
  | .obj fields => some fields
  | .arr _ => some []
  | _ => none

variable (driver : Driver)

def assign (field : String) (value : Json) : Option Edit :=
  (driver.cast field value).map fun cast => { field := field, value := fun _ => some (some cast) }

/-- The edits of one entry of an update object. A plain key wins over the same one under `$set`. -/
def castEntry (update : List (String × Json)) (entry : String × Json) : Option (List Edit) :=
  if isOperator entry.1 then
    match entries entry.2 with
    | none => none
    | some fields =>
      if entry.1 = "$set" then
        (fields.filter fun field => driver.schema.contains field.1 && (update.lookup field.1).isNone).mapM
          fun field => assign driver field.1 field.2
      else
        ((fields.filter fun field => driver.schema.contains field.1).mapM fun field =>
          driver.operator entry.1 field.1 field.2).map List.flatten
  else if driver.schema.contains entry.1 then (assign driver entry.1 entry.2).map fun edit => [edit]
  else some []

/-- Keys that are not in the schema are dropped; a value that cannot be cast refuses the update. -/
def castUpdate (update : List (String × Json)) : Option (List Edit) :=
  (update.mapM (castEntry driver update)).map List.flatten

def put (field : String) (value : Option Json) (doc : Document) : Document :=
  match value with
  | some value => setField field value doc
  | none => exclude [field] doc

def applyFrom (doc : Document) : List Edit → Document → Option Document
  | [], edited => some edited
  | edit :: edits, edited =>
    match edit.value doc with
    | none => none
    | some value => applyFrom doc edits (put edit.field value edited)

/-- Two edits of one field conflict, and the field `immutable` stays as it is. -/
def apply (immutable : String) (edits : List Edit) (doc : Document) : Option Document :=
  if (edits.map Edit.field).Nodup then
    (applyFrom doc edits doc).filter fun edited => edited.lookup immutable == doc.lookup immutable
  else none

variable {driver} {doc edited doc' : Document} {field other immutable : String} {edits : List Edit}

/-! ### What a document looks like after its edits -/

theorem lookup_put (field : String) (value : Option Json) (doc : Document) (other : String) :
    (put field value doc).lookup other = if other = field then value else doc.lookup other := by
  cases value with
  | some value => exact lookup_setField field value doc other
  | none =>
    unfold put exclude
    by_cases same : other = field
    · rw [if_pos same, List.lookup_eq_none_iff]
      intro entry member
      have kept := (List.mem_filter.mp member).2
      simp only [List.contains_cons, List.contains_nil, Bool.or_false, Bool.not_eq_true', beq_eq_false_iff_ne] at kept
      simpa [same] using Ne.symm kept
    · rw [if_neg same]
      exact @lookup_filter other (fun name => !List.contains [field] name) doc (by simp [same])

theorem lookup_applyFrom (done : applyFrom doc edits edited = some doc') (distinct : (edits.map Edit.field).Nodup) :
    (∀ edit ∈ edits, edit.value doc = some (doc'.lookup edit.field)) ∧
      ∀ field, field ∉ edits.map Edit.field → doc'.lookup field = edited.lookup field := by
  induction edits generalizing edited with
  | nil =>
    obtain rfl := Option.some.inj done
    exact ⟨by simp, fun _ _ => rfl⟩
  | cons edit edits ih =>
    unfold applyFrom at done
    split at done
    · cases done
    rename_i value given
    rw [List.map_cons, List.nodup_cons] at distinct
    obtain ⟨written, kept⟩ := ih done distinct.2
    constructor
    · rw [List.forall_mem_cons]
      refine ⟨?_, written⟩
      rw [given, kept _ distinct.1, lookup_put, if_pos rfl]
    · intro field absent
      rw [List.map_cons, List.mem_cons, not_or] at absent
      rw [kept field absent.2, lookup_put, if_neg absent.1]

theorem lookup_apply (done : apply immutable edits doc = some doc') :
    (∀ edit ∈ edits, edit.value doc = some (doc'.lookup edit.field)) ∧
      (∀ field, field ∉ edits.map Edit.field → doc'.lookup field = doc.lookup field) ∧
      doc'.lookup immutable = doc.lookup immutable := by
  unfold apply at done
  split at done
  · rename_i distinct
    obtain ⟨edited, kept⟩ := Option.filter_eq_some_iff.mp done
    obtain ⟨written, others⟩ := lookup_applyFrom edited distinct
    exact ⟨written, others, by simpa using kept⟩
  · cases done

/-- The fields outside `allowed` stay as they are exactly if no edit gives one of them a new value. -/
theorem apply_keeps_iff (done : apply immutable edits doc = some doc') (allowed : String → Prop) :
    (∀ field, ¬ allowed field → doc'.lookup field = doc.lookup field) ↔
      ∀ edit ∈ edits, ¬ allowed edit.field → edit.value doc = some (doc.lookup edit.field) := by
  obtain ⟨written, others, -⟩ := lookup_apply done
  constructor
  · intro keeps edit member outside
    rw [written edit member, keeps edit.field outside]
  · intro same field outside
    by_cases edited : field ∈ edits.map Edit.field
    · obtain ⟨edit, member, rfl⟩ := List.mem_map.mp edited
      exact Option.some.inj ((written edit member).symm.trans (same edit member outside))
    · exact others field edited

/-! ### Plain updates -/

theorem forall₂_of_mapM {α β : Type} {f : α → Option β} {xs : List α} {ys : List β} (all : xs.mapM f = some ys) :
    List.Forall₂ (fun x y => f x = some y) xs ys := by
  induction xs generalizing ys with
  | nil =>
    obtain rfl := Option.some.inj all
    exact .nil
  | cons x xs ih =>
    rw [List.mapM_cons] at all
    obtain ⟨y, first, rest⟩ := Option.bind_eq_some_iff.mp all
    obtain ⟨zs, others, same⟩ := Option.bind_eq_some_iff.mp rest
    obtain rfl := Option.some.inj same
    exact .cons first (ih others)

theorem assign_eq_some {field : String} {value : Json} {edit : Edit} (given : assign driver field value = some edit) :
    edit.field = field ∧ ∀ doc, edit.value doc = (driver.cast field value).map some := by
  obtain ⟨cast, casts, rfl⟩ := Option.map_eq_some_iff.mp given
  exact ⟨rfl, fun _ => by rw [casts]; rfl⟩

theorem castEntry_plain {update : List (String × Json)} {entry : String × Json} (plain : isOperator entry.1 = false) :
    castEntry driver update entry =
      if driver.schema.contains entry.1 then (assign driver entry.1 entry.2).map fun edit => [edit] else some [] := by
  unfold castEntry
  rw [plain, if_neg Bool.false_ne_true]

/-- An update without operators sets the keys that are in the schema. -/
theorem castUpdate_plain {update : List (String × Json)} (plain : ∀ entry ∈ update, isOperator entry.1 = false) :
    castUpdate driver update =
      (update.filter fun entry => driver.schema.contains entry.1).mapM fun entry => assign driver entry.1 entry.2 := by
  have each : ∀ rest : List (String × Json), (∀ entry ∈ rest, isOperator entry.1 = false) →
      (rest.mapM (castEntry driver update)).map List.flatten =
        (rest.filter fun entry => driver.schema.contains entry.1).mapM fun entry => assign driver entry.1 entry.2 := by
    intro rest
    induction rest with
    | nil => exact fun _ => rfl
    | cons entry rest ih =>
      intro plain
      rw [List.forall_mem_cons] at plain
      have tail := ih plain.2
      rw [List.mapM_cons, castEntry_plain plain.1, List.filter_cons]
      by_cases known : driver.schema.contains entry.1
      · rw [if_pos known, if_pos known, List.mapM_cons, ← tail]
        cases assign driver entry.1 entry.2 <;> cases rest.mapM (castEntry driver update) <;> rfl
      · rw [if_neg known, if_neg known, ← tail]
        cases rest.mapM (castEntry driver update) <;> rfl
  exact each update plain

section Plain

variable {update : List (String × Json)}

theorem castUpdate_entries (plain : ∀ entry ∈ update, isOperator entry.1 = false)
    (cast : castUpdate driver update = some edits) :
    List.Forall₂ (fun entry edit => assign driver entry.1 entry.2 = some edit)
      (update.filter fun entry => driver.schema.contains entry.1) edits :=
  forall₂_of_mapM ((castUpdate_plain plain).symm.trans cast)

/-- Whatever the edits of a plain update give the fields they name is what the casts of its keys give. -/
theorem forall_edits_iff (plain : ∀ entry ∈ update, isOperator entry.1 = false)
    (cast : castUpdate driver update = some edits) {P : String → Option (Option Json) → Prop} :
    (∀ edit ∈ edits, P edit.field (edit.value doc)) ↔
      ∀ entry ∈ update, entry.1 ∈ driver.schema → P entry.1 ((driver.cast entry.1 entry.2).map some) := by
  have each := castUpdate_entries plain cast
  clear cast
  have known : (∀ edit ∈ edits, P edit.field (edit.value doc)) ↔
      ∀ entry ∈ update.filter fun entry => driver.schema.contains entry.1,
        P entry.1 ((driver.cast entry.1 entry.2).map some) := by
    generalize (update.filter fun entry => driver.schema.contains entry.1) = known at each ⊢
    induction each with
    | nil => simp
    | cons given _ ih =>
      obtain ⟨field, value⟩ := assign_eq_some given
      rw [List.forall_mem_cons, List.forall_mem_cons, ih, field, value]
  rw [known]
  simp only [List.mem_filter, List.contains_iff_mem, and_imp]

end Plain

end Update
