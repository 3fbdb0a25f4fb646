import Mathlib.Data.List.Nodup
import TacoBack.Lib.Json

/-!
# Collections and filters

A collection is the list of its documents in natural order. A filter value is any JSON value: the
driver casts plain values to the type of the field and reads objects and arrays as operators.
-/

namespace Mongo

variable {α β : Type}

/-! ### Collections -/

def updateOne (p : α → Bool) (f : α → α) : List α → List α
  | [] => []
  | doc :: docs => if p doc then f doc :: docs else doc :: updateOne p f docs

def deleteOne (p : α → Bool) (docs : List α) : List α := docs.eraseP p

theorem updateOne_map {p : α → Bool} {f : α → α} {g : α → β} (keeps : ∀ doc, g (f doc) = g doc) (docs : List α) :
    (updateOne p f docs).map g = docs.map g := by
  induction docs with
  | nil => rfl
  | cons doc docs ih =>
    simp only [updateOne]
    split
    · simp [keeps]
    · simp [ih]

theorem updateOne_of_none {p : α → Bool} {f : α → α} {docs : List α} (none : docs.find? p = none) :
    updateOne p f docs = docs := by
  induction docs with
  | nil => rfl
  | cons doc docs ih =>
    rw [List.find?_cons] at none
    cases hit : p doc <;> simp only [hit] at none
    · simp [updateOne, hit, ih none]
    · cases none

/-- The document found, between those before it and those after it. -/
theorem split_found {p : α → Bool} {docs : List α} {doc : α} (found : docs.find? p = some doc) :
    ∃ pre post, docs = pre ++ doc :: post ∧ (∀ f, updateOne p f docs = pre ++ f doc :: post) ∧
      deleteOne p docs = pre ++ post := by
  induction docs with
  | nil => simp at found
  | cons first docs ih =>
    rw [List.find?_cons] at found
    cases hit : p first <;> simp only [hit] at found
    · obtain ⟨pre, post, whole, changed, rest⟩ := ih found
      refine ⟨first :: pre, post, by rw [whole]; rfl, fun f => ?_, ?_⟩
      · rw [updateOne, if_neg (by simp [hit]), changed]
        rfl
      · unfold deleteOne at rest ⊢
        rw [List.eraseP_cons_of_neg (by simp [hit]), rest]
        rfl
    · obtain rfl := Option.some.inj found
      exact ⟨[], docs, rfl, fun f => by rw [updateOne, if_pos hit]; rfl, List.eraseP_cons_of_pos hit⟩

theorem updateOne_of_some {p : α → Bool} {f : α → α} {docs : List α} {doc : α} (some : docs.find? p = some doc) :
    ∃ pre post, docs = pre ++ doc :: post ∧ updateOne p f docs = pre ++ f doc :: post := by
  obtain ⟨pre, post, whole, changed, -⟩ := split_found some
  exact ⟨pre, post, whole, changed f⟩

/-- An update of the images of documents, where it puts the image of the document it finds. -/
theorem map_updateOne {p : β → Bool} {f : α → α} {g : α → β} {docs : List α} {doc : α}
    (found : docs.find? (fun doc => p (g doc)) = some doc) :
    updateOne p (fun _ => g (f doc)) (docs.map g) = (updateOne (fun doc => p (g doc)) f docs).map g := by
  induction docs with
  | nil => rfl
  | cons first docs ih =>
    rw [List.find?_cons] at found
    cases hit : p (g first) <;> simp only [hit] at found
    · simp [updateOne, hit, ih found]
    · obtain rfl := Option.some.inj found
      simp [updateOne, hit]

/-- Documents that a filter never finds stay as they are. -/
theorem filter_updateOne {p q : α → Bool} {f : α → α} (apart : ∀ doc, p doc = true → q doc = false ∧ q (f doc) = false)
    (docs : List α) : (updateOne p f docs).filter q = docs.filter q := by
  induction docs with
  | nil => rfl
  | cons doc docs ih =>
    unfold updateOne
    split
    · rename_i hit
      obtain ⟨before, after⟩ := apart doc hit
      simp only [List.filter_cons, before, after, Bool.false_eq_true, if_false]
    · rw [List.filter_cons, List.filter_cons, ih]

theorem filter_deleteOne {p q : α → Bool} (apart : ∀ doc, p doc = true → q doc = false) (docs : List α) :
    (deleteOne p docs).filter q = docs.filter q := by
  unfold deleteOne
  induction docs with
  | nil => rfl
  | cons doc docs ih =>
    rw [List.eraseP_cons]
    cases hit : p doc with
    | true => rw [List.filter_cons, apart doc hit, if_neg Bool.false_ne_true]; rfl
    | false => rw [List.filter_cons, ← ih, ← List.filter_cons]; rfl

theorem countP_deleteOne (p : α → Bool) (docs : List α) : (deleteOne p docs).countP p = docs.countP p - 1 := by
  unfold deleteOne
  induction docs with
  | nil => rfl
  | cons doc docs ih =>
    cases hit : p doc with
    | true => rw [List.eraseP_cons_of_pos hit, List.countP_cons_of_pos hit, Nat.add_sub_cancel]
    | false =>
      have miss : ¬ p doc = true := by simp [hit]
      rw [List.eraseP_cons_of_neg miss, List.countP_cons_of_neg miss, List.countP_cons_of_neg miss, ih]

theorem countP_deleteOne_of_disjoint {p q : α → Bool} (apart : ∀ doc, p doc = true → q doc = false) (docs : List α) :
    (deleteOne p docs).countP q = docs.countP q := by
  rw [List.countP_eq_length_filter, filter_deleteOne apart, ← List.countP_eq_length_filter]

/-- Position by position, only the document found is changed. -/
theorem updateOne_cases {p : α → Bool} {f : α → α} {docs : List α} {doc a b : α} {i : Nat}
    (found : docs.find? p = some doc) (before : docs[i]? = some a) (after : (updateOne p f docs)[i]? = some b) :
    b = a ∨ (a = doc ∧ b = f doc) := by
  obtain ⟨pre, post, rfl, changed⟩ := updateOne_of_some (f := f) found
  rw [changed] at after
  rcases Nat.lt_trichotomy i pre.length with left | rfl | right
  · rw [List.getElem?_append_left left] at before after
    exact .inl (Option.some.inj (after.symm.trans before))
  · simp only [List.getElem?_append_right (Nat.le_refl _), Nat.sub_self,
      List.getElem?_cons_zero, Option.some.injEq] at before after
    exact .inr ⟨before.symm, after.symm⟩
  · rw [List.getElem?_append_right (Nat.le_of_lt right)] at before after
    obtain ⟨k, same⟩ : ∃ k, i - pre.length = k + 1 := ⟨i - pre.length - 1, by omega⟩
    rw [same, List.getElem?_cons_succ] at before after
    exact .inl (Option.some.inj (after.symm.trans before))

/-- Where the documents have distinct keys, `updateOne` changes the one it finds and no other. -/
theorem mem_updateOne_iff {κ : Type} {key : α → κ} {p : α → Bool} {f : α → α} {docs : List α} {doc d : α}
    (distinct : (docs.map key).Nodup) (found : docs.find? p = some doc) :
    d ∈ updateOne p f docs ↔ d = f doc ∨ (d ∈ docs ∧ key d ≠ key doc) := by
  obtain ⟨pre, post, rfl, changed⟩ := updateOne_of_some (f := f) found
  have other : ∀ x, x ∈ pre ∨ x ∈ post → key x ≠ key doc := by
    rw [List.map_append, List.map_cons, List.nodup_middle, List.nodup_cons] at distinct
    rintro x member same
    refine distinct.1 ?_
    rw [← same, ← List.map_append]
    exact List.mem_map_of_mem (List.mem_append.mpr member)
  rw [changed]
  simp only [List.mem_append, List.mem_cons]
  constructor
  · rintro (before | rfl | after)
    · exact .inr ⟨.inl before, other d (.inl before)⟩
    · exact .inl rfl
    · exact .inr ⟨.inr (.inr after), other d (.inr after)⟩
  · rintro (rfl | ⟨before | rfl | after, different⟩)
    · exact .inr (.inl rfl)
    · exact .inl before
    · exact (different rfl).elim
    · exact .inr (.inr after)

/-! ### Saving -/

mutual

/-- What is stored of a value: objects are stored without the fields that are empty objects, and an
object left without fields is not stored at all. -/
def minimize : Json → Option Json
  | .obj fields =>
    match minimizeFields fields with
    | [] => none
    | kept => some (.obj kept)
  | .arr items => some (.arr (minimizeItems items))
  | value => some value

def minimizeFields : List (String × Json) → List (String × Json)
  | [] => []
  | (key, value) :: fields =>
    match minimize value with
    | none => minimizeFields fields
    | some kept => (key, kept) :: minimizeFields fields

def minimizeItems : List Json → List Json
  | [] => []
  | .obj fields :: items => .obj (minimizeFields fields) :: minimizeItems items
  | .arr nested :: items => .arr (minimizeItems nested) :: minimizeItems items
  | item :: items => item :: minimizeItems items

end

/-! ### Filters -/

/-- The fields a plain value finds: those that hold it, and lists with it among their items. `null`
finds absent fields too. -/
def equals (value : Json) : Option Json → Bool
  | none => decide (value = .null)
  | some (.arr items) => decide (.arr items = value) || decide (value ∈ items)
  | some field => decide (field = value)

theorem equals_some {value field : Json} (plain : field.isContainer = false) :
    equals value (some field) = decide (field = value) := by
  cases field <;> first | rfl | cases plain

@[simp] theorem equals_num (value : Json) (n : Int) : equals value (some (.num n)) = decide (.num n = value) := rfl

@[simp] theorem equals_self (value : Json) : equals value (some value) = true := by
  cases value <;> simp [equals]

/-- How the driver casts and compares values. `castString` fails with `none`, and gives `some none` for
`null`. A filter on a path of text is a predicate on the stored field, `none` where it is absent or
null; a path of mixed type casts nothing, and its filter sees the field as it is stored. -/
structure Driver where
  castString : Json → Option (Option String)
  mixedFilter : Json → Option (Option Json → Bool)
  stringFilter : Json → Option (Option String → Bool)

/-- Plain filter values are compared, on a path of text after a cast. Nothing is assumed of operators. -/
structure Driver.Lawful (driver : Driver) : Prop where
  castString_str : ∀ s, driver.castString (.str s) = some (some s)
  mixedFilter_plain : ∀ value, value.isContainer = false → driver.mixedFilter value = some (equals value)
  stringFilter_plain : ∀ value, value.isContainer = false →
    driver.stringFilter value = (driver.castString value).map fun cast field => decide (field = cast)

/-- A filter value that finds what the value `tid` finds: the value itself, or an operator around it. -/
def Driver.Denotes (driver : Driver) (value tid : Json) : Prop := driver.mixedFilter value = some (equals tid)

/-! ### A driver with three operators -/

def toStored : Json → Option (Option String)
  | .null => some none
  | .obj _ | .arr _ => none
  | value => some (some value.toText)

def isOperator (name : String) : Bool := name.toList.head? == some '$'

/-- The conditions of an object whose names are operators, all of which have to hold. -/
def operators {field : Type} (condition : String → Json → Option (field → Bool)) (fields : List (String × Json)) :
    Option (field → Bool) :=
  fields.foldr (fun pair rest =>
    match condition pair.1 pair.2, rest with
    | some p, some q => some fun stored => p stored && q stored
    | _, _ => none) (some fun _ => true)

def existence (arg : Json) : Option (Option β → Bool) :=
  match arg with
  | .bool wanted => some fun field => field.isSome == wanted
  | _ => none

def stringOperator (name : String) (arg : Json) : Option (Option String → Bool) :=
  if name = "$eq" then (toStored arg).map fun cast field => decide (field = cast)
  else if name = "$ne" then (toStored arg).map fun cast field => decide (field ≠ cast)
  else if name = "$exists" then existence arg
  else none

def mixedOperator (name : String) (arg : Json) : Option (Option Json → Bool) :=
  if name = "$eq" then some (equals arg)
  else if name = "$ne" then some fun field => !equals arg field
  else if name = "$exists" then existence arg
  else none

def filterText : Json → Option (Option String → Bool)
  | .obj [] => none
  | .obj fields => operators stringOperator fields
  | .arr items => (items.mapM toStored).map fun casts field => decide (field ∈ casts)
  | value => (toStored value).map fun cast field => decide (field = cast)

/-- An object without operators is a value like any other. -/
def filterMixed : Json → Option (Option Json → Bool)
  | .obj fields =>
    if fields.any fun pair => isOperator pair.1 then operators mixedOperator fields
    else some (equals (.obj fields))
  | .arr items => some fun field => items.any fun item => equals item field
  | value => some (equals value)

/-- The driver, as far as the operators `$eq`, `$ne` and `$exists` go. -/
def Driver.standard : Driver where
  castString := toStored
  mixedFilter := filterMixed
  stringFilter := filterText

theorem Driver.standard_lawful : Driver.standard.Lawful where
  castString_str _ := rfl
  mixedFilter_plain value plain := by
    cases value <;> first | rfl | cases plain
  stringFilter_plain value plain := by
    cases value <;> first | rfl | cases plain

theorem Driver.standard_eq (tid : Json) : Driver.standard.Denotes (.obj [("$eq", tid)]) tid := by
  have condition : mixedOperator "$eq" tid = some (equals tid) := rfl
  have named : isOperator "$eq" = true := by decide
  simp [Denotes, standard, filterMixed, operators, condition, named]

variable {driver : Driver}

theorem Driver.Lawful.denotes (lawful : driver.Lawful) {value : Json} (plain : value.isContainer = false) :
    driver.Denotes value value :=
  lawful.mixedFilter_plain value plain

theorem Driver.Lawful.denotes_num (lawful : driver.Lawful) (n : Int) : driver.Denotes (.num n) (.num n) :=
  lawful.denotes rfl

theorem Driver.Lawful.stringFilter_str (lawful : driver.Lawful) (s : String) :
    driver.stringFilter (.str s) = some fun field => decide (field = some s) := by
  rw [lawful.stringFilter_plain _ rfl, lawful.castString_str]
  rfl

end Mongo
