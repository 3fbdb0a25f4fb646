import Mathlib.Data.List.Forall2
import TacoBack.Lib.Json

/-!
# Aggregation pipelines

The stages of MongoDB that join and project documents, and a check of pipelines: one that passes it
gives the same result on two databases that differ in a secret field only.
-/

namespace Aggregate

abbrev Document := List (String × Json)

abbrev Db := String → List Document

/-- How a filter reads the value given for a field: the test on that field of a document, or `none`
for a value it refuses. -/
abbrev Filter := Option Json → Option (Option Json → Bool)

inductive Error where
  | badLimit
  | badSkip
  | badMatch
  deriving DecidableEq

/-- `project` keeps fields, `_id` among them, and computes others from paths. -/
inductive Stage where
  | limit (count : Json)
  | skip (count : Json)
  | «match» (field : String) (value : Option Json)
  | lookup (collection localField foreignField output : String)
  | unwind (field : String)
  | project (keep : List String) (computed : List (String × List String))

def findOne (db : Db) (collection field : String) (p : Option Json → Bool) : Option Document :=
  (db collection).find? fun doc => p (doc.lookup field)

def exclude (fields : List String) (doc : Document) : Document :=
  doc.filter fun entry => !fields.contains entry.1

/-- A field path in an expression. Documents inside an array are entered one by one. -/
def path : List String → Json → Option Json
  | [], value => some value
  | [field], value => value.get field
  | field :: rest, value =>
    match value.get field with
    | none => none
    | some (.arr items) => some (.arr (items.filterMap (path rest)))
    | some inner => path rest inner

/-- The values a field offers to a join: a missing one counts as `null`. -/
def offers : Option Json → List Json
  | none => [.null]
  | some (.arr items) => items
  | some value => [value]

def joins (localValue foreignValue : Option Json) : Bool :=
  (offers localValue).any fun value => (offers foreignValue).contains value || foreignValue == some value

def setField (field : String) (value : Json) (doc : Document) : Document :=
  if (doc.lookup field).isSome then doc.map fun entry => if entry.1 = field then (field, value) else entry
  else doc ++ [(field, value)]

def joined (db : Db) (collection localField foreignField : String) (doc : Document) : List Document :=
  (db collection).filter fun other => joins (doc.lookup localField) (other.lookup foreignField)

def unwindDoc (field : String) (doc : Document) : List Document :=
  match doc.lookup field with
  | none | some .null => []
  | some (.arr items) => items.map fun item => setField field item doc
  | some _ => [doc]

def projectDoc (keep : List String) (computed : List (String × List String)) (doc : Document) : Document :=
  doc.filter (fun entry => ("_id" :: keep).contains entry.1) ++
    computed.filterMap fun entry => (path entry.2 (.obj doc)).map fun value => (entry.1, value)

def Stage.run (filter : Filter) (db : Db) (docs : List Document) : Stage → Except Error (List Document)
  | .limit (.num count) => if 0 < count then .ok (docs.take count.toNat) else .error .badLimit
  | .limit _ => .error .badLimit
  | .skip (.num count) => if 0 ≤ count then .ok (docs.drop count.toNat) else .error .badSkip
  | .skip _ => .error .badSkip
  | .match field value =>
    match filter value with
    | none => .error .badMatch
    | some p => .ok (docs.filter fun doc => p (doc.lookup field))
  | .lookup collection localField foreignField output =>
    .ok (docs.map fun doc => setField output (.arr ((joined db collection localField foreignField doc).map .obj)) doc)
  | .unwind field => .ok (docs.flatMap (unwindDoc field))
  | .project keep computed => .ok (docs.map (projectDoc keep computed))

def aggregate (filter : Filter) (db : Db) (stages : List Stage) (docs : List Document) :
    Except Error (List Document) :=
  stages.foldlM (fun docs stage => stage.run filter db docs) docs

/-! ### Documents that differ in one field -/

/-- Whatever the field is, or whether it is there at all, the rest is the same. -/
def Apart (field : String) (doc doc' : Document) : Prop := exclude [field] doc = exclude [field] doc'

/-- The same fields in the same order, with `V` between the two values of `field`. -/
def SameBut (field : String) (V : Json → Json → Prop) : Document → Document → Prop :=
  List.Forall₂ fun entry entry' =>
    entry.1 = entry'.1 ∧ (entry.1 = field → V entry.2 entry'.2) ∧ (entry.1 ≠ field → entry.2 = entry'.2)

variable {field other : String} {V W : Json → Json → Prop} {doc doc' : Document}

theorem lookup_filter {p : String → Bool} (doc : Document) (kept : p other = true) :
    List.lookup other (doc.filter fun entry => p entry.1) = doc.lookup other := by
  induction doc with
  | nil => rfl
  | cons entry doc ih =>
    obtain ⟨name, value⟩ := entry
    by_cases here : other = name
    · subst here
      rw [List.filter_cons_of_pos (by simpa using kept), List.lookup_cons, List.lookup_cons, beq_self_eq_true]
    · have skipped : (other == name) = false := by simpa using here
      rw [List.lookup_cons, skipped, List.filter_cons]
      split
      · rw [List.lookup_cons, skipped]
        exact ih
      · exact ih

theorem lookup_replace (field : String) (value : Json) (doc : Document) (other : String) :
    (doc.map fun entry => if entry.1 = field then (field, value) else entry).lookup other =
      if other = field then (doc.lookup field).map fun _ => value else doc.lookup other := by
  induction doc with
  | nil => simp
  | cons entry doc ih =>
    obtain ⟨name, old⟩ := entry
    rw [List.map_cons, List.lookup_cons, List.lookup_cons]
    by_cases here : name = field
    · subst here
      by_cases same : other = name
      · simp [same]
      · rw [if_neg same] at ih ⊢
        simp [beq_eq_false_iff_ne.mpr same, List.lookup_cons, ih]
    · rw [if_neg here]
      by_cases same : other = field
      · subst same
        simpa [beq_eq_false_iff_ne.mpr (Ne.symm here), List.lookup_cons] using ih
      · rw [if_neg same] at ih ⊢
        rw [ih, List.lookup_cons]

theorem lookup_setField (field : String) (value : Json) (doc : Document) (other : String) :
    (setField field value doc).lookup other = if other = field then some value else doc.lookup other := by
  unfold setField
  split <;> rename_i present
  · rw [lookup_replace]
    obtain ⟨old, held⟩ := Option.isSome_iff_exists.mp present
    simp [held]
  · have missing : doc.lookup field = none := Option.not_isSome_iff_eq_none.mp present
    rw [List.lookup_append]
    by_cases same : other = field
    · simp [same, missing]
    · simp [same, List.lookup_cons, beq_eq_false_iff_ne.mpr same]

theorem Apart.lookup (apart : Apart field doc doc') (different : other ≠ field) :
    doc.lookup other = doc'.lookup other := by
  have kept : (!List.contains [field] other) = true := by simp [different]
  rw [← @lookup_filter other (fun name => !List.contains [field] name) doc kept,
    ← @lookup_filter other (fun name => !List.contains [field] name) doc' kept]
  exact congrArg (List.lookup other) apart

theorem exclude_exclude {fields : List String} (hidden : field ∈ fields) (doc : Document) :
    exclude fields (exclude [field] doc) = exclude fields doc := by
  unfold exclude
  rw [List.filter_filter]
  apply List.filter_congr
  intro entry _
  by_cases same : entry.1 = field
  · simp [same, hidden]
  · simp [same]

theorem Apart.exclude {fields : List String} (apart : Apart field doc doc') (hidden : field ∈ fields) :
    exclude fields doc = Aggregate.exclude fields doc' := by
  rw [← exclude_exclude hidden doc, ← exclude_exclude hidden doc']
  exact congrArg (Aggregate.exclude fields) apart

theorem sameBut_refl (field : String) (doc : Document) : SameBut field Eq doc doc :=
  List.forall₂_same.mpr fun _ _ => ⟨rfl, fun _ => rfl, fun _ => rfl⟩

theorem SameBut.lookup (same : SameBut field V doc doc') :
    Option.Rel V (doc.lookup field) (doc'.lookup field) ∧
      ∀ other, other ≠ field → doc.lookup other = doc'.lookup other := by
  induction same with
  | nil => exact ⟨.none, fun _ _ => rfl⟩
  | @cons entry entry' doc doc' heads tails ih =>
    obtain ⟨name, value⟩ := entry
    obtain ⟨name', value'⟩ := entry'
    obtain ⟨rfl, here, there⟩ := heads
    simp only [List.lookup_cons]
    constructor
    · by_cases at_field : field = name
      · rw [beq_iff_eq.mpr at_field]
        exact .some (here at_field.symm)
      · rw [beq_eq_false_iff_ne.mpr at_field]
        exact ih.1
    · intro other different
      by_cases at_other : other = name
      · rw [beq_iff_eq.mpr at_other]
        exact congrArg some (there fun same => different (at_other.trans same))
      · rw [beq_eq_false_iff_ne.mpr at_other]
        exact ih.2 other different

theorem SameBut.isSome (same : SameBut field V doc doc') (other : String) :
    (doc.lookup other).isSome = (doc'.lookup other).isSome := by
  by_cases here : other = field
  · subst here
    have related := same.lookup.1
    revert related
    cases doc.lookup other <;> cases doc'.lookup other <;> intro related
    · rfl
    · cases related
    · cases related
    · rfl
  · rw [same.lookup.2 other here]

theorem SameBut.of_missing (same : SameBut field V doc doc') (missing : doc.lookup field = none) :
    SameBut field W doc doc' := by
  induction same with
  | nil => exact .nil
  | @cons entry entry' doc doc' heads tails ih =>
    rw [List.lookup_cons] at missing
    split at missing
    · cases missing
    · rename_i different
      exact .cons ⟨heads.1, fun here => (beq_eq_false_iff_ne.mp different here.symm).elim, heads.2.2⟩ (ih missing)

theorem SameBut.setField_self (same : SameBut field V doc doc') {value value' : Json} (related : W value value') :
    SameBut field W (setField field value doc) (setField field value' doc') := by
  unfold setField
  rw [← same.isSome field]
  split
  · apply List.rel_map _ same
    rintro ⟨name, old⟩ ⟨_, old'⟩ ⟨rfl, _, there⟩
    by_cases here : name = field
    · simp [here, related]
    · simp [here, there here]
  · rename_i absent
    have missing : doc.lookup field = none := Option.not_isSome_iff_eq_none.mp absent
    exact List.rel_append (same.of_missing missing)
      (.cons ⟨rfl, fun _ => related, fun different => (different rfl).elim⟩ .nil)

theorem SameBut.setField (same : SameBut field V doc doc') (different : other ≠ field) (value : Json) :
    SameBut field V (setField other value doc) (Aggregate.setField other value doc') := by
  unfold Aggregate.setField
  rw [← same.isSome other]
  split
  · apply List.rel_map _ same
    rintro ⟨name, old⟩ ⟨_, old'⟩ ⟨rfl, here, there⟩
    by_cases at_other : name = other
    · simp [at_other, different]
    · simpa [at_other] using ⟨here, there⟩
  · exact List.rel_append same (.cons ⟨rfl, fun here => (different here).elim, fun _ => rfl⟩ .nil)

/-! ### The check -/

structure Secret where
  collection : String
  field : String

/-- What is known of the documents between two stages: there is nothing of the secret in them, or a
join has put documents that carry it into a field, as a list or one by one. -/
inductive Taint where
  | clean
  | joined (output : String)
  | opened (output : String)
  deriving DecidableEq

/-- The path cannot lead to the secret. -/
def Taint.safe (secret : Secret) : Taint → List String → Bool
  | .clean, _ => true
  | .joined output, head :: _ => head != output
  | .opened output, [head] => head != output
  | .opened output, head :: next :: _ => head != output || next != secret.field
  | _, [] => false

def Taint.unwound (field : String) : Taint → Taint
  | .joined output => if field = output then .opened output else .joined output
  | taint => taint

def Stage.check (secret : Secret) (taint : Taint) : Stage → Option Taint
  | .limit _ | .skip _ => some taint
  | .match field _ => if taint.safe secret [field] then some taint else none
  | .lookup collection _ foreignField output =>
    if taint = .clean ∧ collection = secret.collection ∧ foreignField ≠ secret.field then some (.joined output)
    else none
  | .unwind field => some (taint.unwound field)
  | .project keep computed =>
    if (("_id" :: keep).all fun field => taint.safe secret [field]) &&
        computed.all fun entry => taint.safe secret entry.2 then some .clean
    else none

def checkAll (secret : Secret) (taint : Taint) (stages : List Stage) : Option Taint :=
  stages.foldlM (fun taint stage => stage.check secret taint) taint

/-! ### Its soundness -/

/-- The two values are the documents a join found, or one of them. -/
def Joined (field : String) (value value' : Json) : Prop :=
  ∃ docs docs' : List Document, value = .arr (docs.map .obj) ∧ value' = .arr (docs'.map .obj) ∧
    List.Forall₂ (Apart field) docs docs'

def Opened (field : String) (value value' : Json) : Prop :=
  ∃ doc doc' : Document, value = .obj doc ∧ value' = .obj doc' ∧ Apart field doc doc'

def Taint.Related (secret : Secret) : Taint → Document → Document → Prop
  | .clean => Eq
  | .joined output => SameBut output (Joined secret.field)
  | .opened output => SameBut output (Opened secret.field)

variable {secret : Secret} {taint : Taint}

theorem Taint.Related.lookup (related : taint.Related secret doc doc') (safe : taint.safe secret [other] = true) :
    doc.lookup other = doc'.lookup other := by
  cases taint with
  | clean => exact congrArg (List.lookup other) related
  | joined output | opened output => exact (SameBut.lookup related).2 other (bne_iff_ne.mp safe)

/-- A path below the field that was looked at goes on from equal values. -/
theorem path_congr {value value' : Json} (head : String) (rest : List String)
    (same : value.get head = value'.get head) : path (head :: rest) value = path (head :: rest) value' := by
  cases rest with
  | nil => exact same
  | cons next rest =>
    unfold path
    rw [same]

theorem path_inner {value : Json} {inner : Document} {head next : String} {rest : List String}
    (found : value.get head = some (.obj inner)) :
    path (head :: next :: rest) value = path (next :: rest) (.obj inner) := by
  rw [path]
  · rw [found]
  · simp

theorem Taint.Related.path {names : List String} (related : taint.Related secret doc doc')
    (safe : taint.safe secret names = true) : path names (.obj doc) = Aggregate.path names (.obj doc') := by
  cases taint with
  | clean => exact congrArg (fun doc => Aggregate.path names (.obj doc)) related
  | joined output =>
    cases names with
    | nil => cases safe
    | cons head rest => exact path_congr head rest ((SameBut.lookup related).2 head (bne_iff_ne.mp safe))
  | opened output =>
    match names with
    | [] => cases safe
    | [head] => exact path_congr head [] ((SameBut.lookup related).2 head (bne_iff_ne.mp safe))
    | head :: next :: rest =>
      by_cases inside : head = output
      · subst inside
        have hidden : next ≠ secret.field := by simpa [Taint.safe] using safe
        have values := (SameBut.lookup related).1
        cases left : doc.lookup head <;> cases right : doc'.lookup head <;> rw [left, right] at values
        · exact path_congr head (next :: rest) (left.trans right.symm)
        · cases values
        · cases values
        · cases values with
          | some opened =>
            obtain ⟨inner, inner', rfl, rfl, apart⟩ := opened
            rw [@path_inner (.obj doc) inner head next rest left, @path_inner (.obj doc') inner' head next rest right]
            exact path_congr next rest (apart.lookup hidden)
      · exact path_congr head (next :: rest) ((SameBut.lookup related).2 head inside)

theorem SameBut.unwindDoc (same : SameBut field V doc doc') (different : other ≠ field) :
    List.Forall₂ (SameBut field V) (unwindDoc other doc) (Aggregate.unwindDoc other doc') := by
  unfold Aggregate.unwindDoc
  rw [← same.lookup.2 other different]
  split
  · exact .nil
  · exact .nil
  · rename_i items _
    exact List.rel_map (fun _ item equal => equal ▸ same.setField different item)
      (List.forall₂_same.mpr fun item _ => rfl)
  · exact .cons same .nil

theorem Taint.Related.unwindDoc (related : taint.Related secret doc doc') (field : String) :
    List.Forall₂ ((taint.unwound field).Related secret) (unwindDoc field doc) (Aggregate.unwindDoc field doc') := by
  cases taint with
  | clean =>
    obtain rfl : doc = doc' := related
    exact List.forall₂_same.mpr fun _ _ => rfl
  | joined output =>
    by_cases here : field = output
    · subst here
      have values := (SameBut.lookup related).1
      unfold Aggregate.unwindDoc Taint.unwound
      cases left : doc.lookup field <;> cases right : doc'.lookup field <;> rw [left, right] at values
      · exact .nil
      · cases values
      · cases values
      · cases values with
        | some found =>
          obtain ⟨docs, docs', rfl, rfl, apart⟩ := found
          simp only [List.map_map, if_true]
          exact List.rel_map (fun inner inner' apart => SameBut.setField_self related ⟨inner, inner', rfl, rfl, apart⟩)
            apart
    · simp only [Taint.unwound, here, if_false]
      exact SameBut.unwindDoc related here
  | opened output =>
    by_cases here : field = output
    · subst here
      have values := (SameBut.lookup related).1
      unfold Aggregate.unwindDoc
      cases left : doc.lookup field <;> cases right : doc'.lookup field <;> rw [left, right] at values
      · exact .nil
      · cases values
      · cases values
      · cases values with
        | some found =>
          obtain ⟨inner, inner', rfl, rfl, _⟩ := found
          exact .cons related .nil
    · exact SameBut.unwindDoc related here

theorem SameBut.filter (same : SameBut field V doc doc') {fields : List String} (hidden : field ∉ fields) :
    doc.filter (fun entry => fields.contains entry.1) = doc'.filter fun entry => fields.contains entry.1 := by
  induction same with
  | nil => rfl
  | @cons entry entry' doc doc' heads tails ih =>
    obtain ⟨name, value⟩ := entry
    obtain ⟨name', value'⟩ := entry'
    obtain ⟨rfl, _, there⟩ := heads
    by_cases here : name = field
    · subst here
      have dropped : fields.contains name = false := by simpa using hidden
      rw [List.filter_cons_of_neg (by simp [hidden]), List.filter_cons_of_neg (by simp [hidden]), ih]
    · obtain rfl : value = value' := there here
      rw [List.filter_cons, List.filter_cons, ih]

theorem Taint.Related.projectDoc {keep : List String} {computed : List (String × List String)}
    (related : taint.Related secret doc doc') (kept : ∀ field ∈ "_id" :: keep, taint.safe secret [field] = true)
    (paths : ∀ entry ∈ computed, taint.safe secret entry.2 = true) :
    projectDoc keep computed doc = Aggregate.projectDoc keep computed doc' := by
  have fields : doc.filter (fun entry => ("_id" :: keep).contains entry.1) =
      doc'.filter fun entry => ("_id" :: keep).contains entry.1 := by
    cases taint with
    | clean => exact congrArg (List.filter fun entry => ("_id" :: keep).contains entry.1) related
    | joined output | opened output =>
      exact SameBut.filter related fun member => bne_iff_ne.mp (kept output member) rfl
  have values : ∀ entry ∈ computed, (Aggregate.path entry.2 (.obj doc)).map (fun value => (entry.1, value)) =
      (Aggregate.path entry.2 (.obj doc')).map fun value => (entry.1, value) := by
    intro entry member
    rw [related.path (paths entry member)]
  unfold Aggregate.projectDoc
  rw [fields, List.filterMap_congr values]

/-- Two runs end in the same error, or in related results. -/
def Alike {α : Type} (R : α → α → Prop) : Except Error α → Except Error α → Prop
  | .ok a, .ok b => R a b
  | .error e, .error e' => e = e'
  | _, _ => False

theorem joined_apart {db db' : Db} {localField foreignField : String}
    (apart : List.Forall₂ (Apart secret.field) (db secret.collection) (db' secret.collection))
    (different : foreignField ≠ secret.field) (doc : Document) :
    List.Forall₂ (Apart secret.field) (joined db secret.collection localField foreignField doc)
      (joined db' secret.collection localField foreignField doc) := by
  apply List.rel_filter _ apart
  intro other other' related
  show joins _ (other.lookup foreignField) = true ↔ joins _ (other'.lookup foreignField) = true
  rw [related.lookup different]

theorem Stage.check_sound {filter : Filter} {db db' : Db} {stage : Stage} {next : Taint} {docs docs' : List Document}
    (apart : List.Forall₂ (Apart secret.field) (db secret.collection) (db' secret.collection))
    (checked : stage.check secret taint = some next) (related : List.Forall₂ (taint.Related secret) docs docs') :
    Alike (List.Forall₂ (next.Related secret)) (stage.run filter db docs) (stage.run filter db' docs') := by
  cases stage with
  | limit count =>
    obtain rfl := Option.some.inj checked
    cases count with
    | num n =>
      simp only [run]
      split
      · exact List.forall₂_take n.toNat related
      · rfl
    | _ => rfl
  | skip count =>
    obtain rfl := Option.some.inj checked
    cases count with
    | num n =>
      simp only [run]
      split
      · exact List.forall₂_drop n.toNat related
      · rfl
    | _ => rfl
  | «match» field value =>
    rw [check, Option.ite_none_right_eq_some] at checked
    obtain ⟨allowed, same⟩ := checked
    obtain rfl := Option.some.inj same
    simp only [run]
    split
    · rfl
    · rename_i p _
      apply List.rel_filter _ related
      intro doc doc' one
      show p (doc.lookup field) = true ↔ p (doc'.lookup field) = true
      rw [one.lookup allowed]
  | lookup collection localField foreignField output =>
    rw [check, Option.ite_none_right_eq_some] at checked
    obtain ⟨⟨rfl, rfl, different⟩, same⟩ := checked
    obtain rfl := Option.some.inj same
    refine List.rel_map (fun doc doc' one => ?_) related
    obtain rfl : doc = doc' := one
    exact (sameBut_refl output doc).setField_self ⟨_, _, rfl, rfl, joined_apart apart different doc⟩
  | unwind field =>
    obtain rfl := Option.some.inj checked
    exact List.rel_flatMap related fun doc doc' one => one.unwindDoc field
  | project keep computed =>
    rw [check, Option.ite_none_right_eq_some, Bool.and_eq_true, List.all_eq_true, List.all_eq_true] at checked
    obtain ⟨⟨kept, paths⟩, same⟩ := checked
    obtain rfl := Option.some.inj same
    exact List.rel_map (fun doc doc' one => one.projectDoc kept paths) related

theorem checkAll_sound {filter : Filter} {db db' : Db} {stages : List Stage} {last : Taint}
    {docs docs' : List Document}
    (apart : List.Forall₂ (Apart secret.field) (db secret.collection) (db' secret.collection))
    (checked : checkAll secret taint stages = some last) (related : List.Forall₂ (taint.Related secret) docs docs') :
    Alike (List.Forall₂ (last.Related secret)) (aggregate filter db stages docs)
      (aggregate filter db' stages docs') := by
  induction stages generalizing taint docs docs' with
  | nil =>
    obtain rfl := Option.some.inj checked
    exact related
  | cons stage stages ih =>
    rw [checkAll, List.foldlM_cons] at checked
    obtain ⟨next, first, rest⟩ := Option.bind_eq_some_iff.mp checked
    have step : Alike _ (stage.run filter db docs) (stage.run filter db' docs') :=
      Stage.check_sound apart first related
    unfold aggregate
    rw [List.foldlM_cons, List.foldlM_cons]
    cases left : stage.run filter db docs <;> cases right : stage.run filter db' docs' <;> rw [left, right] at step
    · exact step
    · exact step.elim
    · exact step.elim
    · exact ih rest step

/-- A pipeline that passes the check and ends clean gives the same result, or the same error, whatever
the secret field of the documents it joins is. -/
theorem aggregate_blind {filter : Filter} {db db' : Db} {stages : List Stage}
    (apart : List.Forall₂ (Apart secret.field) (db secret.collection) (db' secret.collection))
    (checked : checkAll secret .clean stages = some .clean) (docs : List Document) :
    aggregate filter db stages docs = aggregate filter db' stages docs := by
  have ends : Alike _ (aggregate filter db stages docs) (aggregate filter db' stages docs) :=
    checkAll_sound apart checked (List.forall₂_same.mpr fun _ _ => rfl)
  cases left : aggregate filter db stages docs <;> cases right : aggregate filter db' stages docs <;>
    rw [left, right] at ends
  · exact congrArg Except.error ends
  · exact ends.elim
  · exact ends.elim
  · exact congrArg Except.ok ((congrFun₂ List.forall₂_eq_eq_eq _ _).mp ends)

/-! ### Finding one document -/

theorem find_related {R : Document → Document → Prop} {docs docs' : List Document} {p : Document → Bool}
    (related : List.Forall₂ R docs docs') (blind : ∀ doc doc', R doc doc' → p doc = p doc') :
    Option.Rel R (docs.find? p) (docs'.find? p) := by
  induction related with
  | nil => exact .none
  | @cons doc doc' docs docs' heads tails ih =>
    rw [List.find?_cons, List.find?_cons, blind doc doc' heads]
    split
    · exact .some heads
    · exact ih

theorem map_related {α : Type} {R : Document → Document → Prop} {f : Document → α} {found found' : Option Document}
    (related : Option.Rel R found found') (blind : ∀ doc doc', R doc doc' → f doc = f doc') :
    found.map f = found'.map f := by
  cases related with
  | none => rfl
  | some one => exact congrArg some (blind _ _ one)

end Aggregate
