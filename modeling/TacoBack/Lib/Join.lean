import Mathlib.Data.List.Nodup
import TacoBack.Lib.Aggregate

/-!
# Joins with one document each

A `lookup` on a field whose values are distinct numbers, opened by an `unwind` and read by a `project`.
-/

namespace Aggregate

variable {filter : Filter} {db : Db} {doc other : Document} {field output : String}

theorem aggregate_cons {stage : Stage} {stages : List Stage} {docs next : List Document}
    (done : stage.run filter db docs = .ok next) :
    aggregate filter db (stage :: stages) docs = aggregate filter db stages next := by
  rw [aggregate, List.foldlM_cons, done]
  rfl

theorem aggregate_nil (docs : List Document) : aggregate filter db [] docs = .ok docs := rfl

/-! ### The joined documents -/

theorem joins_num (m n : Int) : joins (some (.num m)) (some (.num n)) = decide (m = n) := by
  by_cases same : m = n
  · subst same
    simp [joins, offers]
  · have apart : Json.num n ≠ .num m := fun equal => same (Json.num.inj equal).symm
    simp [joins, offers, same, apart, Ne.symm apart]

theorem filter_unique {α κ : Type} {key : α → κ} {p : α → Bool} {xs : List α} {x : α}
    (distinct : (xs.map key).Nodup) (member : x ∈ xs) (exactly : ∀ y ∈ xs, p y = true ↔ key y = key x) :
    xs.filter p = [x] := by
  induction xs with
  | nil => cases member
  | cons y ys ih =>
    rw [List.map_cons, List.nodup_cons] at distinct
    rw [List.forall_mem_cons] at exactly
    rcases List.mem_cons.mp member with rfl | later
    · rw [List.filter_cons_of_pos (exactly.1.mpr rfl), List.filter_eq_nil_iff.mpr]
      intro z rest found
      refine distinct.1 ?_
      rw [← (exactly.2 z rest).mp found]
      exact List.mem_map_of_mem rest
    · have apart : ¬ p y = true := by
        intro found
        refine distinct.1 ?_
        rw [exactly.1.mp found]
        exact List.mem_map_of_mem later
      rw [List.filter_cons_of_neg apart, ih distinct.2 later exactly.2]

/-- The documents of the collection have numbers in the field, all of them different. -/
structure Keyed (docs : List Document) (field : String) : Prop where
  numbers : ∀ doc ∈ docs, ∃ n, doc.lookup field = some (.num n)
  distinct : (docs.map fun doc => doc.lookup field).Nodup

theorem joined_unique {collection localField foreignField : String} {n : Int}
    (keyed : Keyed (db collection) foreignField) (here : doc.lookup localField = some (.num n))
    (member : other ∈ db collection) (there : other.lookup foreignField = some (.num n)) :
    joined db collection localField foreignField doc = [other] := by
  refine filter_unique keyed.distinct member fun foreign listed => ?_
  obtain ⟨m, number⟩ := keyed.numbers foreign listed
  rw [here, there, number, joins_num]
  simp [eq_comm]

/-! ### What is kept of it -/

theorem filter_replace {p : String → Bool} (dropped : p field = false) (value : Json) (doc : Document) :
    (doc.map fun entry => if entry.1 = field then (field, value) else entry).filter (fun entry => p entry.1) =
      doc.filter fun entry => p entry.1 := by
  induction doc with
  | nil => rfl
  | cons entry doc ih =>
    rw [List.map_cons, List.filter_cons, List.filter_cons, ih]
    by_cases here : entry.1 = field
    · rw [if_pos here, here, dropped, if_neg Bool.false_ne_true, if_neg Bool.false_ne_true]
    · rw [if_neg here]

theorem filter_setField {p : String → Bool} (dropped : p field = false) (value : Json) (doc : Document) :
    (setField field value doc).filter (fun entry => p entry.1) = doc.filter fun entry => p entry.1 := by
  unfold setField
  split
  · exact filter_replace dropped value doc
  · simp [dropped]

theorem unwindDoc_setField (items : List Json) : unwindDoc field (setField field (.arr items) doc) =
    items.map fun item => setField field item (setField field (.arr items) doc) := by
  rw [unwindDoc, lookup_setField, if_pos rfl]

def select (fields : List String) (doc : Document) : Document :=
  fields.filterMap fun field => (doc.lookup field).map fun value => (field, value)

theorem projectDoc_opened {keep fields : List String} (hidden : ("_id" :: keep).contains output = false)
    (value : Json) (other doc : Document) :
    projectDoc keep (fields.map fun field => (field, [output, field]))
        (setField output (.obj other) (setField output value doc)) =
      doc.filter (fun entry => ("_id" :: keep).contains entry.1) ++ select fields other := by
  rw [projectDoc, filter_setField hidden, filter_setField hidden, List.filterMap_map]
  refine congrArg _ (List.filterMap_congr fun field _ => ?_)
  have held : Json.get (.obj (setField output (.obj other) (setField output value doc))) output = some (.obj other) := by
    rw [Json.get, lookup_setField, if_pos rfl]
  rw [Function.comp_apply, path_inner held]
  rfl

/-- Where each document has one partner, the join has one entry for each. -/
theorem aggregate_join (fields : List String) {collection localField foreignField : String} {keep : List String}
    {docs : List Document} {partner : Document → Document} (keyed : Keyed (db collection) foreignField)
    (hidden : ("_id" :: keep).contains output = false)
    (each : ∀ doc ∈ docs, ∃ n, doc.lookup localField = some (.num n) ∧ partner doc ∈ db collection ∧
      (partner doc).lookup foreignField = some (.num n)) :
    aggregate filter db [.lookup collection localField foreignField output, .unwind output,
        .project keep (fields.map fun field => (field, [output, field]))] docs =
      .ok (docs.map fun doc =>
        doc.filter (fun entry => ("_id" :: keep).contains entry.1) ++ select fields (partner doc)) := by
  rw [aggregate_cons rfl, aggregate_cons rfl, aggregate_cons rfl, aggregate_nil]
  refine congrArg Except.ok ?_
  induction docs with
  | nil => rfl
  | cons doc docs ih =>
    rw [List.forall_mem_cons] at each
    obtain ⟨⟨n, here, member, there⟩, rest⟩ := each
    rw [List.map_cons, List.flatMap_cons, List.map_append, ih rest, joined_unique keyed here member there,
      unwindDoc_setField]
    simp only [List.map_cons, List.map_nil, projectDoc_opened hidden]
    rfl

/-- What is joined under one name is not found under another. -/
theorem aggregate_unopened {collection localField foreignField : String} {keep : List String}
    {computed : List (String × List String)} {docs : List Document} (apart : field ≠ output)
    (missing : ∀ doc ∈ docs, doc.lookup field = none) :
    aggregate filter db [.lookup collection localField foreignField output, .unwind field, .project keep computed] docs =
      .ok [] := by
  have nothing : ∀ doc ∈ docs, ∀ value, unwindDoc field (setField output value doc) = [] := by
    intro doc member value
    rw [unwindDoc, lookup_setField, if_neg apart, missing doc member]
  rw [aggregate_cons rfl, aggregate_cons rfl, aggregate_cons rfl, aggregate_nil, List.flatMap_map]
  rw [List.flatMap_eq_nil_iff.mpr fun doc member => nothing doc member _]
  rfl

end Aggregate
