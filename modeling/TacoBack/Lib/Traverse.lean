import Mathlib.Data.List.Basic

/-!
# Traversals

Lists read element by element by a function that may fail or find nothing.
-/

namespace Traverse

variable {α β γ ε : Type}

theorem mapM_eq_map {f : α → Except ε β} {g : α → β} (xs : List α)
    (each : ∀ x ∈ xs, f x = .ok (g x)) : xs.mapM f = .ok (xs.map g) := by
  induction xs with
  | nil => rfl
  | cons x xs ih =>
    rw [List.forall_mem_cons] at each
    rw [List.mapM_cons, each.1, ih each.2]
    rfl

/-- Where one function answers for each element as another does, up to a translation, so do the traversals. -/
theorem mapM_translate {δ ε' : Type} {f : α → Except ε β} {g : α → Except ε' δ} {fail : ε → ε'} {make : β → δ}
    (xs : List α) (each : ∀ x ∈ xs, g x = ((f x).map make).mapError fail) :
    xs.mapM g = ((xs.mapM f).map (List.map make)).mapError fail := by
  induction xs with
  | nil => rfl
  | cons x xs ih =>
    rw [List.forall_mem_cons] at each
    rw [List.mapM_cons, List.mapM_cons, each.1, ih each.2]
    cases f x with
    | error e => rfl
    | ok y => cases xs.mapM f <;> rfl

theorem mapM_ok {f : α → Except ε β} {P : β → Prop} (xs : List α)
    (each : ∀ x ∈ xs, ∃ y, f x = .ok y ∧ P y) : ∃ ys, xs.mapM f = .ok ys ∧ ∀ y ∈ ys, P y := by
  induction xs with
  | nil => exact ⟨[], rfl, by simp⟩
  | cons x xs ih =>
    obtain ⟨y, first, good⟩ := each x (by simp)
    obtain ⟨ys, rest, all⟩ := ih fun z member => each z (List.mem_cons_of_mem _ member)
    refine ⟨y :: ys, ?_, List.forall_mem_cons.mpr ⟨good, all⟩⟩
    rw [List.mapM_cons, first, rest]
    rfl

theorem mem_of_mapM {f : α → Except ε β} {xs : List α} {ys : List β} (all : xs.mapM f = .ok ys) :
    ∀ y ∈ ys, ∃ x ∈ xs, f x = .ok y := by
  induction xs generalizing ys with
  | nil =>
    obtain rfl := Except.ok.inj all
    simp
  | cons x xs ih =>
    rw [List.mapM_cons] at all
    cases first : f x with
    | error e =>
      rw [first] at all
      cases all
    | ok y =>
      rw [first] at all
      cases rest : xs.mapM f with
      | error e =>
        rw [rest] at all
        cases all
      | ok zs =>
        rw [rest] at all
        obtain rfl : y :: zs = ys := Except.ok.inj all
        rw [List.forall_mem_cons]
        refine ⟨⟨x, List.mem_cons_self, first⟩, fun z member => ?_⟩
        obtain ⟨w, listed, read⟩ := ih rest z member
        exact ⟨w, List.mem_cons_of_mem _ listed, read⟩

theorem map_filterMap_of_some {f : α → Option β} {g : β → γ} {k : α → γ} (xs : List α)
    (each : ∀ x ∈ xs, ∃ y, f x = some y ∧ g y = k x) : (xs.filterMap f).map g = xs.map k := by
  induction xs with
  | nil => rfl
  | cons x xs ih =>
    rw [List.forall_mem_cons] at each
    obtain ⟨⟨y, found, same⟩, rest⟩ := each
    rw [List.filterMap_cons_some found, List.map_cons, List.map_cons, same, ih rest]

end Traverse
