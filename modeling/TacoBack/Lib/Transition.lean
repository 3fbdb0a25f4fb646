import Mathlib.Data.List.Basic

/-!
# Runs of a labelled step relation

A run carries its history: the steps taken, oldest first, each with the state it was taken in.
Invariants of runs and conditions on their steps are stated over that history.
-/

namespace Transition

variable {σ ℓ : Type*} {step : σ → ℓ → σ → Prop} {s t u : σ} {h : List (σ × ℓ)} {l : ℓ}

/-- `Run step s h t`: the steps of `h` lead from `s` to `t`. -/
inductive Run (step : σ → ℓ → σ → Prop) (s : σ) : List (σ × ℓ) → σ → Prop where
  | nil : Run step s [] s
  | snoc {h : List (σ × ℓ)} {t u : σ} {l : ℓ} :
      Run step s h t → step t l u → Run step s (h ++ [(t, l)]) u

def labels (h : List (σ × ℓ)) : List ℓ := h.map Prod.snd

@[simp] theorem labels_nil : labels ([] : List (σ × ℓ)) = [] := rfl

@[simp] theorem labels_append (h k : List (σ × ℓ)) : labels (h ++ k) = labels h ++ labels k :=
  List.map_append

@[simp] theorem labels_cons (x : σ × ℓ) (h : List (σ × ℓ)) : labels (x :: h) = x.2 :: labels h := rfl

theorem labels_split {a b : List ℓ} (whole : labels h = a ++ l :: b) :
    ∃ h₁ x h₂, h = h₁ ++ (x, l) :: h₂ ∧ labels h₁ = a ∧ labels h₂ = b := by
  obtain ⟨h₁, rest, rfl, first, second⟩ := List.map_eq_append_iff.mp whole
  obtain ⟨⟨x, m⟩, h₂, rfl, rfl, last⟩ := List.map_eq_cons_iff.mp second
  exact ⟨h₁, x, h₂, rfl, first, last⟩

/-- A property of history and state that holds at the start and survives every step of a run. -/
theorem Run.invariant {P : List (σ × ℓ) → σ → Prop} (start : P [] s)
    (keep : ∀ h t l u, Run step s h t → P h t → step t l u → P (h ++ [(t, l)]) u)
    (run : Run step s h t) : P h t := by
  induction run with
  | nil => exact start
  | snoc before taken ih => exact keep _ _ _ _ before ih taken

theorem Run.preserved {P : σ → Prop} (start : P s) (keep : ∀ t l u, P t → step t l u → P u) (run : Run step s h t) :
    P t :=
  run.invariant (P := fun _ => P) start fun _ t l u _ held taken => keep t l u held taken

theorem Run.append {k : List (σ × ℓ)} (first : Run step s h t) (second : Run step t k u) :
    Run step s (h ++ k) u := by
  induction second with
  | nil => simpa using first
  | snoc _ taken ih => simpa [List.append_assoc] using ih.snoc taken

theorem Run.split {h₂ : List (σ × ℓ)} {h₁ : List (σ × ℓ)} {x : σ}
    (run : Run step s (h₁ ++ (x, l) :: h₂) t) :
    Run step s h₁ x ∧ ∃ y, step x l y ∧ Run step y h₂ t := by
  generalize whole : h₁ ++ (x, l) :: h₂ = h at run
  induction run generalizing h₂ with
  | nil => simp at whole
  | @snoc k v w m before taken ih =>
    rcases List.eq_nil_or_concat h₂ with rfl | ⟨front, last, rfl⟩
    · obtain ⟨rfl, same⟩ := List.append_inj' whole rfl
      obtain ⟨rfl, rfl⟩ := Prod.mk.inj (List.singleton_inj.mp same)
      exact ⟨before, _, taken, .nil⟩
    · rw [List.concat_eq_append, ← List.cons_append, ← List.append_assoc] at whole
      obtain ⟨rfl, same⟩ := List.append_inj' whole rfl
      obtain rfl := List.singleton_inj.mp same
      obtain ⟨first, y, here, rest⟩ := ih rfl
      refine ⟨first, y, here, ?_⟩
      rw [List.concat_eq_append]
      exact rest.snoc taken

/-- Each step of a run is taken in a state that a run reaches. -/
theorem Run.reached {x : σ × ℓ} (run : Run step s h t) (member : x ∈ h) :
    ∃ past next, Run step s past x.1 ∧ step x.1 x.2 next := by
  obtain ⟨past, later, rfl⟩ := List.append_of_mem member
  obtain ⟨first, next, taken, -⟩ := Run.split (x := x.1) (l := x.2) run
  exact ⟨past, next, first, taken⟩

/-- `P` holds of every state of a run and the steps before it. -/
def Always (P : List (σ × ℓ) → σ → Prop) (h : List (σ × ℓ)) (t : σ) : Prop :=
  (∀ h₁ x h₂, h = h₁ ++ x :: h₂ → P h₁ x.1) ∧ P h t

theorem always_snoc {P : List (σ × ℓ) → σ → Prop} :
    Always P (h ++ [(t, l)]) u ↔ Always P h t ∧ P (h ++ [(t, l)]) u := by
  constructor
  · rintro ⟨past, now⟩
    refine ⟨⟨fun h₁ x h₂ whole => past h₁ x (h₂ ++ [(t, l)]) (by simp [whole]), ?_⟩, now⟩
    exact past h (t, l) [] rfl
  · rintro ⟨⟨past, last⟩, now⟩
    refine ⟨fun h₁ x h₂ whole => ?_, now⟩
    rcases List.eq_nil_or_concat h₂ with rfl | ⟨front, y, rfl⟩
    · obtain ⟨rfl, same⟩ := List.append_inj' whole rfl
      obtain rfl := List.singleton_inj.mp same
      exact last
    · rw [List.concat_eq_append, ← List.cons_append, ← List.append_assoc] at whole
      obtain ⟨rfl, -⟩ := List.append_inj' whole rfl
      exact past h₁ x front rfl

theorem Run.always {P : List (σ × ℓ) → σ → Prop} {C : σ → ℓ → Prop} (start : P [] s)
    (keep : ∀ h t l u, Run step s h t → step t l u → C t l → P h t → P (h ++ [(t, l)]) u)
    (run : Run step s h t) (meets : ∀ x ∈ h, C x.1 x.2) : Always P h t := by
  induction run with
  | nil => exact ⟨by simp, start⟩
  | snoc before taken ih =>
    rw [List.forall_mem_append, List.forall_mem_singleton] at meets
    have past := ih meets.1
    exact always_snoc.mpr ⟨past, keep _ _ _ _ before taken meets.2 past.2⟩

/-- Where one step keeps `P` exactly when it meets `C`, `P` holds throughout a run exactly when all
its steps meet `C`. -/
theorem Run.always_iff {P : List (σ × ℓ) → σ → Prop} {C : σ → ℓ → Prop} (start : P [] s)
    (exactly : ∀ h t l u, Run step s h t → step t l u → P h t → (P (h ++ [(t, l)]) u ↔ C t l))
    (run : Run step s h t) : Always P h t ↔ ∀ x ∈ h, C x.1 x.2 := by
  induction run with
  | nil => simpa [Always] using start
  | @snoc h t u l before taken ih =>
    rw [always_snoc, List.forall_mem_append, List.forall_mem_singleton, ← ih]
    exact and_congr_right fun past => exactly _ _ _ _ before taken past.2

/-- The same for a `P` that follows from an invariant of the runs whose steps meet `C`, where a step out of
the invariant that keeps `P` meets `C`. -/
theorem Run.always_iff_invariant {P Q : List (σ × ℓ) → σ → Prop} {C : σ → ℓ → Prop} (start : Q [] s)
    (holds : ∀ h t, Run step s h t → Q h t → P h t)
    (keep : ∀ h t l u, Run step s h t → step t l u → Q h t → C t l → Q (h ++ [(t, l)]) u)
    (meets : ∀ h t l u, Run step s h t → step t l u → Q h t → P (h ++ [(t, l)]) u → C t l)
    (run : Run step s h t) : Always P h t ↔ ∀ x ∈ h, C x.1 x.2 := by
  have both : (Always P h t ↔ ∀ x ∈ h, C x.1 x.2) ∧ ((∀ x ∈ h, C x.1 x.2) → Q h t) := by
    induction run with
    | nil => exact ⟨iff_of_true ⟨by simp, holds _ _ .nil start⟩ (by simp), fun _ => start⟩
    | @snoc h t u l before taken ih =>
      rw [always_snoc, List.forall_mem_append, List.forall_mem_singleton, ih.1]
      have next : (∀ x ∈ h, C x.1 x.2) ∧ C t l → Q (h ++ [(t, l)]) u :=
        fun met => keep _ _ _ _ before taken (ih.2 met.1) met.2
      refine ⟨and_congr_right fun past => ⟨meets _ _ _ _ before taken (ih.2 past), fun met => ?_⟩, next⟩
      exact holds _ _ (before.snoc taken) (next ⟨past, met⟩)
  exact both.1

/-- `P` holds in every state of a run: those its steps were taken in, and the last. -/
def Everywhere (P : σ → Prop) (h : List (σ × ℓ)) (t : σ) : Prop := (∀ x ∈ h, P x.1) ∧ P t

theorem everywhere_iff_always {P : σ → Prop} : Everywhere P h t ↔ Always (fun _ => P) h t := by
  refine and_congr_left fun _ => ?_
  constructor
  · exact fun past h₁ x h₂ whole => past x (by simp [whole])
  · intro past x member
    obtain ⟨h₁, h₂, whole⟩ := List.append_of_mem member
    exact past h₁ x h₂ whole

/-- Where one step keeps `P` exactly when it meets `C`, a run stays in `P` exactly when all its
steps meet `C`. -/
theorem Run.everywhere_iff {P : σ → Prop} {C : σ → ℓ → Prop} (start : P s)
    (exactly : ∀ h t l u, Run step s h t → step t l u → P t → (P u ↔ C t l))
    (run : Run step s h t) : Everywhere P h t ↔ ∀ x ∈ h, C x.1 x.2 := by
  rw [everywhere_iff_always]
  exact run.always_iff start exactly

theorem Run.restrict {C : σ → ℓ → Prop} (run : Run step s h t) (meets : ∀ x ∈ h, C x.1 x.2) :
    Run (fun s l t => step s l t ∧ C s l) s h t := by
  induction run with
  | nil => exact .nil
  | snoc before taken ih =>
    rw [List.forall_mem_append, List.forall_mem_singleton] at meets
    exact (ih meets.1).snoc ⟨taken, meets.2⟩

/-! ### Simulation -/

/-- Where each step of one system is seen as a run of another, so is a run, and what the labels show adds up. -/
theorem Run.simulate {σ' ℓ' κ : Type*} {step' : σ' → ℓ' → σ' → Prop} (view : σ → σ') (shown : ℓ → List κ)
    (shown' : ℓ' → List κ) {C : ℓ → Prop}
    (each : ∀ h t l u, Run step s h t → step t l u → C l →
      ∃ k, Run step' (view t) k (view u) ∧ (labels k).flatMap shown' = shown l)
    (run : Run step s h t) (meets : ∀ x ∈ h, C x.2) :
    ∃ k, Run step' (view s) k (view t) ∧ (labels k).flatMap shown' = (labels h).flatMap shown := by
  induction run with
  | nil => exact ⟨[], .nil, rfl⟩
  | snoc before taken ih =>
    rw [List.forall_mem_append, List.forall_mem_singleton] at meets
    obtain ⟨k, first, same⟩ := ih meets.1
    obtain ⟨m, second, last⟩ := each _ _ _ _ before taken meets.2
    refine ⟨k ++ m, first.append second, ?_⟩
    simp only [labels_append, labels_cons, labels_nil, List.flatMap_append, List.flatMap_cons, List.flatMap_nil,
      List.append_nil, same, last]

theorem Run.single (taken : step s l t) : Run step s [(s, l)] t := Run.nil.snoc taken

/-! ### Waiting tasks -/

section Tasks

variable {τ : Type*} {P Q : τ → Prop} {tasks pre rest post : List τ} {task : τ}

theorem forall_spawned (held : ∀ x ∈ tasks, P x) (keep : ∀ x, P x → Q x) (new : Q task) :
    ∀ x ∈ tasks ++ [task], Q x := by
  intro x member
  rcases List.mem_append.mp member with old | last
  · exact keep x (held x old)
  · obtain rfl := List.mem_singleton.mp last
    exact new

/-- What all waiting tasks satisfy survives a step of one of them, if what is left of it does too. -/
theorem forall_replaced (held : ∀ x ∈ pre ++ task :: post, P x) (keep : ∀ x, P x → Q x) (left : ∀ x ∈ rest, Q x) :
    ∀ x ∈ pre ++ rest ++ post, Q x := by
  intro x member
  rcases List.mem_append.mp member with front | last
  · rcases List.mem_append.mp front with first | new
    · exact keep x (held x (List.mem_append_left _ first))
    · exact left x new
  · exact keep x (held x (List.mem_append_right _ (List.mem_cons_of_mem _ last)))

end Tasks

end Transition
