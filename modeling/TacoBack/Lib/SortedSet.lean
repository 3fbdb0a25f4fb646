import Mathlib.Data.List.AList
import Mathlib.Data.List.Sort
import Mathlib.Data.String.Basic

/-!
# Sorted sets

Members with a score each, ranked by score and, where scores are equal, by member. Ranks count
from 0, and negative ranks from the end.
-/

namespace SortedSet

variable {S : Type} [LinearOrder S]

abbrev Scores (S : Type) := AList fun _ : String => S

def Before (x y : Σ _ : String, S) : Prop := x.2 < y.2 ∨ x.2 = y.2 ∧ x.1 ≤ y.1

instance : DecidableRel (Before (S := S)) := fun x y =>
  inferInstanceAs (Decidable (x.2 < y.2 ∨ x.2 = y.2 ∧ x.1 ≤ y.1))

def ranked (scores : Scores S) : List String :=
  (scores.entries.insertionSort Before).map Sigma.fst

def rank (size : Nat) (index : Int) : Int := if index < 0 then index + size else index

/-- The members at the ranks from `start` to `stop`, both included. -/
def range (scores : Scores S) (start stop : Int) : List String :=
  ((ranked scores).take (rank scores.entries.length stop + 1).toNat).drop (rank scores.entries.length start).toNat

def removeRange (scores : Scores S) (start stop : Int) : Scores S :=
  (range scores start stop).foldl (fun rest member => rest.erase member) scores

theorem mem_ranked {scores : Scores S} {member : String} : member ∈ ranked scores ↔ member ∈ scores := by
  unfold ranked
  rw [((List.perm_insertionSort _ scores.entries).map _).mem_iff]
  exact Iff.rfl

theorem length_ranked (scores : Scores S) : (ranked scores).length = scores.entries.length := by
  rw [ranked, List.length_map, List.length_insertionSort]

theorem nodup_ranked (scores : Scores S) : (ranked scores).Nodup :=
  ((List.perm_insertionSort _ scores.entries).map _).nodup_iff.mpr scores.nodupKeys

instance : Std.Total (Before (S := S)) where
  total x y := by
    rcases lt_trichotomy x.2 y.2 with less | same | more
    · exact .inl (.inl less)
    · exact (le_total x.1 y.1).imp (fun order => .inr ⟨same, order⟩) fun order => .inr ⟨same.symm, order⟩
    · exact .inr (.inl more)

instance : IsTrans (Σ _ : String, S) Before where
  trans x y z first second := by
    rcases first with less | ⟨same, order⟩ <;> rcases second with less' | ⟨same', order'⟩
    · exact .inl (less.trans less')
    · exact .inl (same' ▸ less)
    · exact .inl (same ▸ less')
    · exact .inr ⟨same.trans same', order.trans order'⟩

/-- Down the ranks the scores do not fall. -/
theorem pairwise_ranked (scores : Scores S) : (ranked scores).Pairwise fun x y =>
    ∀ m n, scores.lookup x = some m → scores.lookup y = some n → m ≤ n := by
  rw [ranked, List.pairwise_map]
  have sorted := List.pairwise_insertionSort Before scores.entries
  refine sorted.imp_of_mem fun {x y} first second before m n here there => ?_
  have stored : ∀ entry ∈ scores.entries.insertionSort Before, scores.lookup entry.1 = some entry.2 :=
    fun entry member => AList.mem_lookup_iff.mpr ((List.mem_insertionSort _).mp member)
  obtain rfl := Option.some.inj ((stored x first).symm.trans here)
  obtain rfl := Option.some.inj ((stored y second).symm.trans there)
  exact before.elim le_of_lt fun both => both.1.le

theorem range_sublist (scores : Scores S) (start stop : Int) :
    (range scores start stop).Sublist (ranked scores) :=
  (List.drop_sublist _ _).trans (List.take_sublist _ _)

theorem mem_of_mem_range {scores : Scores S} {start stop : Int} {member : String}
    (listed : member ∈ range scores start stop) : member ∈ scores :=
  mem_ranked.mp ((range_sublist scores start stop).subset listed)

omit [LinearOrder S] in
theorem mem_foldl_erase {members : List String} {scores : Scores S} {member : String} :
    member ∈ members.foldl (fun rest m => rest.erase m) scores ↔ member ∈ scores ∧ member ∉ members := by
  induction members generalizing scores with
  | nil => simp
  | cons first rest ih =>
    rw [List.foldl_cons, ih, AList.mem_erase, List.mem_cons, not_or]
    tauto

theorem mem_removeRange {scores : Scores S} {start stop : Int} {member : String} :
    member ∈ removeRange scores start stop ↔ member ∈ scores ∧ member ∉ range scores start stop :=
  mem_foldl_erase

/-! ### Windows of a list -/

section Windows

variable {α : Type*}

def window (xs : List α) (start stop : Int) : List α :=
  (xs.take (rank xs.length stop + 1).toNat).drop (rank xs.length start).toNat

theorem range_eq_window (scores : Scores S) (start stop : Int) :
    range scores start stop = window (ranked scores) start stop := by
  rw [window, length_ranked]
  rfl

theorem length_window (xs : List α) (start stop : Int) : (window xs start stop).length =
    min (rank xs.length stop + 1).toNat xs.length - (rank xs.length start).toNat := by
  rw [window, List.length_drop, List.length_take]

/-- A window that starts at the front, or so far before the end that it is the front. -/
theorem window_front {xs : List α} {start stop : Int} (front : start = 0 ∨ start + xs.length ≤ 0)
    (forward : 0 ≤ stop) : window xs start stop = xs.take (stop + 1).toNat := by
  have first : (rank xs.length start).toNat = 0 := by
    unfold rank
    split <;> omega
  rw [window, first, List.drop_zero, rank, if_neg (by omega)]

end Windows

end SortedSet
