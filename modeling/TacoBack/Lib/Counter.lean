import Mathlib
import TacoBack.Lib.Redis

/-!
# Counters

A key that only `INCRBY` writes. An absent key counts zero.
-/

namespace Redis

variable {α : Type} {db db' : Db α} {key other text : String} {n : Int}

def counter (db : Db α) (key : String) : Option Int :=
  match get db key with
  | .ok none => some 0
  | .ok (some text) => text.toInt?
  | .error _ => none

theorem counter_congr (same : db key = db' key) : counter db key = counter db' key := by
  simp only [counter, get, same]

theorem counter_empty : counter (fun _ => none : Db α) key = some 0 := rfl

theorem counter_set (db : Db α) (key : String) (n : Int) : counter (set db key (toString n)) key = some n := by
  simp only [counter, get_set]
  exact Int.toInt?_repr n

/-- `INCRBY` on a counter goes through and touches no other key. -/
theorem incrby_counter (counts : counter db key = some n) (amount : Int) :
    ∃ db', incrby db key amount = .ok db' ∧ counter db' key = some (n + amount) ∧
      ∀ other, other ≠ key → db' other = db other := by
  unfold counter at counts
  split at counts
  · rename_i absent
    obtain rfl := Option.some.inj counts
    refine ⟨set db key (toString amount), by simp [incrby, absent], ?_, fun other => set_of_ne db _⟩
    rw [counter_set, Int.zero_add]
  · rename_i old read
    refine ⟨set db key (toString (n + amount)), by simp [incrby, read, counts], ?_, fun other => set_of_ne db _⟩
    exact counter_set _ _ _
  · cases counts

theorem incrby_of_ne {amount : Int} (done : incrby db key amount = .ok db') (different : other ≠ key) :
    db' other = db other := by
  unfold incrby at done
  split at done
  · cases done
  · obtain rfl := Except.ok.inj done
    exact set_of_ne db _ different
  · split at done
    · obtain rfl := Except.ok.inj done
      exact set_of_ne db _ different
    · cases done

theorem counter_of_incrby {amount : Int} (done : incrby db key amount = .ok db') : ∃ n, counter db key = some n := by
  unfold incrby at done
  unfold counter
  split at done
  · cases done
  · rename_i absent
    exact ⟨0, by rw [absent]⟩
  · rename_i read
    split at done
    · rename_i old counts
      exact ⟨old, by rw [read]; exact counts⟩
    · cases done

end Redis
