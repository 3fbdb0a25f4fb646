import Mathlib.Data.Nat.Log
import Mathlib.Algebra.Ring.Nat

/-!
# Sums of doubles

A double has 53 binary digits. The integers up to `2 ^ 53` are all among the doubles, and beyond it a
sum is rounded to the next one, and to the even one of two. Sums beyond the largest double are left out.
-/

namespace Double

/-- The distance between the doubles around `n`, which is 1 where they are closer than that. -/
def spacing (n : Nat) : Nat := 2 ^ (n.log2 - 52)

def divNearest (n d : Nat) : Nat :=
  if 2 * (n % d) < d ∨ (2 * (n % d) = d ∧ n / d % 2 = 0) then n / d else n / d + 1

def roundNat (n : Nat) : Nat := divNearest n (spacing n) * spacing n

def round (n : Int) : Int := if n < 0 then -(roundNat n.natAbs : Int) else roundNat n.natAbs

def add (a b : Int) : Int := round (a + b)

variable {m n c d : Nat} {a b : Int}

/-! ### The nearest multiple -/

theorem spacing_pos (n : Nat) : 0 < spacing n := Nat.two_pow_pos _

theorem div_le_divNearest (n d : Nat) : n / d ≤ divNearest n d := by
  unfold divNearest
  split <;> omega

theorem divNearest_le (n d : Nat) : divNearest n d ≤ n / d + 1 := by
  unfold divNearest
  split <;> omega

theorem divNearest_mul (c : Nat) (positive : 0 < d) : divNearest (c * d) d = c := by
  rw [divNearest, Nat.mul_mod_left, Nat.mul_div_cancel c positive, if_pos (by omega)]

theorem divNearest_mono (le : m ≤ n) (d : Nat) : divNearest m d ≤ divNearest n d := by
  rcases Nat.lt_or_eq_of_le (Nat.div_le_div_right (c := d) le) with below | same
  · exact (divNearest_le m d).trans (below.trans_le (div_le_divNearest n d))
  · have rests : m % d ≤ n % d := by
      have first := Nat.div_add_mod m d
      have second := Nat.div_add_mod n d
      rw [same] at first
      omega
    unfold divNearest
    rw [same]
    split_ifs with down up up <;> omega

/-! ### Rounding -/

theorem roundNat_of_dvd (whole : spacing n ∣ n) : roundNat n = n := by
  obtain ⟨c, same⟩ := whole
  rw [Nat.mul_comm] at same
  have nearest := divNearest_mul c (spacing_pos n)
  rw [← same] at nearest
  rw [roundNat, nearest, ← same]

theorem roundNat_of_le (small : n ≤ 2 ^ 53) : roundNat n = n := by
  refine roundNat_of_dvd ?_
  rcases Nat.lt_or_eq_of_le small with below | rfl
  · rcases Nat.eq_zero_or_pos n with rfl | positive
    · exact Nat.dvd_zero _
    · have digits : n.log2 < 53 := (Nat.log2_lt positive.ne').mpr below
      rw [spacing, show n.log2 - 52 = 0 by omega]
      exact Nat.one_dvd n
  · decide

/-- A power of two lies on either side of a number and of the number rounded. -/
theorem pow_log2_dvd (n k : Nat) (above : n.log2 ≤ k) : ∃ c, 2 ^ k = c * spacing n := by
  refine ⟨2 ^ (k - (n.log2 - 52)), ?_⟩
  rw [spacing, ← Nat.pow_add]
  congr 1
  omega

theorem pow_le_roundNat (positive : n ≠ 0) : 2 ^ n.log2 ≤ roundNat n := by
  obtain ⟨c, same⟩ := pow_log2_dvd n n.log2 (Nat.le_refl _)
  have least : c * spacing n ≤ n := same ▸ Nat.log2_self_le positive
  have kept := divNearest_mono least (spacing n)
  rw [divNearest_mul c (spacing_pos n)] at kept
  rw [same]
  exact Nat.mul_le_mul_right _ kept

theorem roundNat_le_pow (n : Nat) : roundNat n ≤ 2 ^ (n.log2 + 1) := by
  obtain ⟨c, same⟩ := pow_log2_dvd n (n.log2 + 1) (Nat.le_succ _)
  have most : n ≤ c * spacing n := same ▸ Nat.lt_log2_self.le
  have kept := divNearest_mono most (spacing n)
  rw [divNearest_mul c (spacing_pos n)] at kept
  rw [same]
  exact Nat.mul_le_mul_right _ kept

theorem roundNat_mono (le : m ≤ n) : roundNat m ≤ roundNat n := by
  rcases Nat.eq_zero_or_pos m with rfl | positive
  · rw [roundNat_of_le (Nat.zero_le _)]
    exact Nat.zero_le _
  have positive' : n ≠ 0 := (positive.trans_le le).ne'
  have digits : m.log2 ≤ n.log2 := (Nat.le_log2 positive').mpr ((Nat.log2_self_le positive.ne').trans le)
  rcases Nat.lt_or_eq_of_le digits with fewer | same
  · calc roundNat m ≤ 2 ^ (m.log2 + 1) := roundNat_le_pow m
      _ ≤ 2 ^ n.log2 := Nat.pow_le_pow_right (by decide) fewer
      _ ≤ roundNat n := pow_le_roundNat positive'
  · have spaced : spacing m = spacing n := by rw [spacing, spacing, same]
    rw [roundNat, roundNat, spaced]
    exact Nat.mul_le_mul_right _ (divNearest_mono le (spacing n))

theorem round_mono (le : a ≤ b) : round a ≤ round b := by
  unfold round
  split_ifs with first second second
  · have larger := @roundNat_mono b.natAbs a.natAbs (by omega)
    omega
  · omega
  · omega
  · have larger := @roundNat_mono a.natAbs b.natAbs (by omega)
    omega

theorem round_of_le (small : a.natAbs ≤ 2 ^ 53) : round a = a := by
  rw [round, roundNat_of_le small]
  omega

example : round (2 ^ 53 + 1) = 2 ^ 53 ∧ round (-(2 ^ 53 + 3)) = -(2 ^ 53 + 4) := by decide

end Double
