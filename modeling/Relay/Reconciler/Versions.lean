import Relay.Numeric.Nearest
import Relay.Reconciler.Events

/-!
The version that Python computes for a stamp of milliseconds.

`int(stamp.timestamp() * 1000)` rounds twice and truncates. The first rounding
moves the seconds by up to half of their spacing; the second brings the product
back to a whole millisecond unless its own spacing is finer than 1000 times that
error. Where the seconds were rounded up nothing is lost by truncating, and where
they were rounded down the version is one too small (`version_millis`).
-/

namespace Relay.Reconciler

open Relay.Python Relay.Numeric

/-- The seconds of millisecond `k`, rounded to their spacing `2 ^ -j`. -/
theorem timestamp_nearest {k j : Nat} (low : 1000 * 2 ^ 52 ≤ k * 2 ^ j)
    (high : k * 2 ^ j < 1000 * 2 ^ 53) (small : j ≤ 1074) :
    timestamp (1000 * k) = nearest (k * 2 ^ j) 1000 * 2 ^ (-(j : Int)) := by
  obtain ⟨n, total⟩ : ∃ n, n = k * 2 ^ j := ⟨_, rfl⟩
  rw [← total] at low high ⊢
  have scaled : ((1000 * k : Int) : ℚ) / 1000000 = (n : ℚ) / 1000 * 2 ^ (-(j : Int)) := by
    rw [total, zpow_neg, zpow_natCast]
    push_cast
    field_simp
    ring
  have lower : (2 : ℚ) ^ 52 ≤ (n : ℚ) / 1000 := by
    rw [le_div_iff₀ (by norm_num), mul_comm]
    exact_mod_cast low
  have upper : (n : ℚ) / 1000 < 2 ^ 53 := by
    rw [div_lt_iff₀ (by norm_num), mul_comm]
    exact_mod_cast high
  have sign : ¬ ((1000 * k : Int) : ℚ) / 1000000 < 0 := not_lt.mpr (by positivity)
  have rounded := roundHalfEven_natDiv n (show 0 < 1000 by norm_num)
  push_cast at rounded
  rw [timestamp, roundSigned, if_neg sign, scaled, round64_scaled lower upper (by omega), rounded]
  rfl

theorem truncate_grid (b w : Nat) : truncate ((b : ℚ) * 2 ^ (-(w : Int))) = (b / 2 ^ w : Nat) := by
  have quotient : (b : ℚ) * 2 ^ (-(w : Int)) = (b : ℚ) / (2 ^ w : Nat) := by
    rw [zpow_neg, zpow_natCast]
    push_cast
    rfl
  have sign : ¬ (b : ℚ) * 2 ^ (-(w : Int)) < 0 := not_lt.mpr (by positivity)
  rw [truncate, if_neg sign, quotient, Rat.floor_natCast_div_natCast, Int.natCast_div]

/-- Their product with 1000, rounded to its spacing `2 ^ -w` and cut off. -/
theorem version_nearest {k i w : Nat} (low : 1000 * 2 ^ 52 ≤ k * 2 ^ (i + w))
    (high : k * 2 ^ (i + w) < 1000 * 2 ^ 53) (small : i + w ≤ 1074)
    (low' : 2 ^ 52 * 2 ^ i ≤ nearest (k * 2 ^ (i + w)) 1000 * 1000)
    (high' : nearest (k * 2 ^ (i + w)) 1000 * 1000 < 2 ^ 53 * 2 ^ i) :
    version (1000 * k) = (nearest (nearest (k * 2 ^ (i + w)) 1000 * 1000) (2 ^ i) / 2 ^ w : Nat) := by
  have seconds := timestamp_nearest low high small
  obtain ⟨a, first⟩ : ∃ a, a = nearest (k * 2 ^ (i + w)) 1000 := ⟨_, rfl⟩
  rw [← first] at low' high' seconds ⊢
  have product : timestamp (1000 * k) * 1000 = ((a * 1000 : Nat) : ℚ) / (2 ^ i : Nat) * 2 ^ (-(w : Int)) := by
    have split : (2 : ℚ) ^ (-((i + w : Nat) : Int)) = 2 ^ (-(w : Int)) / (2 ^ i : Nat) := by
      rw [Nat.cast_add, neg_add, zpow_add₀ (by norm_num), zpow_neg, zpow_natCast]
      push_cast
      ring
    rw [seconds, split]
    push_cast
    ring
  have powPos : (0 : ℚ) < (2 ^ i : Nat) := by positivity
  have lower : (2 : ℚ) ^ 52 ≤ ((a * 1000 : Nat) : ℚ) / (2 ^ i : Nat) := by
    rw [le_div_iff₀ powPos]
    exact_mod_cast low'
  have upper : ((a * 1000 : Nat) : ℚ) / (2 ^ i : Nat) < 2 ^ 53 := by
    rw [div_lt_iff₀ powPos]
    exact_mod_cast high'
  have nonneg : (0 : ℚ) ≤ ((a * 1000 : Nat) : ℚ) / (2 ^ i : Nat) * 2 ^ (-(w : Int)) :=
    mul_nonneg (div_nonneg (Nat.cast_nonneg _) powPos.le) (zpow_nonneg (by norm_num) _)
  rw [version, product, roundSigned, if_neg (not_lt.mpr nonneg), round64_scaled lower upper (by omega),
    roundHalfEven_natDiv _ (by positivity)]
  exact truncate_grid _ w

/-- The milliseconds whose seconds are rounded down so far that the product is too: their leading
bit makes the product's spacing 512 of the seconds' units, and the seconds lose more than 256
and less than 500 thousandths of a unit. -/
def Slips (k : Nat) : Prop :=
  1000 * 2 ^ Nat.log2 k ≤ 512 * k ∧ 256 < k * 2 ^ (61 - Nat.log2 k) % 1000 ∧
    k * 2 ^ (61 - Nat.log2 k) % 1000 < 500

instance (k : Nat) : Decidable (Slips k) := by
  unfold Slips
  infer_instance

theorem nearest_cases (n : Nat) : (∃ r, r ≤ 500 ∧ nearest n 1000 * 1000 + r = n ∧ n % 1000 = r) ∨
    (∃ r, r ≤ 500 ∧ nearest n 1000 * 1000 = n + r ∧ n % 1000 + r = 1000) := by
  unfold nearest
  split_ifs
  · exact .inl ⟨n % 1000, by omega, by omega, rfl⟩
  · exact .inr ⟨1000 - n % 1000, by omega, by omega, by omega⟩
  · exact .inl ⟨n % 1000, by omega, by omega, rfl⟩
  · exact .inr ⟨1000 - n % 1000, by omega, by omega, by omega⟩

/-- Where the product's spacing is 512 units of the seconds' one, the second rounding undoes the
first unless that took off more than half of it. -/
theorem nearest_512 {K : Nat} (even : K % 2 = 0) :
    nearest (nearest (512 * K) 1000 * 1000) 512 =
      if 256 < 512 * K % 1000 ∧ 512 * K % 1000 < 500 then K - 1
      else if 500 < 512 * K % 1000 ∧ 512 * K % 1000 < 744 then K + 1 else K := by
  rcases nearest_cases (512 * K) with ⟨r, bound, total, part⟩ | ⟨r, bound, total, part⟩
  · rw [nearest_sub (by norm_num) even total (by omega)]
    have noHalf : r ≠ 500 := by omega
    split_ifs <;> omega
  · rw [nearest_add (by norm_num) even total (by omega)]
    have noHalf : r ≠ 500 := by omega
    split_ifs <;> omega

/-- Where it is 1024 of them it always does. -/
theorem nearest_1024 {K : Nat} (even : K % 2 = 0) :
    nearest (nearest (1024 * K) 1000 * 1000) 1024 = K := by
  rcases nearest_cases (1024 * K) with ⟨r, bound, total, part⟩ | ⟨r, bound, total, part⟩
  · rw [nearest_sub (by norm_num) even total (by omega), if_neg (by omega)]
  · rw [nearest_add (by norm_num) even total (by omega), if_neg (by omega)]

/-- Python's version of a millisecond before the year 10000 is the millisecond, or the one before
it where the roundings slip. -/
theorem version_millis {k : Nat} (fits : k < 2 ^ 48) :
    version (1000 * k) = if Slips k then (k : Int) - 1 else k := by
  rcases Nat.eq_zero_or_pos k with rfl | pos
  · have none : ¬ Slips 0 := by decide
    have zero : version (1000 * (0 : Nat)) = 0 := by
      simp [version, timestamp, roundSigned, truncate]
    rw [zero, if_neg none]
    rfl
  have low := Nat.log2_self_le pos.ne'
  have high := @Nat.lt_log2_self k
  obtain ⟨m, leading⟩ : ∃ m, m = Nat.log2 k := ⟨_, rfl⟩
  simp only [Slips, ← leading] at low high ⊢
  have small : m ≤ 47 := by
    by_contra big
    have := Nat.pow_le_pow_right (show 0 < 2 by norm_num) (show 48 ≤ m by omega)
    omega
  -- `w` fraction bits are left beside the bits of `k`.
  obtain ⟨w, width⟩ : ∃ w, w + m = 52 := ⟨52 - m, by omega⟩
  have unit : 2 ^ m * 2 ^ w = 2 ^ 52 := by rw [← Nat.pow_add, Nat.add_comm, width]
  have half : 2 ∣ 2 ^ w := dvd_pow_self 2 (by omega)
  have wide : 2 ≤ 2 ^ w := Nat.le_of_dvd (by positivity) half
  obtain ⟨whole, next, previous⟩ := grid_div pos wide
  have even : k * 2 ^ w % 2 = 0 := Nat.mod_eq_zero_of_dvd (half.mul_left k)
  have lower : 2 ^ 52 ≤ k * 2 ^ w := unit ▸ Nat.mul_le_mul_right _ low
  have higher : k * 2 ^ w + 2 ^ w ≤ 2 ^ 53 := by
    have : (k + 1) * 2 ^ w ≤ 2 ^ (m + 1) * 2 ^ w := Nat.mul_le_mul_right _ high
    rw [pow_succ, Nat.mul_right_comm, unit, Nat.add_mul] at this
    omega
  have scaled : ∀ i, k * 2 ^ (i + w) = 2 ^ i * (k * 2 ^ w) := by
    intro i
    rw [Nat.pow_add]
    ring
  obtain ⟨K, grid⟩ : ∃ K, K = k * 2 ^ w := ⟨_, rfl⟩
  rw [← grid] at whole next previous even lower higher
  by_cases fine : 1000 * 2 ^ m ≤ 512 * k
  · have enough : 1000 * 2 ^ 52 ≤ 512 * K := by
      have := Nat.mul_le_mul_right (2 ^ w) fine
      rwa [Nat.mul_assoc, unit, Nat.mul_assoc, ← grid] at this
    have exponent : 61 - m = 9 + w := by omega
    have product : k * 2 ^ (9 + w) = 512 * K := by rw [scaled, ← grid]; rfl
    have value := @version_nearest k 9 w
    have bounds : 2 ^ 52 * 2 ^ 9 ≤ nearest (512 * K) 1000 * 1000 ∧
        nearest (512 * K) 1000 * 1000 < 2 ^ 53 * 2 ^ 9 := by
      rcases nearest_cases (512 * K) with ⟨r, bound, total, _⟩ | ⟨r, bound, total, _⟩ <;> omega
    rw [product] at value
    have rounded := nearest_512 even
    rw [exponent, product, value enough (by omega) (by omega) bounds.1 bounds.2,
      show 2 ^ 9 = 512 by norm_num, rounded]
    by_cases slips : 256 < 512 * K % 1000 ∧ 512 * K % 1000 < 500
    · rw [if_pos slips, if_pos ⟨fine, slips⟩, previous]
      omega
    · have keeps : ¬ (1000 * 2 ^ m ≤ 512 * k ∧ 256 < 512 * K % 1000 ∧ 512 * K % 1000 < 500) :=
        fun both => slips both.2
      rw [if_neg slips, if_neg keeps]
      split_ifs
      · rw [next]
      · rw [whole]
  · have enough : 1024 * K < 1000 * 2 ^ 53 := by
      have := Nat.mul_lt_mul_of_pos_right (Nat.lt_of_not_le fine) (show 0 < 2 ^ w by positivity)
      rw [Nat.mul_assoc, ← grid, Nat.mul_assoc, unit] at this
      omega
    have product : k * 2 ^ (10 + w) = 1024 * K := by rw [scaled, ← grid]; rfl
    have value := @version_nearest k 10 w
    have bounds : 2 ^ 52 * 2 ^ 10 ≤ nearest (1024 * K) 1000 * 1000 ∧
        nearest (1024 * K) 1000 * 1000 < 2 ^ 53 * 2 ^ 10 := by
      -- The product of a power of two is rounded up, so it does not fall below it.
      rcases lower.eq_or_lt with same | above
      · rw [← same]
        decide
      · rcases nearest_cases (1024 * K) with ⟨r, bound, total, _⟩ | ⟨r, bound, total, _⟩ <;> omega
    rw [product] at value
    rw [value (by omega) enough (by omega) bounds.1 bounds.2, show 2 ^ 10 = 1024 by norm_num,
      nearest_1024 even, whole, if_neg fun both => fine both.1]

end Relay.Reconciler
