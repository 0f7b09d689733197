import Relay.Numeric.Binary64

/-!
Rounding a quotient of natural numbers.

`roundHalfEven` of a quotient is `nearest`, which looks at its remainder alone,
so a chain of roundings over one power of two becomes arithmetic of naturals.
-/

namespace Relay.Numeric

/-- The natural number nearest to `n / d`; of two, the even one. -/
def nearest (n d : Nat) : Nat :=
  if 2 * (n % d) < d then n / d
  else if d < 2 * (n % d) then n / d + 1
  else if n / d % 2 = 0 then n / d else n / d + 1

theorem roundHalfEven_natDiv (n : Nat) {d : Nat} (pos : 0 < d) :
    roundHalfEven ((n : ℚ) / d) = nearest n d := by
  have dPos : (0 : ℚ) < d := by exact_mod_cast pos
  have whole : ⌊(n : ℚ) / d⌋ = ((n / d : Nat) : Int) := by
    rw [Rat.floor_natCast_div_natCast]
    exact Int.natCast_div n d
  have part : (n : ℚ) / d - ((n / d : Nat) : ℚ) = ((n % d : Nat) : ℚ) / d := by
    have split : (n : ℚ) = d * (n / d : Nat) + (n % d : Nat) := by
      exact_mod_cast (Nat.div_add_mod n d).symm
    rw [sub_eq_iff_eq_add, div_eq_iff dPos.ne', add_mul, div_mul_cancel₀ _ dPos.ne', split]
    ring
  have below : ((n % d : Nat) : ℚ) / d < 1 / 2 ↔ 2 * (n % d) < d := by
    rw [div_lt_div_iff₀ dPos (by norm_num)]
    norm_cast
    omega
  have above : 1 / 2 < ((n % d : Nat) : ℚ) / d ↔ d < 2 * (n % d) := by
    rw [div_lt_div_iff₀ (by norm_num) dPos]
    norm_cast
    omega
  have even : ((n / d : Nat) : Int) % 2 = 0 ↔ n / d % 2 = 0 := by omega
  simp only [roundHalfEven, nearest, whole, Int.cast_natCast, part, below, above, even]
  push_cast
  rfl

theorem nearest_down {n d : Nat} (below : 2 * (n % d) < d) : nearest n d = n / d := if_pos below

theorem nearest_up {n d : Nat} (above : d < 2 * (n % d)) : nearest n d = n / d + 1 := by
  rw [nearest, if_neg (by omega), if_pos above]

theorem nearest_tie {n d : Nat} (half : 2 * (n % d) = d) :
    nearest n d = if n / d % 2 = 0 then n / d else n / d + 1 := by
  rw [nearest, if_neg (by omega), if_neg (by omega)]

/-- A number less than `d` below a multiple of `d` rounds to the multiple or to the one before. -/
theorem nearest_sub {n d K r : Nat} (pos : 0 < d) (even : K % 2 = 0) (below : n + r = d * K) (less : r < d) :
    nearest n d = if d < 2 * r then K - 1 else K := by
  rcases Nat.eq_zero_or_pos r with rfl | some
  · have quotient : n / d = K ∧ n % d = 0 := by
      rw [← Nat.add_zero n, below]
      exact ⟨Nat.mul_div_cancel_left K pos, Nat.mul_mod_right d K⟩
    rw [nearest_down (by omega), if_neg (by omega), quotient.1]
  · obtain ⟨L, rfl⟩ : ∃ L, K = L + 1 := ⟨K - 1, by
      have : 0 < K := Nat.pos_of_ne_zero (by rintro rfl; omega)
      omega⟩
    have value : n = d * L + (d - r) := by
      rw [Nat.mul_succ] at below
      omega
    have part : n % d = d - r := by
      rw [value, Nat.mul_add_mod, Nat.mod_eq_of_lt (by omega)]
    have quotient : n / d = L := by
      rw [value, Nat.mul_add_div pos, Nat.div_eq_of_lt (by omega), Nat.add_zero]
    split_ifs with far
    · rw [nearest_down (by omega), quotient]
      rfl
    · rcases Nat.lt_or_eq_of_le (Nat.le_of_not_lt far) with near | tie
      · rw [nearest_up (by omega), quotient]
      · rw [nearest_tie (by omega), quotient, if_neg (by omega)]

/-- Above a multiple it rounds to the multiple or to the next one. -/
theorem nearest_add {n d K r : Nat} (pos : 0 < d) (even : K % 2 = 0) (above : n = d * K + r) (less : r < d) :
    nearest n d = if d < 2 * r then K + 1 else K := by
  have part : n % d = r := by rw [above, Nat.mul_add_mod, Nat.mod_eq_of_lt less]
  have quotient : n / d = K := by
    rw [above, Nat.mul_add_div pos, Nat.div_eq_of_lt less, Nat.add_zero]
  split_ifs with far
  · rw [nearest_up (by omega), quotient]
  · rcases Nat.lt_or_eq_of_le (Nat.le_of_not_lt far) with near | tie
    · rw [nearest_down (by omega), quotient]
    · rw [nearest_tie (by omega), quotient, if_pos even]

/-- A multiple of `d`, or a number next to one, divided by `d`. -/
theorem grid_div {k d : Nat} (pos : 0 < k) (wide : 2 ≤ d) :
    k * d / d = k ∧ (k * d + 1) / d = k ∧ (k * d - 1) / d = k - 1 := by
  have dPos : 0 < d := by omega
  obtain ⟨j, rfl⟩ : ∃ j, k = j + 1 := ⟨k - 1, by omega⟩
  have before : (j + 1) * d - 1 = d * j + (d - 1) := by
    rw [Nat.add_mul, Nat.one_mul, Nat.mul_comm]
    omega
  refine ⟨Nat.mul_div_cancel _ dPos, ?_, ?_⟩
  · rw [Nat.mul_comm, Nat.mul_add_div dPos, Nat.div_eq_of_lt wide]
  · rw [before, Nat.mul_add_div dPos, Nat.div_eq_of_lt (by omega)]
    rfl

end Relay.Numeric
