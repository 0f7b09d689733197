import Mathlib.Algebra.Order.Field.Power
import Mathlib.Data.Rat.Floor
import Mathlib.Tactic.FieldSimp
import Mathlib.Tactic.Linarith
import Mathlib.Tactic.Positivity

/-!
Rounding to binary64.

A magnitude is a nonnegative rational. `round64` rounds it to the nearest
multiple of its spacing, ties to even: 53 significant bits, and below the normal
range multiples of the least positive double. `Binary64.ofRat` adds the sign and
the overflow to infinity.

Every rounded magnitude is `m * 2 ^ e` with `m` at most `2 ^ 53` and `e` at least
`-1074` (`round64_grid`), and every such number rounds to itself
(`round64_of_grid`).
-/

namespace Relay.Numeric

/-- The exponent of the largest power of two up to `q`. -/
def log2Floor (q : ℚ) : Int :=
  let k := (Nat.log2 q.num.toNat : Int) - Nat.log2 q.den
  if (2 : ℚ) ^ k ≤ q then k else k - 1

/-- The nearest integer; of two, the even one. -/
def roundHalfEven (q : ℚ) : Int :=
  if q - ⌊q⌋ < 1 / 2 then ⌊q⌋
  else if 1 / 2 < q - ⌊q⌋ then ⌊q⌋ + 1
  else if ⌊q⌋ % 2 = 0 then ⌊q⌋ else ⌊q⌋ + 1

/-- The exponent of the distance between the doubles around `q`. -/
def spacing (q : ℚ) : Int := max (log2Floor q - 52) (-1074)

/-- The double nearest to a magnitude, as if exponents had no upper bound. -/
def round64 (q : ℚ) : ℚ := roundHalfEven (q / 2 ^ spacing q) * 2 ^ spacing q

inductive Binary64 where
  | finite (neg : Bool) (magnitude : ℚ)
  | infinity (neg : Bool)
  | nan
deriving DecidableEq

/-- The first magnitude that is too large. -/
def overflow : ℚ := 2 ^ 1024

/-- Halfway from the largest double to the first magnitude that is too large. -/
def halfway : ℚ := (2 ^ 53 - 1 / 2) * 2 ^ (971 : Int)

/-- The double nearest to `q`, or to `-q`. -/
def Binary64.ofRat (neg : Bool) (q : ℚ) : Binary64 :=
  if round64 q < overflow then .finite neg (round64 q) else .infinity neg

/-! ### Rounding to an integer -/

@[simp] theorem roundHalfEven_intCast (n : Int) : roundHalfEven n = n := by
  simp [roundHalfEven]

theorem abs_roundHalfEven_sub (q : ℚ) : |(roundHalfEven q : ℚ) - q| ≤ 1 / 2 := by
  have low := Int.floor_le q
  have high := Int.lt_floor_add_one q
  unfold roundHalfEven
  rw [abs_le]
  split_ifs with below above even
  · constructor <;> linarith
  · push_cast
    constructor <;> linarith
  · constructor <;> linarith
  · push_cast
    constructor <;> linarith

/-- Rounding does not cross an integer. -/
theorem roundHalfEven_le {q : ℚ} {n : Int} (le : q ≤ n) : roundHalfEven q ≤ n := by
  have near := (abs_le.mp (abs_roundHalfEven_sub q)).2
  by_cases same : q = n
  · rw [same, roundHalfEven_intCast]
  · have strict : q < n := lt_of_le_of_ne le same
    by_contra above
    have next : n + 1 ≤ roundHalfEven q := by omega
    have : ((n : ℚ) + 1) ≤ roundHalfEven q := by exact_mod_cast next
    linarith

theorem le_roundHalfEven {q : ℚ} {n : Int} (le : (n : ℚ) ≤ q) : n ≤ roundHalfEven q := by
  have near := (abs_le.mp (abs_roundHalfEven_sub q)).1
  by_cases same : q = n
  · rw [same, roundHalfEven_intCast]
  · have strict : (n : ℚ) < q := lt_of_le_of_ne le (Ne.symm same)
    by_contra below
    have next : roundHalfEven q ≤ n - 1 := by omega
    have : (roundHalfEven q : ℚ) ≤ (n : ℚ) - 1 := by exact_mod_cast next
    linarith

/-! ### Spacing -/

theorem log2Floor_spec {q : ℚ} (pos : 0 < q) :
    (2 : ℚ) ^ log2Floor q ≤ q ∧ q < 2 ^ (log2Floor q + 1) := by
  have two : (0 : ℚ) < 2 := by norm_num
  obtain ⟨n, num⟩ : ∃ n : Nat, q.num = n := Int.eq_ofNat_of_zero_le (Rat.num_pos.mpr pos).le
  have numPos : n ≠ 0 := by
    rintro rfl
    exact absurd num (ne_of_gt (Rat.num_pos.mpr pos))
  have denPos : (0 : ℚ) < q.den := by exact_mod_cast q.den_pos
  have ratio : q * q.den = n := by
    rw [Rat.mul_den_eq_num, num]
    rfl
  have numLow : (2 : ℚ) ^ Nat.log2 n ≤ n := by exact_mod_cast Nat.log2_self_le numPos
  have numHigh : (n : ℚ) < 2 ^ (Nat.log2 n + 1) := by exact_mod_cast Nat.lt_log2_self
  have denLow : (2 : ℚ) ^ Nat.log2 q.den ≤ q.den := by exact_mod_cast Nat.log2_self_le q.den_ne_zero
  have denHigh : (q.den : ℚ) < 2 ^ (Nat.log2 q.den + 1) := by exact_mod_cast Nat.lt_log2_self
  obtain ⟨k, exponent⟩ : ∃ k : Int, k = (Nat.log2 n : Int) - Nat.log2 q.den := ⟨_, rfl⟩
  have split : (2 : ℚ) ^ Nat.log2 n = 2 ^ k * 2 ^ Nat.log2 q.den := by
    rw [exponent, ← zpow_natCast, ← zpow_natCast, ← zpow_add₀ two.ne']
    congr 1
    omega
  have powPos : (0 : ℚ) < 2 ^ k := zpow_pos two k
  have above : q < 2 ^ (k + 1) := by
    have : q * q.den < 2 ^ (k + 1) * q.den := by
      calc q * q.den = n := ratio
        _ < 2 ^ (Nat.log2 n + 1) := numHigh
        _ = 2 ^ (k + 1) * 2 ^ Nat.log2 q.den := by rw [pow_succ, split, zpow_add_one₀ two.ne']; ring
        _ ≤ 2 ^ (k + 1) * q.den := by gcongr
    exact lt_of_mul_lt_mul_right this denPos.le
  have below : (2 : ℚ) ^ (k - 1) ≤ q := by
    have : (2 : ℚ) ^ (k - 1) * q.den ≤ q * q.den := by
      calc (2 : ℚ) ^ (k - 1) * q.den ≤ 2 ^ (k - 1) * 2 ^ (Nat.log2 q.den + 1) := by gcongr
        _ = 2 ^ Nat.log2 n := by rw [pow_succ, split, zpow_sub_one₀ two.ne']; ring
        _ ≤ n := numLow
        _ = q * q.den := ratio.symm
    exact le_of_mul_le_mul_right this denPos
  have exponent' : (Nat.log2 q.num.toNat : Int) - Nat.log2 q.den = k := by
    rw [num, Int.toNat_natCast, exponent]
  simp only [log2Floor, exponent']
  split
  · rename_i le
    exact ⟨le, above⟩
  · rename_i lt
    exact ⟨below, by simpa using lt⟩

/-- The exponent of the leading bit is at most that of a power above. -/
theorem log2Floor_lt {q : ℚ} (pos : 0 < q) {e : Int} (lt : q < 2 ^ e) : log2Floor q < e := by
  have low := (log2Floor_spec pos).1
  exact (zpow_lt_zpow_iff_right₀ (by norm_num : (1 : ℚ) < 2)).mp (lt_of_le_of_lt low lt)

theorem log2Floor_eq {q : ℚ} (pos : 0 < q) {e : Int} (low : 2 ^ e ≤ q) (high : q < 2 ^ (e + 1)) :
    log2Floor q = e := by
  have below := log2Floor_lt pos high
  have above := (log2Floor_spec pos).2
  have := (zpow_lt_zpow_iff_right₀ (by norm_num : (1 : ℚ) < 2)).mp (lt_of_le_of_lt low above)
  omega

@[simp] theorem round64_zero : round64 0 = 0 := by
  have : roundHalfEven 0 = 0 := by simpa using roundHalfEven_intCast 0
  simp [round64, this]

theorem round64_nonneg {q : ℚ} (nonneg : 0 ≤ q) : 0 ≤ round64 q := by
  have scale : (0 : ℚ) < 2 ^ spacing q := zpow_pos (by norm_num) _
  have : (0 : Int) ≤ roundHalfEven (q / 2 ^ spacing q) :=
    le_roundHalfEven (by simpa using div_nonneg nonneg scale.le)
  exact mul_nonneg (by exact_mod_cast this) scale.le

/-- A magnitude has at most 53 bits above its spacing. -/
theorem div_spacing_lt {q : ℚ} (pos : 0 < q) : q / 2 ^ spacing q < 2 ^ 53 := by
  have scale : (0 : ℚ) < 2 ^ spacing q := zpow_pos (by norm_num) _
  have high := (log2Floor_spec pos).2
  have least : log2Floor q + 1 ≤ 53 + spacing q := by
    have := le_max_left (log2Floor q - 52) (-1074)
    unfold spacing
    omega
  rw [div_lt_iff₀ scale, ← zpow_natCast, ← zpow_add₀ (by norm_num : (2 : ℚ) ≠ 0)]
  exact lt_of_lt_of_le high (zpow_le_zpow_right₀ (by norm_num) (by exact_mod_cast least))

/-- Every rounded magnitude is a multiple of its spacing with at most 53 bits. -/
theorem round64_grid {q : ℚ} (nonneg : 0 ≤ q) :
    ∃ (m : Nat) (e : Int), m ≤ 2 ^ 53 ∧ -1074 ≤ e ∧ round64 q = m * 2 ^ e := by
  rcases nonneg.eq_or_lt with rfl | pos
  · exact ⟨0, 0, by norm_num, by norm_num, by simp⟩
  · have scale : (0 : ℚ) < 2 ^ spacing q := zpow_pos (by norm_num) _
    have low : (0 : Int) ≤ roundHalfEven (q / 2 ^ spacing q) :=
      le_roundHalfEven (by simpa using div_nonneg nonneg scale.le)
    have high : roundHalfEven (q / 2 ^ spacing q) ≤ 2 ^ 53 :=
      roundHalfEven_le (by
        push_cast
        exact (div_spacing_lt pos).le)
    obtain ⟨m, same⟩ := Int.eq_ofNat_of_zero_le low
    refine ⟨m, spacing q, ?_, le_max_right _ _, ?_⟩
    · rw [same] at high
      exact_mod_cast high
    · rw [round64, same]
      rfl

/-- A number of at most 53 bits is its own double. -/
theorem round64_of_grid {m : Nat} {e : Int} (bits : m ≤ 2 ^ 53) (least : -1074 ≤ e) :
    round64 (m * 2 ^ e) = m * 2 ^ e := by
  suffices small : ∀ (m : Nat) (e : Int), m < 2 ^ 53 → -1074 ≤ e →
      round64 (m * 2 ^ e) = m * 2 ^ e by
    rcases Nat.lt_or_ge m (2 ^ 53) with lt | ge
    · exact small m e lt least
    · -- The largest one has a single bit, one place higher.
      have same : (m : ℚ) * 2 ^ e = ((2 ^ 52 : Nat) : ℚ) * 2 ^ (e + 1) := by
        have : m = 2 ^ 53 := le_antisymm bits ge
        rw [this, zpow_add_one₀ (by norm_num)]
        push_cast
        ring
      rw [same]
      exact small (2 ^ 52) (e + 1) (by norm_num) (by omega)
  intro m e bits least
  rcases Nat.eq_zero_or_pos m with rfl | pos
  · simp
  · have two : (2 : ℚ) ≠ 0 := by norm_num
    have positive : (0 : ℚ) < m * 2 ^ e := by positivity
    have below : (m : ℚ) * 2 ^ e < 2 ^ (53 + e) := by
      rw [zpow_add₀ two]
      have : (m : ℚ) < 2 ^ (53 : Int) := by exact_mod_cast bits
      gcongr
    have leading := log2Floor_lt positive below
    have fine : spacing (m * 2 ^ e) ≤ e := max_le (by omega) least
    obtain ⟨k, split⟩ := Int.eq_ofNat_of_zero_le (Int.sub_nonneg.mpr fine)
    have shifted : (m : ℚ) * 2 ^ e / 2 ^ spacing (m * 2 ^ e) = ((m * 2 ^ k : Nat) : Int) := by
      rw [mul_div_assoc, ← zpow_sub₀ two, split]
      push_cast
      rfl
    rw [round64, shifted, roundHalfEven_intCast, ← shifted]
    exact div_mul_cancel₀ _ (zpow_ne_zero _ two)

/-- A magnitude of 53 integral bits above a power of two rounds as that many bits. -/
theorem round64_scaled {y : ℚ} {e : Int} (low : 2 ^ 52 ≤ y) (high : y < 2 ^ 53) (least : -1074 ≤ e) :
    round64 (y * 2 ^ e) = roundHalfEven y * 2 ^ e := by
  have two : (2 : ℚ) ≠ 0 := by norm_num
  have scale : (0 : ℚ) < 2 ^ e := zpow_pos (by norm_num) _
  have pos : 0 < y := by linarith
  have leading : log2Floor (y * 2 ^ e) = 52 + e := by
    apply log2Floor_eq (mul_pos pos scale)
    · rw [zpow_add₀ two]
      have : (2 : ℚ) ^ (52 : Int) ≤ y := by exact_mod_cast low
      gcongr
    · have split : (52 + e + 1 : Int) = 53 + e := by omega
      rw [split, zpow_add₀ two]
      have : y < (2 : ℚ) ^ (53 : Int) := by exact_mod_cast high
      gcongr
  have fine : spacing (y * 2 ^ e) = e := by
    rw [spacing, leading]
    omega
  rw [round64, fine, mul_div_cancel_right₀ _ scale.ne']

/-- Rounding twice is rounding once. -/
theorem round64_round64 {q : ℚ} (nonneg : 0 ≤ q) : round64 (round64 q) = round64 q := by
  obtain ⟨m, e, bits, least, same⟩ := round64_grid nonneg
  rw [same]
  exact round64_of_grid bits least

/-- Integers up to `2 ^ 53` are exact. -/
theorem round64_natCast {n : Nat} (bits : n ≤ 2 ^ 53) : round64 n = n := by
  simpa using round64_of_grid bits (e := 0) (by norm_num)

/-- A magnitude is at most twice a nonzero double it rounds to. -/
theorem le_two_mul_round64 {q : ℚ} (pos : 0 < q) (nonzero : round64 q ≠ 0) : q ≤ 2 * round64 q := by
  have scale : (0 : ℚ) < 2 ^ spacing q := zpow_pos (by norm_num) _
  have near := (abs_le.mp (abs_roundHalfEven_sub (q / 2 ^ spacing q))).1
  have low : (0 : Int) ≤ roundHalfEven (q / 2 ^ spacing q) :=
    le_roundHalfEven (by simpa using div_nonneg pos.le scale.le)
  have one : (1 : Int) ≤ roundHalfEven (q / 2 ^ spacing q) := by
    by_contra small
    have none : roundHalfEven (q / 2 ^ spacing q) = 0 := by omega
    exact nonzero (by rw [round64, none]; simp)
  have oneLe : (1 : ℚ) ≤ roundHalfEven (q / 2 ^ spacing q) := by exact_mod_cast one
  have bound : q / 2 ^ spacing q ≤ 2 * roundHalfEven (q / 2 ^ spacing q) := by linarith
  calc q = q / 2 ^ spacing q * 2 ^ spacing q := (div_mul_cancel₀ _ scale.ne').symm
    _ ≤ 2 * roundHalfEven (q / 2 ^ spacing q) * 2 ^ spacing q := by gcongr
    _ = 2 * round64 q := by rw [round64]; ring

end Relay.Numeric
