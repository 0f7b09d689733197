import Relay.Numeric.Binary64

/-!
The shortest decimal of a double.

A positive double is printed as `n * 10 ^ t` with `t` as large as it can be so
that the decimal still rounds to the double; of the decimals with that last
place, the nearest is taken, and of two equally near the one with the even
digit. `shortest` searches for it from a last place that is too coarse downward.

`IsShortest` states the same choice of a decimal without naming the search, and
`shortest_eq_iff` says that a decimal comes back from its double exactly when it
is that choice.
-/

namespace Relay.Numeric

/-! ### Rounding is monotone -/

theorem roundHalfEven_mono {q r : ℚ} (le : q ≤ r) : roundHalfEven q ≤ roundHalfEven r := by
  have floors := Int.floor_le_floor le
  rcases floors.eq_or_lt with same | lt
  · have parts : q - ⌊q⌋ ≤ r - ⌊r⌋ := by
      rw [same]
      linarith
    unfold roundHalfEven
    rw [same] at parts ⊢
    split_ifs <;> first | omega | linarith
  · have first : roundHalfEven q ≤ ⌊q⌋ + 1 :=
      roundHalfEven_le (by
        push_cast
        exact (Int.lt_floor_add_one q).le)
    have second : ⌊r⌋ ≤ roundHalfEven r := le_roundHalfEven (Int.floor_le r)
    omega

theorem log2Floor_mono {q r : ℚ} (pos : 0 < q) (le : q ≤ r) : log2Floor q ≤ log2Floor r := by
  have high := (log2Floor_spec (lt_of_lt_of_le pos le)).2
  have := log2Floor_lt pos (lt_of_le_of_lt le high)
  omega

/-- A power of two at or above the spacing is a multiple of it. -/
theorem exists_zpow_eq {q : ℚ} {e : Int} (fine : spacing q ≤ e) :
    ∃ n : Int, (2 : ℚ) ^ e = n * 2 ^ spacing q := by
  obtain ⟨k, split⟩ := Int.eq_ofNat_of_zero_le (Int.sub_nonneg.mpr fine)
  have exponent : e = k + spacing q := by omega
  refine ⟨2 ^ k, ?_⟩
  rw [exponent, zpow_add₀ (by norm_num), zpow_natCast]
  push_cast
  rfl

/-- Rounding does not cross a power of two at or above its spacing. -/
theorem round64_le_zpow {q : ℚ} {e : Int} (fine : spacing q ≤ e) (le : q ≤ 2 ^ e) :
    round64 q ≤ 2 ^ e := by
  have scale : (0 : ℚ) < 2 ^ spacing q := zpow_pos (by norm_num) _
  obtain ⟨n, power⟩ := exists_zpow_eq fine
  rw [power] at le ⊢
  have bound : roundHalfEven (q / 2 ^ spacing q) ≤ n := roundHalfEven_le ((div_le_iff₀ scale).mpr le)
  rw [round64]
  gcongr

theorem zpow_le_round64 {q : ℚ} {e : Int} (fine : spacing q ≤ e) (le : 2 ^ e ≤ q) :
    2 ^ e ≤ round64 q := by
  have scale : (0 : ℚ) < 2 ^ spacing q := zpow_pos (by norm_num) _
  obtain ⟨n, power⟩ := exists_zpow_eq fine
  rw [power] at le ⊢
  have bound : n ≤ roundHalfEven (q / 2 ^ spacing q) := le_roundHalfEven ((le_div_iff₀ scale).mpr le)
  rw [round64]
  gcongr

theorem round64_mono {q r : ℚ} (nonneg : 0 ≤ q) (le : q ≤ r) : round64 q ≤ round64 r := by
  rcases nonneg.eq_or_lt with rfl | pos
  · rw [round64_zero]
    exact round64_nonneg le
  · have exponents := log2Floor_mono pos le
    by_cases same : spacing q = spacing r
    · have scale : (0 : ℚ) < 2 ^ spacing r := zpow_pos (by norm_num) _
      have ints : roundHalfEven (q / 2 ^ spacing r) ≤ roundHalfEven (r / 2 ^ spacing r) :=
        roundHalfEven_mono (by gcongr)
      have cast : (roundHalfEven (q / 2 ^ spacing r) : ℚ) ≤ roundHalfEven (r / 2 ^ spacing r) := by
        exact_mod_cast ints
      rw [round64, round64, same]
      gcongr
    · -- The leading power of the larger one lies between the two.
      have coarser : spacing r = log2Floor r - 52 ∧ log2Floor q < log2Floor r := by
        unfold spacing at same ⊢
        omega
      have low : spacing q ≤ log2Floor r := by
        unfold spacing at coarser ⊢
        omega
      have between : q ≤ 2 ^ log2Floor r := by
        have high := (log2Floor_spec pos).2
        refine high.le.trans (zpow_le_zpow_right₀ (by norm_num) ?_)
        omega
      have leading := (log2Floor_spec (lt_of_lt_of_le pos le)).1
      exact (round64_le_zpow low between).trans (zpow_le_round64 (by omega) leading)

theorem overflow_eq : overflow = 2 ^ 53 * 2 ^ (971 : Int) := by
  rw [overflow, ← zpow_natCast, ← zpow_natCast, ← zpow_add₀ (by norm_num)]
  norm_num

/-- What is closer to the largest double than to the next power does not overflow;
halfway, the power is the even one. -/
theorem round64_lt_overflow_iff {q : ℚ} (nonneg : 0 ≤ q) : round64 q < overflow ↔ q < halfway := by
  have scale : (0 : ℚ) < 2 ^ (971 : Int) := zpow_pos (by norm_num) _
  have scaled : ∀ y : ℚ, 2 ^ 52 ≤ y → y < 2 ^ 53 →
      round64 (y * 2 ^ (971 : Int)) = roundHalfEven y * 2 ^ (971 : Int) :=
    fun y low high => round64_scaled low high (by norm_num)
  constructor
  · intro small
    by_contra reaches
    have up : roundHalfEven (2 ^ 53 - 1 / 2) = 2 ^ 53 := by norm_num [roundHalfEven]
    have top : round64 halfway = overflow := by
      rw [halfway, scaled _ (by norm_num) (by norm_num), up, overflow_eq]
      norm_num
    have zero : (0 : ℚ) ≤ halfway := mul_nonneg (by norm_num) scale.le
    have above := round64_mono zero (not_lt.mp reaches)
    rw [top] at above
    exact absurd small (not_lt.mpr above)
  · intro below
    rw [overflow_eq]
    rcases le_or_gt q (2 ^ 52 * 2 ^ (971 : Int)) with low | high
    · have fixed : round64 (2 ^ 52 * 2 ^ (971 : Int)) = 2 ^ 52 * 2 ^ (971 : Int) := by
        have grid := @round64_of_grid (2 ^ 52) 971 (by norm_num) (by norm_num)
        rwa [Nat.cast_pow, Nat.cast_ofNat] at grid
      have bound := round64_mono nonneg low
      rw [fixed] at bound
      exact lt_of_le_of_lt bound (mul_lt_mul_of_pos_right (by norm_num) scale)
    · obtain ⟨y, same⟩ : ∃ y, q = y * 2 ^ (971 : Int) := ⟨q / 2 ^ (971 : Int), by field_simp⟩
      rw [same] at high below ⊢
      have bits : (2 : ℚ) ^ 52 < y := lt_of_mul_lt_mul_right high scale.le
      have near : y < 2 ^ 53 - 1 / 2 := lt_of_mul_lt_mul_right below scale.le
      have rounded := (abs_le.mp (abs_roundHalfEven_sub y)).2
      rw [scaled y bits.le (by linarith)]
      exact mul_lt_mul_of_pos_right (by linarith) scale

/-- A magnitude well below the overflow does not overflow. -/
theorem round64_lt_overflow {q : ℚ} (nonneg : 0 ≤ q) (small : q ≤ 2 ^ 1000) : round64 q < overflow := by
  rw [round64_lt_overflow_iff nonneg]
  refine lt_of_le_of_lt small ?_
  have split : (2 : ℚ) ^ 1000 = 2 ^ 29 * 2 ^ (971 : Int) := by
    rw [← zpow_natCast, ← zpow_natCast, ← zpow_add₀ (by norm_num)]
    norm_num
  rw [split, halfway]
  exact mul_lt_mul_of_pos_right (by norm_num) (zpow_pos (by norm_num) _)

/-- What lies between a double and a number that rounds to it rounds to it. -/
theorem round64_between {x q r : ℚ} (fixed : round64 x = x) (rounds : round64 r = x) (nonneg : 0 ≤ r)
    (positive : 0 ≤ x) (between : (r ≤ q ∧ q ≤ x) ∨ (x ≤ q ∧ q ≤ r)) : round64 q = x := by
  rcases between with ⟨first, second⟩ | ⟨first, second⟩
  · exact le_antisymm (fixed ▸ round64_mono (nonneg.trans first) second)
      (rounds ▸ round64_mono nonneg first)
  · exact le_antisymm (rounds ▸ round64_mono (positive.trans first) second)
      (by
        have := round64_mono positive first
        rwa [fixed] at this)

/-! ### The search -/

/-- The multiple of `10 ^ t` to print for `x`, if one rounds to it. -/
def pick (x : ℚ) (t : Int) : Option Nat :=
  let low := ⌊x / 10 ^ t⌋.toNat
  if round64 (low * 10 ^ t) = x then
    if round64 ((low + 1 : Nat) * 10 ^ t) = x then some (roundHalfEven (x / 10 ^ t)).toNat
    else some low
  else if round64 ((low + 1 : Nat) * 10 ^ t) = x then some (low + 1)
  else none

/-- The first last place, downward from `t`, with something to print. -/
def pickFrom (x : ℚ) : Nat → Int → Nat × Int
  | 0, t => (0, t)
  | fuel + 1, t =>
      match pick x t with
      | some n => (n, t)
      | none => pickFrom x fuel (t - 1)

/-- A last place above every decimal that rounds to `x`. -/
def coarsest (x : ℚ) : Nat := (Nat.toDigits 10 ⌊2 * x⌋.toNat).length

/-- The digits and the last place of the shortest decimal of a positive double. -/
def shortest (x : ℚ) : Nat × Int := pickFrom x (coarsest x + 1075) (coarsest x)

/-! ### What the search finds -/

/-- The nearest integer is the nearest integer; only from halfway is there
another, and then it is the even one. -/
theorem roundHalfEven_nearest (y : ℚ) (n : Int) :
    |(roundHalfEven y : ℚ) - y| < |(n : ℚ) - y| ∨
      (|(roundHalfEven y : ℚ) - y| = |(n : ℚ) - y| ∧ (n = roundHalfEven y ∨ roundHalfEven y % 2 = 0)) := by
  have low := Int.floor_le y
  have high := Int.lt_floor_add_one y
  by_cases same : n = roundHalfEven y
  · exact .inr ⟨by rw [same], .inl same⟩
  · rcases lt_or_ge ⌊y⌋ n with above | below
    · have le : (⌊y⌋ : ℚ) + 1 ≤ n := by exact_mod_cast above
      have far : |(n : ℚ) - y| = n - y := abs_of_nonneg (by linarith)
      rw [far]
      unfold roundHalfEven at same ⊢
      split_ifs at same ⊢ with under beyond even
      · rw [abs_of_nonpos (by linarith)]
        exact .inl (by linarith)
      · have strict : (⌊y⌋ : ℚ) + 1 + 1 ≤ n := by
          have : ⌊y⌋ + 1 + 1 ≤ n := by omega
          exact_mod_cast this
        push_cast
        rw [abs_of_nonneg (by linarith)]
        exact .inl (by linarith)
      · rw [abs_of_nonpos (by linarith)]
        rcases le.eq_or_lt with eq | lt
        · exact .inr ⟨by linarith, .inr even⟩
        · exact .inl (by linarith)
      · have strict : (⌊y⌋ : ℚ) + 1 + 1 ≤ n := by
          have : ⌊y⌋ + 1 + 1 ≤ n := by omega
          exact_mod_cast this
        push_cast
        rw [abs_of_nonneg (by linarith)]
        exact .inl (by linarith)
    · have le : (n : ℚ) ≤ ⌊y⌋ := by exact_mod_cast below
      have far : |(n : ℚ) - y| = y - n := by
        rw [abs_of_nonpos (by linarith)]
        ring
      rw [far]
      unfold roundHalfEven at same ⊢
      split_ifs at same ⊢ with under beyond even
      · have strict : (n : ℚ) + 1 ≤ ⌊y⌋ := by
          have : n + 1 ≤ ⌊y⌋ := by omega
          exact_mod_cast this
        rw [abs_of_nonpos (by linarith)]
        exact .inl (by linarith)
      · push_cast
        rw [abs_of_nonneg (by linarith)]
        exact .inl (by linarith)
      · have strict : (n : ℚ) + 1 ≤ ⌊y⌋ := by
          have : n + 1 ≤ ⌊y⌋ := by omega
          exact_mod_cast this
        rw [abs_of_nonpos (by linarith)]
        exact .inl (by linarith)
      · push_cast
        rw [abs_of_nonneg (by linarith)]
        rcases le.eq_or_lt with eq | lt
        · exact .inr ⟨by linarith, .inr (by omega)⟩
        · exact .inl (by linarith)

/-- `n` is the multiple of `10 ^ t` to print for `x`: it rounds to `x`, and no
other that does is nearer, or as near and even. -/
def Picked (x : ℚ) (t : Int) (n : Nat) : Prop :=
  round64 (n * 10 ^ t) = x ∧ ∀ n' : Nat, round64 (n' * 10 ^ t) = x →
    |(n : ℚ) - x / 10 ^ t| < |(n' : ℚ) - x / 10 ^ t| ∨
      (|(n : ℚ) - x / 10 ^ t| = |(n' : ℚ) - x / 10 ^ t| ∧ (n' = n ∨ n % 2 = 0))

/-- `d` is the decimal to print for the double it rounds to: no decimal with a
coarser last place rounds to that double, and of those with the same last place
that do, `d` is the one to print. -/
def IsShortest (d : ℚ) : Prop :=
  ∃ (n : Nat) (t : Int), d = n * 10 ^ t ∧ Picked (round64 d) t n ∧
    ∀ t' > t, ∀ n' : Nat, round64 (n' * 10 ^ t') ≠ round64 d

section Search

variable {x : ℚ} {t : Int}

/-- Of the multiples of `10 ^ t`, the two around `x` are the first to round to it. -/
theorem rounds_around (fixed : round64 x = x) (pos : 0 < x) {n : Nat}
    (rounds : round64 (n * 10 ^ t) = x) :
    (n ≤ ⌊x / 10 ^ t⌋.toNat ∧ round64 (⌊x / 10 ^ t⌋.toNat * 10 ^ t) = x) ∨
      (⌊x / 10 ^ t⌋.toNat + 1 ≤ n ∧ round64 ((⌊x / 10 ^ t⌋.toNat + 1 : Nat) * 10 ^ t) = x) := by
  have scale : (0 : ℚ) < 10 ^ t := zpow_pos (by norm_num) _
  have floor : ((⌊x / 10 ^ t⌋.toNat : Int) : ℚ) = ⌊x / 10 ^ t⌋ := by
    rw [Int.toNat_of_nonneg (Int.floor_nonneg.mpr (div_nonneg pos.le scale.le))]
  rw [Int.cast_natCast] at floor
  have low : (⌊x / 10 ^ t⌋.toNat : ℚ) * 10 ^ t ≤ x := by
    rw [floor, ← le_div_iff₀ scale]
    exact Int.floor_le _
  have high : x ≤ (⌊x / 10 ^ t⌋.toNat + 1 : Nat) * 10 ^ t := by
    push_cast
    rw [floor, ← div_le_iff₀ scale]
    exact (Int.lt_floor_add_one _).le
  have nonneg : (0 : ℚ) ≤ n * 10 ^ t := by positivity
  rcases Nat.lt_or_ge ⌊x / 10 ^ t⌋.toNat n with above | below
  · refine .inr ⟨above, round64_between fixed rounds nonneg pos.le (.inr ⟨high, ?_⟩)⟩
    have : ((⌊x / 10 ^ t⌋.toNat + 1 : Nat) : ℚ) ≤ n := by exact_mod_cast above
    gcongr
  · refine .inl ⟨below, round64_between fixed rounds nonneg pos.le (.inl ⟨?_, low⟩)⟩
    have : (n : ℚ) ≤ ⌊x / 10 ^ t⌋.toNat := by exact_mod_cast below
    gcongr

theorem pick_none (fixed : round64 x = x) (pos : 0 < x) (none : pick x t = none) (n : Nat) :
    round64 (n * 10 ^ t) ≠ x := by
  intro rounds
  simp only [pick] at none
  rcases rounds_around fixed pos rounds with ⟨-, low⟩ | ⟨-, high⟩
  · rw [if_pos low] at none
    split_ifs at none
  · rw [if_pos high] at none
    split_ifs at none

theorem pick_some (fixed : round64 x = x) (pos : 0 < x) {n : Nat} (some : pick x t = some n) :
    Picked x t n := by
  have scale : (0 : ℚ) < 10 ^ t := zpow_pos (by norm_num) _
  have floorNonneg : 0 ≤ ⌊x / 10 ^ t⌋ := Int.floor_nonneg.mpr (div_nonneg pos.le scale.le)
  have floor : (⌊x / 10 ^ t⌋.toNat : ℚ) = ⌊x / 10 ^ t⌋ := by
    exact_mod_cast congrArg (Int.cast : Int → ℚ) (Int.toNat_of_nonneg floorNonneg)
  have low := Int.floor_le (x / 10 ^ t)
  have high := Int.lt_floor_add_one (x / 10 ^ t)
  rw [← floor] at low high
  simp only [pick] at some
  split_ifs at some with lowRounds highRounds highRounds
  · -- Both neighbours round to `x`: the nearer one is taken.
    obtain rfl := Option.some.inj some
    have nonneg : 0 ≤ roundHalfEven (x / 10 ^ t) := le_roundHalfEven (by
      simpa using div_nonneg pos.le scale.le)
    have value : ((roundHalfEven (x / 10 ^ t)).toNat : ℚ) = roundHalfEven (x / 10 ^ t) := by
      exact_mod_cast congrArg (Int.cast : Int → ℚ) (Int.toNat_of_nonneg nonneg)
    have neighbour : (roundHalfEven (x / 10 ^ t)).toNat = ⌊x / 10 ^ t⌋.toNat ∨
        (roundHalfEven (x / 10 ^ t)).toNat = ⌊x / 10 ^ t⌋.toNat + 1 := by
      unfold roundHalfEven
      split_ifs <;> omega
    refine ⟨?_, fun n' _ => ?_⟩
    · rcases neighbour with same | same <;> rw [same] <;> assumption
    · rcases roundHalfEven_nearest (x / 10 ^ t) n' with lt | ⟨eq, tie⟩
      · exact .inl (by rw [value]; exact_mod_cast lt)
      · exact .inr ⟨by rw [value]; exact_mod_cast eq, by omega⟩
  · obtain rfl := Option.some.inj some
    refine ⟨lowRounds, fun n' rounds => ?_⟩
    rcases rounds_around fixed pos rounds with ⟨le, -⟩ | ⟨-, rounds⟩
    · have cast : (n' : ℚ) ≤ ⌊x / 10 ^ t⌋.toNat := by exact_mod_cast le
      rw [abs_of_nonpos (by linarith), abs_of_nonpos (by linarith)]
      rcases le.eq_or_lt with eq | lt
      · exact .inr ⟨by rw [eq], .inl eq⟩
      · have : (n' : ℚ) < ⌊x / 10 ^ t⌋.toNat := by exact_mod_cast lt
        exact .inl (by linarith)
    · exact absurd rounds highRounds
  · obtain rfl := Option.some.inj some
    refine ⟨highRounds, fun n' rounds => ?_⟩
    rcases rounds_around fixed pos rounds with ⟨-, rounds⟩ | ⟨le, -⟩
    · exact absurd rounds lowRounds
    · have cast : ((⌊x / 10 ^ t⌋.toNat + 1 : Nat) : ℚ) ≤ n' := by exact_mod_cast le
      have above : x / 10 ^ t ≤ ((⌊x / 10 ^ t⌋.toNat + 1 : Nat) : ℚ) := by
        push_cast
        exact high.le
      rw [abs_of_nonneg (by linarith), abs_of_nonneg (by linarith)]
      rcases le.eq_or_lt with eq | lt
      · exact .inr ⟨by rw [eq], .inl eq.symm⟩
      · have : ((⌊x / 10 ^ t⌋.toNat + 1 : Nat) : ℚ) < n' := by exact_mod_cast lt
        exact .inl (by linarith)

/-- The search stops at the first last place that has something to print. -/
theorem pickFrom_spec (fuel : Nat) (t : Int) {found : Int} (below : t - fuel < found) (above : found ≤ t)
    (some : pick x found ≠ none) :
    pick x (pickFrom x fuel t).2 = Option.some (pickFrom x fuel t).1 ∧
      (pickFrom x fuel t).2 ≤ t ∧
      ∀ t', (pickFrom x fuel t).2 < t' → t' ≤ t → pick x t' = none := by
  induction fuel generalizing t with
  | zero => omega
  | succ fuel ih =>
      cases here : pick x t with
      | some n =>
          simp only [pickFrom, here]
          exact ⟨trivial, le_refl t, fun t' low high => by omega⟩
      | none =>
          simp only [pickFrom, here]
          have further : found ≠ t := by
            rintro rfl
            exact some here
          obtain ⟨picked, bound, none⟩ := ih (t - 1) (by omega) (by omega)
          refine ⟨picked, by omega, fun t' low high => ?_⟩
          rcases Int.lt_or_eq_of_le high with lt | rfl
          · exact none t' low (by omega)
          · exact here

/-- Nothing to print has a last place above the first one searched. -/
theorem coarsest_spec (pos : 0 < x) {n : Nat} (rounds : round64 (n * 10 ^ t) = x) : t < coarsest x := by
  have positive : (0 : ℚ) < n * 10 ^ t := by
    refine lt_of_le_of_ne (by positivity) fun none => ?_
    rw [← none, round64_zero] at rounds
    exact pos.ne rounds
  have one : (1 : ℚ) ≤ n := by
    rcases Nat.eq_zero_or_pos n with rfl | n
    · simp at positive
    · exact_mod_cast n
  have twice : (10 : ℚ) ^ t ≤ 2 * x := by
    have bound := le_two_mul_round64 positive (by rw [rounds]; exact pos.ne')
    rw [rounds] at bound
    have : (10 : ℚ) ^ t ≤ n * 10 ^ t := le_mul_of_one_le_left (by positivity) one
    exact this.trans bound
  have digits : ⌊2 * x⌋.toNat < 10 ^ coarsest x :=
    (Nat.length_toDigits_le_iff (by norm_num) Nat.length_toDigits_pos).mp le_rfl
  have above : 2 * x < 10 ^ (coarsest x : Int) := by
    have floor : ⌊2 * x⌋ < ((10 ^ coarsest x : Nat) : Int) := by omega
    have next : (⌊2 * x⌋ : ℚ) + 1 ≤ ((10 ^ coarsest x : Nat) : Int) := by exact_mod_cast floor
    have := Int.lt_floor_add_one (2 * x)
    rw [zpow_natCast]
    push_cast at next
    linarith
  exact (zpow_lt_zpow_iff_right₀ (by norm_num : (1 : ℚ) < 10)).mp (lt_of_le_of_lt twice above)

/-- A multiple of a power of two is one of the same power of ten. -/
theorem multiple_of_ten (m k least : Nat) :
    ((m * 2 ^ k * 5 ^ least : Nat) : ℚ) * 10 ^ (-(least : Int)) = m * 2 ^ ((k : Int) - least) := by
  have ten : (10 : ℚ) ^ (-(least : Int)) = 2 ^ (-(least : Int)) * 5 ^ (-(least : Int)) := by
    rw [← mul_zpow]
    norm_num
  have five : (5 : ℚ) ^ least * 5 ^ (-(least : Int)) = 1 := by
    rw [← zpow_natCast, ← zpow_add₀ (by norm_num)]
    simp
  have two : (2 : ℚ) ^ ((k : Int) - least) = 2 ^ k * 2 ^ (-(least : Int)) := by
    rw [sub_eq_add_neg, zpow_add₀ (by norm_num), zpow_natCast]
  rw [ten, two]
  push_cast
  calc (m : ℚ) * 2 ^ k * 5 ^ least * (2 ^ (-(least : Int)) * 5 ^ (-(least : Int)))
      = m * (2 ^ k * 2 ^ (-(least : Int))) * (5 ^ least * 5 ^ (-(least : Int))) := by ring
    _ = m * (2 ^ k * 2 ^ (-(least : Int))) := by rw [five, mul_one]

/-- Every double is a multiple of the least power of ten searched. -/
theorem exists_multiple {q : ℚ} (nonneg : 0 ≤ q) :
    ∃ n : Nat, (n : ℚ) * 10 ^ (-1074 : Int) = round64 q := by
  obtain ⟨m, e, -, least, same⟩ := round64_grid nonneg
  obtain ⟨k, split⟩ := Int.eq_ofNat_of_zero_le (Int.sub_nonneg.mpr least)
  have exponent : e = (k : Int) - (1074 : Nat) := by omega
  exact ⟨m * 2 ^ k * 5 ^ 1074, by rw [same, exponent, ← multiple_of_ten]; rfl⟩

end Search

/-- The digits and last place of a double's shortest decimal: they are the ones
to print, and no coarser last place has any. -/
theorem shortest_spec {q : ℚ} (nonneg : 0 ≤ q) (nonzero : round64 q ≠ 0) :
    Picked (round64 q) (shortest (round64 q)).2 (shortest (round64 q)).1 ∧
      ∀ t' > (shortest (round64 q)).2, ∀ n : Nat, round64 (n * 10 ^ t') ≠ round64 q := by
  have fixed := round64_round64 nonneg
  have pos : 0 < round64 q := lt_of_le_of_ne (round64_nonneg nonneg) (Ne.symm nonzero)
  obtain ⟨n, multiple⟩ := exists_multiple nonneg
  have some : pick (round64 q) (-1074) ≠ none := fun none =>
    pick_none fixed pos none n (by rw [multiple, fixed])
  obtain ⟨picked, -, none⟩ := pickFrom_spec (coarsest (round64 q) + 1075) (coarsest (round64 q))
    (by push_cast; omega) (by omega) some
  refine ⟨pick_some fixed pos picked, fun t' finer n rounds => ?_⟩
  have bound := coarsest_spec pos rounds
  exact pick_none fixed pos (none t' finer (by omega)) n rounds

/-- No shortest decimal has a finer last place than the least one searched. -/
theorem place_shortest {q : ℚ} (nonneg : 0 ≤ q) (nonzero : round64 q ≠ 0) :
    -1074 ≤ (shortest (round64 q)).2 := by
  by_contra finer
  obtain ⟨n, multiple⟩ := exists_multiple nonneg
  exact (shortest_spec nonneg nonzero).2 _ (not_le.mp finer) n
    (by rw [multiple, round64_round64 nonneg])

/-- A shortest decimal is not zero, and at most twice its double. -/
theorem value_shortest_bounds {q : ℚ} (nonneg : 0 ≤ q) (nonzero : round64 q ≠ 0) :
    0 < ((shortest (round64 q)).1 : ℚ) * 10 ^ (shortest (round64 q)).2 ∧
      ((shortest (round64 q)).1 : ℚ) * 10 ^ (shortest (round64 q)).2 ≤ 2 * round64 q := by
  have rounds := (shortest_spec nonneg nonzero).1.1
  have positive : 0 < ((shortest (round64 q)).1 : ℚ) * 10 ^ (shortest (round64 q)).2 := by
    refine lt_of_le_of_ne (by positivity) fun zero => ?_
    rw [← zero, round64_zero] at rounds
    exact nonzero rounds.symm
  have twice := le_two_mul_round64 positive (by rw [rounds]; exact nonzero)
  rw [rounds] at twice
  exact ⟨positive, twice⟩

/-- There is one multiple of `10 ^ t` to print: two equally near ones that are
both even would have the double itself between them. -/
theorem Picked.unique {x : ℚ} {t : Int} {n n' : Nat} (fixed : round64 x = x) (picked : Picked x t n)
    (picked' : Picked x t n') : n = n' := by
  have scale : (0 : ℚ) < 10 ^ t := zpow_pos (by norm_num) _
  rcases picked.2 n' picked'.1 with lt | ⟨eq, tie⟩
  · rcases picked'.2 n picked.1 with lt' | ⟨eq', -⟩
    · exact absurd lt' (not_lt.mpr lt.le)
    · exact absurd eq'.symm (ne_of_lt lt)
  · rcases picked'.2 n picked.1 with lt' | ⟨-, tie'⟩
    · exact absurd eq (ne_of_gt lt')
    · by_contra apart
      have even : n % 2 = 0 ∧ n' % 2 = 0 := by omega
      obtain ⟨m, middle⟩ : ∃ m, n + n' = 2 * m := ⟨(n + n') / 2, by omega⟩
      have sum : (n : ℚ) + n' = 2 * m := by exact_mod_cast middle
      have centre : x / 10 ^ t = m := by
        rcases abs_eq_abs.mp eq with same | opposite
        · have : (n : ℚ) = n' := by linarith
          exact absurd (by exact_mod_cast this) apart
        · linarith
      have rounds : round64 (m * 10 ^ t) = x := by
        rw [← centre, div_mul_cancel₀ _ scale.ne', fixed]
      have zero : |(m : ℚ) - x / 10 ^ t| = 0 := by rw [centre, sub_self, abs_zero]
      rcases picked.2 m rounds with lt | ⟨eq, -⟩
      · rw [zero] at lt
        exact absurd lt (not_lt.mpr (abs_nonneg _))
      · rw [zero, abs_eq_zero] at eq
        have : (n : ℚ) = m := by linarith
        have : n = m := by exact_mod_cast this
        omega

/-- A decimal is what its double prints as exactly when it is the shortest one. -/
theorem shortest_eq_iff {d : ℚ} (nonneg : 0 ≤ d) (nonzero : round64 d ≠ 0) :
    ((shortest (round64 d)).1 : ℚ) * 10 ^ (shortest (round64 d)).2 = d ↔ IsShortest d := by
  have fixed := round64_round64 nonneg
  obtain ⟨picked, coarsest⟩ := shortest_spec nonneg nonzero
  constructor
  · intro same
    exact ⟨_, _, same.symm, picked, coarsest⟩
  · rintro ⟨n, t, value, picked', coarsest'⟩
    have place : (shortest (round64 d)).2 = t := by
      refine le_antisymm ?_ ?_
      · by_contra above
        exact coarsest' _ (not_le.mp above) _ picked.1
      · by_contra above
        exact coarsest _ (not_le.mp above) _ picked'.1
    rw [place] at picked ⊢
    rw [picked.unique fixed picked', value]

end Relay.Numeric
