import Relay.Python.Exceptions
import Relay.Python.Value

/-!
`json.loads` and `json.dumps` with their defaults.

`loads` makes an integer text an `int` and any other number a `float`. `dumps`
writes a float as its shortest decimal, which is never that of an integer, and
refuses a `Decimal`.
-/

namespace Relay.Python

open Relay.Json Relay.Numeric

/-- The most digits of an integer text that `int` converts. -/
def maxStrDigits : Nat := 4300

/-- `int(text)` of an integer text. -/
def int (t : NumText) : Except Exn Int :=
  if (Nat.toDigits 10 t.whole).length ≤ maxStrDigits then .ok t.intValue
  else .error (.other "ValueError" "Exceeds the limit (4300 digits) for integer string conversion")

/-- What `json.loads` makes of a number. -/
def loadNumber : Token → Except Exn (Number PyNum)
  | .number t => if t.isInt then (int t).map .int else .ok (.num (.float (float t)))
  | .nan => .ok (.num (.float .nan))
  | .infinity => .ok (.num (.float (.infinity false)))
  | .negInfinity => .ok (.num (.float (.infinity true)))

/-- What `json.dumps` writes for a number. -/
def dumpNumber : PyNum → Except Exn (Json.Value Token)
  | .float x => .ok (.num (dumpFloat x))
  | .decimal _ => .error (.other "TypeError" "Object of type Decimal is not JSON serializable")

/-- The document that `json.dumps(value)` writes. -/
def dumps (value : Obj) : Except Exn (Json.Value Token) :=
  value.decode (fun i => .ok (.int i)) dumpNumber

/-- `json.dumps(value)`. -/
def dumpsText (value : Obj) : Except Exn String :=
  (dumps value).map fun document => String.ofList (print .python document)

/-! ### A printed double as a decimal -/

theorem scale_positional (neg : Bool) (n : Nat) (t : Int) :
    min (-1) t ≤ (positional neg n t).scale := by
  cases t with
  | ofNat t => exact min_le_left _ _
  | negSucc t =>
      have scale : (positional neg n (.negSucc t)).scale = .negSucc t := by
        simp [positional, NumText.scale, NumText.fracChars, fixedDigits, Int.negSucc_eq]
      rw [scale]
      exact min_le_right _ _

theorem scale_scientific (neg : Bool) (n : Nat) (t : Int) : (scientific neg n t).scale = t := by
  unfold scientific
  split
  · rw [scale_exponentPart]
    simp [NumText.fracChars, fixedDigits]
  · rw [scale_exponentPart]
    simp [NumText.fracChars]

theorem scale_reprDecimal (neg : Bool) (n : Nat) (t : Int) :
    min (-1) t ≤ (reprDecimal neg n t).scale := by
  unfold reprDecimal
  split
  · exact scale_positional neg n t
  · rw [scale_scientific]
    exact min_le_right _ _

/-- A decimal below `10 ^ 400` with a last place from `10 ^ -2000` on is exact. -/
theorem fits_of_bounds {d : Dec} (place : -2000 ≤ d.exp) (coeff : d.coeff ≠ 0)
    (bound : |d.value| < 10 ^ (400 : Int)) : d.fits = true := by
  have scale : (0 : ℚ) < (10 : ℚ) ^ d.exp := zpow_pos (by norm_num) _
  have size : |d.value| = d.coeff * (10 : ℚ) ^ d.exp := by
    have positive : (0 : ℚ) ≤ d.coeff * (10 : ℚ) ^ d.exp := by positivity
    rw [Dec.value, mul_assoc]
    split
    · rw [neg_one_mul, abs_neg, abs_of_nonneg positive]
    · rw [one_mul, abs_of_nonneg positive]
  obtain ⟨width, digits⟩ : ∃ width, (Nat.toDigits 10 d.coeff).length = width + 1 :=
    ⟨_, (Nat.sub_add_cancel Nat.length_toDigits_pos).symm⟩
  have long : 10 ^ width ≤ d.coeff := by
    by_contra short
    rcases Nat.eq_zero_or_pos width with rfl | pos
    · omega
    · have := (Nat.length_toDigits_le_iff (b := 10) (by norm_num) pos).mpr (not_le.mp short)
      omega
  have long' : (10 : ℚ) ^ (width : Int) ≤ d.coeff := by
    rw [zpow_natCast]
    exact_mod_cast long
  have power : (10 : ℚ) ^ ((width : Int) + d.exp) < 10 ^ (400 : Int) := by
    calc (10 : ℚ) ^ ((width : Int) + d.exp) = 10 ^ (width : Int) * 10 ^ d.exp :=
          zpow_add₀ (by norm_num) _ _
      _ ≤ d.coeff * 10 ^ d.exp := by gcongr
      _ = |d.value| := size.symm
      _ < 10 ^ (400 : Int) := bound
  have small := (zpow_lt_zpow_iff_right₀ (by norm_num : (1 : ℚ) < 10)).mp power
  simp only [Dec.fits, Dec.digits, digits, Dec.minExponent, Dec.maxExponent, decide_eq_true_eq]
  push_cast
  omega

/-- The decimal of a printed double is exact. -/
theorem fits_reprFinite (neg : Bool) {q : ℚ} (nonneg : 0 ≤ q) (finite : round64 q < overflow) :
    (Dec.ofNumText (reprFinite neg (round64 q))).fits = true := by
  by_cases zero : round64 q = 0
  · rw [zero]
    cases neg <;> rfl
  · obtain ⟨positive, twice⟩ := value_shortest_bounds nonneg zero
    have value := value_reprFinite neg zero
    have size : |(reprFinite neg (round64 q)).value| =
        ((shortest (round64 q)).1 : ℚ) * 10 ^ (shortest (round64 q)).2 := by
      rw [value]
      cases neg
      · simp [abs_of_pos positive]
      · simp [abs_of_pos positive]
    refine fits_of_bounds ?_ ?_ ?_
    · have place := place_shortest nonneg zero
      have scale := scale_reprDecimal neg (shortest (round64 q)).1 (shortest (round64 q)).2
      have text : reprFinite neg (round64 q) =
          reprDecimal neg (shortest (round64 q)).1 (shortest (round64 q)).2 := if_neg zero
      rw [Dec.ofNumText, text]
      dsimp only
      omega
    · intro none
      have coeff : (reprFinite neg (round64 q)).coeff = 0 := none
      rw [NumText.value, coeff] at size
      simp only [Nat.cast_zero, mul_zero, zero_mul, abs_zero] at size
      exact positive.ne size
    · rw [Dec.value_ofNumText, size]
      calc ((shortest (round64 q)).1 : ℚ) * 10 ^ (shortest (round64 q)).2 ≤ 2 * round64 q := twice
        _ < 2 * overflow := by linarith
        _ = 2 * 8 ^ 341 * 2 := by
          have eight : (8 : ℚ) = 2 ^ 3 := by norm_num
          rw [overflow, eight, ← pow_mul, mul_assoc, ← pow_succ]
        _ ≤ 2 * 10 ^ 341 * 2 := by gcongr; norm_num
        _ ≤ 10 * 10 ^ 341 * 10 := by gcongr <;> norm_num
        _ < 10 ^ (400 : Int) := by
          have ten : (10 : ℚ) * 10 ^ 341 * 10 = 10 ^ (343 : Int) := by
            rw [mul_right_comm, ← pow_two, ← pow_add]
            exact (zpow_natCast 10 343).symm
          rw [ten]
          exact zpow_lt_zpow_right₀ (by norm_num) (by norm_num)

end Relay.Python
