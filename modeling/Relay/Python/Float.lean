import Relay.Calendar.DateTime
import Relay.Json.Value
import Relay.Numeric.Shortest

/-!
Python's `float` as a JSON number.

`float(text)` rounds the exact value of the text. `float.__repr__` prints the
shortest decimal of the double: positionally when its decimal point stands
within seventeen places, else with an exponent of at least two digits. The text
is never that of an integer, and its value is that of the digits printed.
-/

namespace Relay.Python

open Relay.Json Relay.Numeric Relay.Calendar

/-- `float(text)`. -/
def float (t : NumText) : Binary64 := .ofRat t.neg |t.value|

/-! ### Digits -/

/-- The last digits of a number, as many as `width` and one. -/
def fixedDigits (width n : Nat) : Digits where
  chars := fixed (width + 1) n
  nonempty := List.cons_ne_nil _ _
  digits := isDigit_fixed

/-! ### `repr(x)` -/

/-- `n * 10 ^ t` without an exponent. -/
def positional (neg : Bool) (n : Nat) : Int → NumText
  | .ofNat t => ⟨neg, n * 10 ^ t, some (fixedDigits 0 0), none⟩
  | .negSucc t => ⟨neg, n / 10 ^ (t + 1), some (fixedDigits t n), none⟩

/-- An exponent: its sign, and at least two digits. -/
def exponentPart (e : Int) : Exponent where
  upper := false
  sign := some (decide (e < 0))
  digits := if e.natAbs < 10 then fixedDigits 1 e.natAbs else .ofNat e.natAbs

/-- `n * 10 ^ t` with one digit before the point. -/
def scientific (neg : Bool) (n : Nat) (t : Int) : NumText :=
  match (Nat.toDigits 10 n).length with
  | width + 2 =>
      ⟨neg, n / 10 ^ (width + 1), some (fixedDigits width n), some (exponentPart (t + (width + 1)))⟩
  | _ => ⟨neg, n, none, some (exponentPart t)⟩

/-- The text of `n * 10 ^ t`. -/
def reprDecimal (neg : Bool) (n : Nat) (t : Int) : NumText :=
  if -4 < (Nat.toDigits 10 n).length + t ∧ (Nat.toDigits 10 n).length + t ≤ 16 then
    positional neg n t
  else scientific neg n t

/-- `repr(x)` of a finite double. -/
def reprFinite (neg : Bool) (x : ℚ) : NumText :=
  if x = 0 then ⟨neg, 0, some (fixedDigits 0 0), none⟩
  else reprDecimal neg (shortest x).1 (shortest x).2

/-- `json.dumps(x)` of a float. -/
def dumpFloat : Binary64 → Token
  | .finite neg x => .number (reprFinite neg x)
  | .infinity false => .infinity
  | .infinity true => .negInfinity
  | .nan => .nan

/-! ### The value of a printed double -/

/-- The value of a number text from its digits. -/
theorem value_of_parts (width : Nat) {neg : Bool} {whole n : Nat} {exp : Option Exponent} {e t : Int}
    {frac : Option Digits}
    (chars : (NumText.mk neg whole frac exp).fracChars = fixed width n)
    (digits : 10 ^ width * whole + n % 10 ^ width = n)
    (scale : (NumText.mk neg whole frac exp).scale = e - width) (place : e - width = t) :
    (NumText.mk neg whole frac exp).value = (if neg then -1 else 1) * n * 10 ^ t := by
  have coeff : (NumText.mk neg whole frac exp).coeff = n := by
    rw [NumText.coeff, Nat.ofDigitChars_append, Nat.ofDigitChars_ten_toDigits, chars,
      ofDigitChars_fixed, digits]
  rw [NumText.value, coeff, scale, place]

theorem value_positional (neg : Bool) (n : Nat) (t : Int) :
    (positional neg n t).value = (if neg then -1 else 1) * n * 10 ^ t := by
  cases t with
  | ofNat t =>
      have coeff : (positional neg n (.ofNat t)).coeff = n * 10 ^ t * 10 := by
        rw [NumText.coeff, Nat.ofDigitChars_append]
        simp only [positional, NumText.fracChars, Option.map_some, Option.getD_some, fixedDigits,
          Nat.ofDigitChars_ten_toDigits, ofDigitChars_fixed]
        omega
      have scale : (positional neg n (.ofNat t)).scale = -1 := rfl
      have sign : (positional neg n (.ofNat t)).neg = neg := rfl
      have ten : ((n * 10 ^ t * 10 : Nat) : ℚ) * (10 : ℚ) ^ (-1 : Int) = n * 10 ^ t := by
        push_cast
        rw [zpow_neg_one]
        field_simp
      rw [NumText.value, coeff, scale, sign, mul_assoc, ten, Int.ofNat_eq_natCast, zpow_natCast,
        mul_assoc]
  | negSucc t =>
      refine value_of_parts (t + 1) (e := 0) rfl (Nat.div_add_mod n _) ?_ ?_
      · simp [NumText.scale, NumText.fracChars, fixedDigits]
      · simp [Int.negSucc_eq]

theorem value_exponentPart (e : Int) :
    (if (exponentPart e).sign = some true then -((exponentPart e).digits.value : Int)
      else (exponentPart e).digits.value) = e := by
  have digits : (exponentPart e).digits.value = e.natAbs := by
    unfold exponentPart
    split
    · rename_i small
      rw [Digits.value, fixedDigits, ofDigitChars_fixed]
      omega
    · exact Digits.value_ofNat _
  rw [digits]
  by_cases negative : e < 0
  · have sign : (exponentPart e).sign = some true := by simp [exponentPart, negative]
    rw [if_pos sign]
    omega
  · have sign : (exponentPart e).sign ≠ some true := by simp [exponentPart, negative]
    rw [if_neg sign]
    omega

theorem scale_exponentPart (neg : Bool) (whole : Nat) (frac : Option Digits) (e : Int) :
    (NumText.mk neg whole frac (some (exponentPart e))).scale =
      e - (NumText.mk neg whole frac none).fracChars.length := by
  simp only [NumText.scale, value_exponentPart]
  rfl

theorem value_scientific (neg : Bool) (n : Nat) (t : Int) :
    (scientific neg n t).value = (if neg then -1 else 1) * n * 10 ^ t := by
  unfold scientific
  split
  · rename_i width _
    refine value_of_parts (width + 1) (e := t + (width + 1)) rfl (Nat.div_add_mod n _) ?_ ?_
    · rw [scale_exponentPart]
      simp [NumText.fracChars, fixedDigits]
    · push_cast
      ring
  · refine value_of_parts 0 (e := t) rfl (by simp [Nat.mod_one]) ?_ (by simp)
    rw [scale_exponentPart]
    rfl

theorem value_reprDecimal (neg : Bool) (n : Nat) (t : Int) :
    (reprDecimal neg n t).value = (if neg then -1 else 1) * n * 10 ^ t := by
  unfold reprDecimal
  split
  · exact value_positional neg n t
  · exact value_scientific neg n t

/-- A printed double has the value of its shortest decimal. -/
theorem value_reprFinite (neg : Bool) {x : ℚ} (nonzero : x ≠ 0) :
    (reprFinite neg x).value =
      (if neg then -1 else 1) * (((shortest x).1 : ℚ) * 10 ^ (shortest x).2) := by
  rw [reprFinite, if_neg nonzero, value_reprDecimal, mul_assoc]

theorem value_reprFinite_zero (neg : Bool) : (reprFinite neg 0).value = 0 := by
  have coeff : (reprFinite neg 0).coeff = 0 := by
    rw [NumText.coeff, Nat.ofDigitChars_append]
    simp only [reprFinite, if_true, NumText.fracChars, Option.map_some, Option.getD_some, fixedDigits,
      Nat.ofDigitChars_ten_toDigits, ofDigitChars_fixed]
    rfl
  rw [NumText.value, coeff]
  simp

/-- A printed double is never read as an integer. -/
theorem isInt_reprFinite (neg : Bool) (x : ℚ) : (reprFinite neg x).isInt = false := by
  unfold reprFinite
  split
  · rfl
  · unfold reprDecimal
    split
    · cases (shortest x).2 <;> rfl
    · unfold scientific
      split <;> rfl

end Relay.Python
