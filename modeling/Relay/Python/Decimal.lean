import Relay.Json.Number

/-!
Python's `Decimal`, as far as amounts need it.

A finite decimal is a sign, a coefficient and a power of ten; its value is exact.
The constructor takes a text: white space around it and underscores in it are
dropped, digits of any script count, and a text whose exponent does not fit
raises `InvalidOperation`, here `none`.
-/

namespace Relay.Python

/-- A finite `Decimal`. -/
structure Dec where
  neg : Bool
  coeff : Nat
  exp : Int
deriving DecidableEq, Repr

inductive Decimal where
  | finite (d : Dec)
  | infinity (neg : Bool)
  | nan
deriving DecidableEq, Repr

namespace Dec

def value (d : Dec) : ℚ := (if d.neg then -1 else 1) * d.coeff * (10 : ℚ) ^ d.exp

/-- `d < 0`: a negative zero is not. -/
def isNegative (d : Dec) : Bool := d.neg && d.coeff != 0

/-- `Decimal(str(i))` of an integer. -/
def ofInt (i : Int) : Dec := ⟨decide (i < 0), i.natAbs, 0⟩

def digits (d : Dec) : Nat := (Nat.toDigits 10 d.coeff).length

/-- The largest exponent of the first digit. -/
def maxExponent : Int := 999999999999999999

/-- The smallest exponent of the last digit. -/
def minExponent : Int := -1999999999999999997

/-- The decimal is exact in the widest context. -/
def fits (d : Dec) : Bool := decide (minExponent ≤ d.exp ∧ d.exp + d.digits - 1 ≤ maxExponent)

/-- The decimal a JSON number text denotes. -/
def ofNumText (t : Json.NumText) : Dec := ⟨t.neg, t.coeff, t.scale⟩

@[simp] theorem value_ofNumText (t : Json.NumText) : (ofNumText t).value = t.value := rfl

@[simp] theorem value_ofInt (i : Int) : (ofInt i).value = i := by
  have sign : (if i < 0 then (-1 : ℚ) else 1) * (i.natAbs : ℚ) = i := by
    split
    · rename_i negative
      have : (i.natAbs : Int) = -i := by omega
      rw [← Int.cast_natCast i.natAbs, this]
      simp
    · rename_i positive
      have : (i.natAbs : Int) = i := by omega
      rw [← Int.cast_natCast i.natAbs, this]
      simp
  simpa [value, ofInt] using sign

theorem isNegative_iff (d : Dec) : d.isNegative = true ↔ d.value < 0 := by
  have scale : (0 : ℚ) < (10 : ℚ) ^ d.exp := zpow_pos (by decide +kernel) _
  by_cases zero : d.coeff = 0
  · simp [isNegative, value, zero]
  · have coeff : (0 : ℚ) < d.coeff := by exact_mod_cast Nat.pos_of_ne_zero zero
    cases sign : d.neg with
    | true =>
        have : d.value = -((d.coeff : ℚ) * (10 : ℚ) ^ d.exp) := by simp [value, sign]
        simp [isNegative, sign, zero, this, coeff, scale]
    | false =>
        have : d.value = (d.coeff : ℚ) * (10 : ℚ) ^ d.exp := by simp [value, sign]
        simp only [isNegative, sign, Bool.false_and, Bool.false_eq_true, false_iff, this, not_lt]
        exact le_of_lt (mul_pos coeff scale)

end Dec

/-! ### Characters -/

/-- The zeros of every script's decimal digits. -/
def decimalZeros : List Nat :=
  [0x30, 0x660, 0x6f0, 0x7c0, 0x966, 0x9e6, 0xa66, 0xae6, 0xb66, 0xbe6, 0xc66, 0xce6, 0xd66, 0xde6,
    0xe50, 0xed0, 0xf20, 0x1040, 0x1090, 0x17e0, 0x1810, 0x1946, 0x19d0, 0x1a80, 0x1a90, 0x1b50,
    0x1bb0, 0x1c40, 0x1c50, 0xa620, 0xa8d0, 0xa900, 0xa9d0, 0xa9f0, 0xaa50, 0xabf0, 0xff10, 0x104a0,
    0x10d30, 0x11066, 0x110f0, 0x11136, 0x111d0, 0x112f0, 0x11450, 0x114d0, 0x11650, 0x116c0, 0x11730,
    0x118e0, 0x11950, 0x11c50, 0x11d50, 0x11da0, 0x11f50, 0x16a60, 0x16ac0, 0x16b50, 0x1d7ce, 0x1d7d8,
    0x1d7e2, 0x1d7ec, 0x1d7f6, 0x1e140, 0x1e2f0, 0x1e4f0, 0x1e950, 0x1fbf0]

/-- The value of a decimal digit of any script. -/
def digit? (c : Char) : Option Nat :=
  (decimalZeros.find? fun first => first ≤ c.toNat ∧ c.toNat < first + 10).map fun first => c.toNat - first

def isSpace (c : Char) : Bool :=
  (0x9 ≤ c.toNat ∧ c.toNat ≤ 0xd) ∨ (0x1c ≤ c.toNat ∧ c.toNat ≤ 0x20) ∨ c.toNat = 0x85 ∨
    c.toNat = 0xa0 ∨ c.toNat = 0x1680 ∨ (0x2000 ≤ c.toNat ∧ c.toNat ≤ 0x200a) ∨ c.toNat = 0x2028 ∨
    c.toNat = 0x2029 ∨ c.toNat = 0x202f ∨ c.toNat = 0x205f ∨ c.toNat = 0x3000

/-- `s.strip()`. -/
def strip (cs : List Char) : List Char :=
  ((cs.dropWhile isSpace).reverse.dropWhile isSpace).reverse

/-! ### `Decimal(text)` -/

/-- The leading digits of a text, of any script. -/
def spanDecimal : List Char → List Nat × List Char
  | [] => ([], [])
  | c :: cs =>
      match digit? c with
      | some d => (d :: (spanDecimal cs).1, (spanDecimal cs).2)
      | none => ([], c :: cs)

def ofDigits (ds : List Nat) : Nat := ds.foldl (fun n d => 10 * n + d) 0

/-- `+`, `-` or nothing: whether a number is negative. -/
def decimalSign : List Char → Bool × List Char
  | '-' :: cs => (true, cs)
  | '+' :: cs => (false, cs)
  | cs => (false, cs)

/-- The digits after a point. -/
def decimalFraction : List Char → List Nat × List Char
  | '.' :: cs => spanDecimal cs
  | cs => ([], cs)

/-- An exponent that ends the text. -/
def decimalExponent : List Char → Option Int
  | [] => some 0
  | c :: cs =>
      if c = 'e' ∨ c = 'E' then
        match spanDecimal (decimalSign cs).2 with
        | ([], _) => none
        | (ds, []) => some (if (decimalSign cs).1 then -(ofDigits ds : Int) else ofDigits ds)
        | _ => none
      else none

/-- A finite decimal, its sign read before. -/
def decimalFinite (neg : Bool) (cs : List Char) : Option Dec :=
  let (whole, rest) := spanDecimal cs
  let (fraction, rest) := decimalFraction rest
  if whole ++ fraction = [] then none
  else
    (decimalExponent rest).map fun exp =>
      ⟨neg, ofDigits (whole ++ fraction), exp - fraction.length⟩

/-- The names of the values that are no finite numbers; a payload of digits may
follow that of no number. -/
def special (neg : Bool) : List Char → Option Decimal
  | 'n' :: 'a' :: 'n' :: payload => if (spanDecimal payload).2 = [] then some .nan else none
  | 's' :: 'n' :: 'a' :: 'n' :: payload => if (spanDecimal payload).2 = [] then some .nan else none
  | word => if word = "inf".toList ∨ word = "infinity".toList then some (.infinity neg) else none

/-- `Decimal(text)`. -/
def decimal (text : List Char) : Option Decimal :=
  let (neg, cs) := decimalSign ((strip text).filter (· ≠ '_'))
  match special neg (cs.map Char.toLower) with
  | some value => some value
  | none => (decimalFinite neg cs).bind fun d => if d.fits then some (.finite d) else none

/-! ### `float(text)` -/

/-- White space to `float`: the separators of ASCII are none. -/
def isFloatSpace (c : Char) : Bool :=
  if c.toNat < 0x80 then (0x9 ≤ c.toNat ∧ c.toNat ≤ 0xd) ∨ c = ' ' else isSpace c

def stripFloat (cs : List Char) : List Char :=
  ((cs.dropWhile isFloatSpace).reverse.dropWhile isFloatSpace).reverse

/-- Underscores stand between digits only. -/
def underscored : Option Char → List Char → Bool
  | _, [] => true
  | before, '_' :: rest =>
      (before.bind digit?).isSome && (rest.head?.bind digit?).isSome && underscored none rest
  | _, c :: rest => underscored (some c) rest

/-- The number a text denotes: a finite decimal, an infinity or no number. -/
def floatText? (text : List Char) : Option Decimal :=
  if underscored none (stripFloat text) then
    let (neg, cs) := decimalSign ((stripFloat text).filter (· ≠ '_'))
    let word := cs.map Char.toLower
    if word = "nan".toList then some .nan
    else if word = "inf".toList ∨ word = "infinity".toList then some (.infinity neg)
    else (decimalFinite neg cs).map .finite
  else none

end Relay.Python
