import Mathlib.Algebra.Order.Field.Rat
import Mathlib.Algebra.Order.Field.Power
import Mathlib.Data.Rat.Cast.Order
import Mathlib.Data.Nat.Notation

/-!
JSON number texts.

A `NumText` is a number as the grammar writes it: a sign, an integer part
without leading zeros, and optional fraction and exponent digits. It keeps the
text, so two spellings of one value are two number texts. `scanNumber` reads the
longest number a text starts with, and reads back every number text that is
followed by something that cannot continue it (`scanNumber_text`).
-/

namespace Relay.Json

/-- A nonempty run of decimal digits. -/
structure Digits where
  chars : List Char
  nonempty : chars ≠ []
  digits : ∀ c ∈ chars, c.isDigit = true
deriving DecidableEq

def Digits.value (d : Digits) : Nat := Nat.ofDigitChars 10 d.chars 0

/-- The digits of a number. -/
def Digits.ofNat (n : Nat) : Digits where
  chars := Nat.toDigits 10 n
  nonempty := Nat.toDigits_ne_nil
  digits := fun _ mem => Nat.isDigit_of_mem_toDigits (by decide) (by decide) mem

@[simp] theorem Digits.value_ofNat (n : Nat) : (Digits.ofNat n).value = n :=
  Nat.ofDigitChars_ten_toDigits

/-- An exponent part: `e` or `E`, a sign or none, and digits. -/
structure Exponent where
  upper : Bool
  sign : Option Bool
  digits : Digits
deriving DecidableEq

structure NumText where
  neg : Bool
  whole : Nat
  frac : Option Digits
  exp : Option Exponent
deriving DecidableEq

namespace NumText

/-- The number text of an integer. -/
def ofInt (i : Int) : NumText := ⟨decide (i < 0), i.natAbs, none, none⟩

def isInt (t : NumText) : Bool := t.frac.isNone && t.exp.isNone

def fracChars (t : NumText) : List Char := (t.frac.map Digits.chars).getD []

/-- All digits before the exponent, as one number. -/
def coeff (t : NumText) : Nat := Nat.ofDigitChars 10 (Nat.toDigits 10 t.whole ++ t.fracChars) 0

/-- The power of ten that scales `coeff`. -/
def scale (t : NumText) : Int :=
  (match t.exp with
    | none => 0
    | some e => if e.sign = some true then -(e.digits.value : Int) else e.digits.value) -
    t.fracChars.length

/-- The exact value a number text denotes. -/
def value (t : NumText) : ℚ := (if t.neg then -1 else 1) * t.coeff * (10 : ℚ) ^ t.scale

def signText : Option Bool → List Char
  | none => []
  | some true => ['-']
  | some false => ['+']

def fracText : Option Digits → List Char
  | none => []
  | some d => '.' :: d.chars

def expText : Option Exponent → List Char
  | none => []
  | some e => (if e.upper then 'E' else 'e') :: (signText e.sign ++ e.digits.chars)

/-- The characters of a number text. -/
def text (t : NumText) : List Char :=
  (if t.neg then ['-'] else []) ++
    (Nat.toDigits 10 t.whole ++ (fracText t.frac ++ expText t.exp))

@[simp] theorem isInt_ofInt (i : Int) : (ofInt i).isInt = true := rfl

theorem coeff_of_isInt {t : NumText} (int : t.isInt = true) : t.coeff = t.whole := by
  simp only [isInt, Bool.and_eq_true, Option.isNone_iff_eq_none] at int
  simp [coeff, fracChars, int.1]

theorem scale_of_isInt {t : NumText} (int : t.isInt = true) : t.scale = 0 := by
  simp only [isInt, Bool.and_eq_true, Option.isNone_iff_eq_none] at int
  simp [scale, fracChars, int.1, int.2]

/-- The integer a text without fraction and exponent denotes. -/
def intValue (t : NumText) : Int := if t.neg then -(t.whole : Int) else t.whole

theorem value_of_isInt {t : NumText} (int : t.isInt = true) : t.value = t.intValue := by
  rw [value, coeff_of_isInt int, scale_of_isInt int, intValue]
  cases t.neg <;> simp

@[simp] theorem intValue_ofInt (i : Int) : (ofInt i).intValue = i := by
  simp only [intValue, ofInt, decide_eq_true_eq]
  split <;> omega

end NumText

/-! ### Scanning -/

/-- Split off the leading decimal digits. -/
def spanDigits : List Char → List Char × List Char
  | [] => ([], [])
  | c :: cs => if c.isDigit then ((c :: (spanDigits cs).1), (spanDigits cs).2) else ([], c :: cs)

theorem spanDigits_digits : ∀ (cs : List Char), ∀ c ∈ (spanDigits cs).1, c.isDigit = true
  | [] => by simp [spanDigits]
  | c :: cs => by
      intro d mem
      by_cases digit : c.isDigit = true
      · simp only [spanDigits, digit, if_true, List.mem_cons] at mem
        rcases mem with rfl | mem
        · exact digit
        · exact spanDigits_digits cs d mem
      · simp [spanDigits, digit] at mem

/-- `cs` does not start with a digit. -/
def NoDigit (cs : List Char) : Prop := ∀ c rest, cs = c :: rest → c.isDigit = false

theorem noDigit_cons {c : Char} {cs : List Char} (h : c.isDigit = false) : NoDigit (c :: cs) := by
  intro c' rest same
  cases same
  exact h

theorem spanDigits_append {ds rest : List Char} (digits : ∀ c ∈ ds, c.isDigit = true)
    (stop : NoDigit rest) : spanDigits (ds ++ rest) = (ds, rest) := by
  induction ds with
  | nil =>
      cases rest with
      | nil => rfl
      | cons c cs => simp [spanDigits, stop c cs rfl]
  | cons d ds ih =>
      have tail := ih fun c mem => digits c (List.mem_cons_of_mem _ mem)
      simp [spanDigits, digits d List.mem_cons_self, tail]

/-- The leading digits of a text, when there is one. -/
def scanDigits (cs : List Char) : Option (Digits × List Char) :=
  if nonempty : (spanDigits cs).1 ≠ [] then
    some (⟨(spanDigits cs).1, nonempty, spanDigits_digits cs⟩, (spanDigits cs).2)
  else none

theorem scanDigits_append (d : Digits) {rest : List Char} (stop : NoDigit rest) :
    scanDigits (d.chars ++ rest) = some (d, rest) := by
  have split := spanDigits_append d.digits stop
  simp [scanDigits, split, d.nonempty]

/-- A fraction: a point followed by at least one digit. -/
def scanFrac : List Char → Option Digits × List Char
  | '.' :: cs =>
      match scanDigits cs with
      | some (d, rest) => (some d, rest)
      | none => (none, '.' :: cs)
  | cs => (none, cs)

/-- An exponent's sign. -/
def scanSign : List Char → Option Bool × List Char
  | '-' :: cs => (some true, cs)
  | '+' :: cs => (some false, cs)
  | cs => (none, cs)

/-- An exponent part; a marker without digits is left unread. -/
def scanExp : List Char → Option Exponent × List Char
  | c :: cs =>
      if c = 'e' ∨ c = 'E' then
        match scanDigits (scanSign cs).2 with
        | some (d, rest) => (some ⟨c == 'E', (scanSign cs).1, d⟩, rest)
        | none => (none, c :: cs)
      else (none, c :: cs)
  | [] => (none, [])

/-- The integer part: one zero, or digits that do not start with a zero. -/
def scanWhole : List Char → Option (Nat × List Char)
  | '0' :: cs => some (0, cs)
  | cs => (scanDigits cs).map fun (d, rest) => (d.value, rest)

def scanMinus : List Char → Bool × List Char
  | '-' :: cs => (true, cs)
  | cs => (false, cs)

/-- The longest number a text starts with. -/
def scanNumber (cs : List Char) : Option (NumText × List Char) :=
  (scanWhole (scanMinus cs).2).map fun (whole, rest) =>
    (⟨(scanMinus cs).1, whole, (scanFrac rest).1, (scanExp (scanFrac rest).2).1⟩,
      (scanExp (scanFrac rest).2).2)

/-- What may follow a number so that it ends there. -/
def Stops (rest : List Char) : Prop :=
  ∀ c cs, rest = c :: cs → c.isDigit = false ∧ c ≠ '.' ∧ c ≠ 'e' ∧ c ≠ 'E'

theorem stops_nil : Stops [] := by
  intro c cs h
  cases h

theorem stops_cons {c : Char} {cs : List Char} (digit : c.isDigit = false) (point : c ≠ '.')
    (lower : c ≠ 'e') (upper : c ≠ 'E') : Stops (c :: cs) := by
  intro c' cs' same
  cases same
  exact ⟨digit, point, lower, upper⟩

theorem Stops.noDigit {rest : List Char} (stop : Stops rest) : NoDigit rest :=
  fun c cs same => (stop c cs same).1

theorem scanExp_stop {rest : List Char} (stop : Stops rest) : scanExp rest = (none, rest) := by
  cases rest with
  | nil => rfl
  | cons c cs =>
      obtain ⟨-, -, lower, upper⟩ := stop c cs rfl
      simp [scanExp, lower, upper]

theorem scanSign_text (sign : Option Bool) (d : Digits) (rest : List Char) :
    scanSign (NumText.signText sign ++ (d.chars ++ rest)) = (sign, d.chars ++ rest) := by
  cases sign with
  | some negative => cases negative <;> rfl
  | none =>
      obtain ⟨cs, nonempty, isDigit⟩ := d
      cases cs with
      | nil => exact absurd rfl nonempty
      | cons c cs =>
          have digit := isDigit c List.mem_cons_self
          simp only [NumText.signText, List.nil_append, List.cons_append]
          unfold scanSign
          split
          · rename_i same
            obtain ⟨rfl, -⟩ := List.cons.inj same
            exact absurd digit (by decide)
          · rename_i same
            obtain ⟨rfl, -⟩ := List.cons.inj same
            exact absurd digit (by decide)
          · rfl

theorem scanExp_text (e : Option Exponent) {rest : List Char} (stop : Stops rest) :
    scanExp (NumText.expText e ++ rest) = (e, rest) := by
  cases e with
  | none => exact scanExp_stop stop
  | some e =>
      obtain ⟨upper, sign, d⟩ := e
      have signed := scanSign_text sign d rest
      have digits := scanDigits_append d stop.noDigit
      cases upper <;>
        simp only [NumText.expText, Bool.false_eq_true, if_false, if_true, List.cons_append,
          List.append_assoc, scanExp, true_or, or_true, signed, digits] <;> rfl

theorem scanFrac_text (f : Option Digits) {rest : List Char} (stop : NoDigit rest)
    (point : ∀ cs, rest ≠ '.' :: cs) : scanFrac (NumText.fracText f ++ rest) = (f, rest) := by
  cases f with
  | none =>
      simp only [NumText.fracText, List.nil_append]
      unfold scanFrac
      split
      · exact absurd rfl (point _)
      · rfl
  | some d => simp [NumText.fracText, scanFrac, scanDigits_append d stop]

theorem toDigits_head_ne_zero {n : Nat} (pos : n ≠ 0) (cs : List Char) :
    Nat.toDigits 10 n ≠ '0' :: cs := by
  induction n using Nat.strongRecOn generalizing cs with
  | ind n ih =>
      intro same
      by_cases small : n < 10
      · rw [Nat.toDigits_of_lt_base small] at same
        have head := (List.cons.inj same).1
        have := Nat.toNat_digitChar_sub_48_of_lt_ten small
        rw [head] at this
        simp at this
        omega
      · rw [Nat.toDigits_of_base_le (by decide) (by omega)] at same
        cases split : Nat.toDigits 10 (n / 10) with
        | nil => exact Nat.toDigits_ne_nil split
        | cons c rest =>
            rw [split, List.cons_append] at same
            obtain ⟨rfl, -⟩ := List.cons.inj same
            exact ih (n / 10) (by omega) (by omega) rest split

theorem scanWhole_text (n : Nat) {rest : List Char} (stop : NoDigit rest) :
    scanWhole (Nat.toDigits 10 n ++ rest) = some (n, rest) := by
  by_cases zero : n = 0
  · subst zero
    rw [Nat.toDigits_zero]
    rfl
  · have digits := scanDigits_append (Digits.ofNat n) stop
    simp only [Digits.ofNat] at digits
    unfold scanWhole
    split
    · rename_i cs same
      cases split : Nat.toDigits 10 n with
      | nil => exact absurd split Nat.toDigits_ne_nil
      | cons c ds =>
          rw [split, List.cons_append] at same
          obtain ⟨rfl, -⟩ := List.cons.inj same
          exact absurd split (toDigits_head_ne_zero zero ds)
    · rw [digits]
      exact congrArg some (Prod.ext (Digits.value_ofNat n) rfl)

theorem scanMinus_text (neg : Bool) {rest : List Char} (minus : ∀ cs, rest ≠ '-' :: cs) :
    scanMinus ((if neg then ['-'] else []) ++ rest) = (neg, rest) := by
  cases neg with
  | true => rfl
  | false =>
      simp only [Bool.false_eq_true, if_false, List.nil_append]
      unfold scanMinus
      split
      · exact absurd rfl (minus _)
      · rfl

theorem noDigit_expText (e : Option Exponent) {rest : List Char} (stop : Stops rest) :
    NoDigit (NumText.expText e ++ rest) ∧ ∀ cs, NumText.expText e ++ rest ≠ '.' :: cs := by
  cases e with
  | none => exact ⟨stop.noDigit, fun cs same => (stop _ _ same).2.1 rfl⟩
  | some e =>
      have marker : (if e.upper then 'E' else 'e').isDigit = false ∧
          (if e.upper then 'E' else 'e') ≠ '.' := by cases e.upper <;> decide
      exact ⟨noDigit_cons marker.1, fun cs same => marker.2 (List.cons.inj same).1⟩

theorem noDigit_fracText (f : Option Digits) {rest : List Char} (stop : NoDigit rest) :
    NoDigit (NumText.fracText f ++ rest) := by
  cases f with
  | none => exact stop
  | some d => exact noDigit_cons (by decide)

theorem toDigits_ne_minus (n : Nat) (rest cs : List Char) : Nat.toDigits 10 n ++ rest ≠ '-' :: cs := by
  intro same
  cases split : Nat.toDigits 10 n with
  | nil => exact Nat.toDigits_ne_nil split
  | cons c ds =>
      have digit : c.isDigit = true :=
        Nat.isDigit_of_mem_toDigits (by decide) (by decide) (split ▸ List.mem_cons_self)
      rw [split, List.cons_append] at same
      obtain ⟨rfl, -⟩ := List.cons.inj same
      exact absurd digit (by decide)

/-- A number's text reads back as that number. -/
theorem scanNumber_text (t : NumText) {rest : List Char} (stop : Stops rest) :
    scanNumber (t.text ++ rest) = some (t, rest) := by
  obtain ⟨neg, whole, frac, exp⟩ := t
  obtain ⟨noDigit, noPoint⟩ := noDigit_expText exp stop
  have wholeRead := scanWhole_text whole (noDigit_fracText frac noDigit)
  have fracRead := scanFrac_text frac noDigit noPoint
  have expRead := scanExp_text exp stop
  simp only [scanNumber, NumText.text, List.append_assoc]
  rw [scanMinus_text neg (toDigits_ne_minus whole _)]
  simp only [wholeRead, Option.map_some, fracRead, expRead]

end Relay.Json
