import Mathlib.Tactic.IntervalCases
import Relay.Json.Number
import Relay.Python.Decimal

/-!
`float(text)` of a number that is written without an exponent.

Such a text is digits, a point and a sign, so nothing is stripped from it, and what is
read has its digits and its last place (`floatText_plain`).
-/

namespace Relay.Python

open Relay.Json

/-! ### Digits -/

/-- What holds of the ten digits holds of every digit. -/
theorem of_isDigit {P : Char → Prop} (all : ∀ d < 10, P (Nat.digitChar d)) {c : Char} (digit : c.isDigit = true) :
    P c := by
  have bounds : 48 ≤ c.toNat ∧ c.toNat ≤ 57 := by
    simp only [Char.isDigit, Bool.and_eq_true, decide_eq_true_eq] at digit
    exact ⟨digit.1, digit.2⟩
  obtain ⟨d, split⟩ := Nat.exists_eq_add_of_le bounds.1
  have same : c = Nat.digitChar d := by
    rw [← Char.ofNat_toNat c, split]
    have small : d < 10 := by omega
    interval_cases d <;> rfl
  exact same ▸ all d (by omega)

theorem digit?_of_isDigit {c : Char} (digit : c.isDigit = true) : digit? c = some (c.toNat - 48) :=
  of_isDigit (P := fun c => digit? c = some (c.toNat - 48)) (by decide) digit

/-- A character of a number without an exponent. -/
def PlainChar (c : Char) : Prop := c.isDigit = true ∨ c = '.' ∨ c = '-'

theorem plainChar_not_space {c : Char} (plain : PlainChar c) : isFloatSpace c = false := by
  rcases plain with digit | rfl | rfl
  · exact of_isDigit (P := fun c => isFloatSpace c = false) (by decide) digit
  · decide
  · decide

theorem plainChar_ne_underscore {c : Char} (plain : PlainChar c) : c ≠ '_' := by
  rcases plain with digit | rfl | rfl
  · exact of_isDigit (P := fun c => c ≠ '_') (by decide) digit
  · decide
  · decide

/-- No plain character is a letter. -/
theorem plain_ne_letter {c : Char} (plain : PlainChar c) : c.toLower ≠ 'x' ∧ c.toLower ≠ 'n' ∧ c.toLower ≠ 'i' := by
  rcases plain with digit | rfl | rfl
  · exact of_isDigit (P := fun c => c.toLower ≠ 'x' ∧ c.toLower ≠ 'n' ∧ c.toLower ≠ 'i') (by decide) digit
  · decide
  · decide

theorem word_ne {cs : List Char} (plain : ∀ c ∈ cs, PlainChar c) (name : List Char) (first : Char)
    (starts : name.head? = some first) (letter : first = 'n' ∨ first = 'i') : cs.map Char.toLower ≠ name := by
  rintro rfl
  cases cs with
  | nil => cases starts
  | cons c cs =>
      have apart := plain_ne_letter (plain c List.mem_cons_self)
      rw [List.map_cons, List.head?_cons, Option.some.injEq] at starts
      rcases letter with rfl | rfl
      · exact apart.2.1 starts
      · exact apart.2.2 starts

theorem stripFloat_of_plain {cs : List Char} (plain : ∀ c ∈ cs, PlainChar c) : stripFloat cs = cs := by
  have drops : ∀ ds : List Char, (∀ c ∈ ds, PlainChar c) → ds.dropWhile isFloatSpace = ds := by
    intro ds all
    cases ds with
    | nil => rfl
    | cons d ds => rw [List.dropWhile_cons, plainChar_not_space (all d List.mem_cons_self)]; rfl
  rw [stripFloat, drops cs plain, drops _ fun c mem => plain c (List.mem_reverse.mp mem), List.reverse_reverse]

theorem underscored_of_plain {cs : List Char} (plain : ∀ c ∈ cs, PlainChar c) (before : Option Char) :
    underscored before cs = true := by
  induction cs generalizing before with
  | nil => rw [underscored]
  | cons c cs ih =>
      rw [underscored]
      · exact ih (fun c mem => plain c (List.mem_cons_of_mem _ mem)) _
      · exact fun same => plainChar_ne_underscore (plain c List.mem_cons_self) same

theorem filter_of_plain {cs : List Char} (plain : ∀ c ∈ cs, PlainChar c) : cs.filter (· ≠ '_') = cs :=
  List.filter_eq_self.mpr fun c mem => decide_eq_true (plainChar_ne_underscore (plain c mem))

/-! ### Reading -/

theorem spanDecimal_digits {ds rest : List Char} (digits : ∀ c ∈ ds, c.isDigit = true)
    (stop : ∀ c ∈ rest.head?, digit? c = none) :
    spanDecimal (ds ++ rest) = (ds.map fun c => c.toNat - 48, rest) := by
  induction ds with
  | nil =>
      cases rest with
      | nil => rfl
      | cons c rest => simp [spanDecimal, stop c rfl]
  | cons d ds ih =>
      rw [List.cons_append, spanDecimal, digit?_of_isDigit (digits d List.mem_cons_self)]
      simp only [ih fun c mem => digits c (List.mem_cons_of_mem _ mem), List.map_cons]

theorem ofDigits_map (ds : List Char) (n : Nat) :
    (ds.map fun c => c.toNat - 48).foldl (fun n d => 10 * n + d) n = Nat.ofDigitChars 10 ds n := by
  induction ds generalizing n with
  | nil => rfl
  | cons d ds ih => exact ih _

/-- The digits of a number before and behind its point. -/
theorem decimalFinite_plain (neg : Bool) {ds : List Char} {frac : Option Digits} (digits : ∀ c ∈ ds, c.isDigit = true)
    (some_ : ds ≠ []) : decimalFinite neg (ds ++ NumText.fracText frac) =
      some ⟨neg, Nat.ofDigitChars 10 (ds ++ (frac.map Digits.chars).getD []) 0,
        -(((frac.map Digits.chars).getD []).length : Int)⟩ := by
  have whole : spanDecimal (ds ++ NumText.fracText frac) = (ds.map fun c => c.toNat - 48, NumText.fracText frac) := by
    refine spanDecimal_digits digits fun c mem => ?_
    cases frac with
    | none => cases mem
    | some frac =>
        cases mem
        decide
  have fraction : decimalFraction (NumText.fracText frac) =
      (((frac.map Digits.chars).getD []).map fun c => c.toNat - 48, []) := by
    cases frac with
    | none => rfl
    | some frac =>
        have span := @spanDecimal_digits frac.chars [] frac.digits nofun
        rw [List.append_nil] at span
        exact span
  have nonempty : (ds ++ (frac.map Digits.chars).getD []).map (fun c => c.toNat - 48) ≠ [] := by
    simp [some_]
  rw [decimalFinite, whole]
  simp only [fraction, decimalExponent, Option.map_some, ofDigits, ← List.map_append, ofDigits_map, List.length_map,
    zero_sub]
  rw [if_neg nonempty]

theorem plainChar_text {t : NumText} (noExp : t.exp = none) : ∀ c ∈ t.text, PlainChar c := by
  intro c mem
  rw [NumText.text, noExp] at mem
  simp only [NumText.expText, List.append_nil, List.mem_append] at mem
  rcases mem with sign | whole | frac
  · split at sign
    · exact .inr (.inr (List.mem_singleton.mp sign))
    · cases sign
  · exact .inl (Nat.isDigit_of_mem_toDigits (by decide) (by decide) whole)
  · cases split : t.frac with
    | none =>
        rw [split] at frac
        cases frac
    | some digits =>
        rw [split] at frac
        rcases List.mem_cons.mp frac with rfl | mem
        · exact .inr (.inl rfl)
        · exact .inl (digits.digits c mem)

/-- A number without an exponent is read with its own digits and last place. -/
theorem floatText_plain {t : NumText} (noExp : t.exp = none) :
    floatText? t.text = some (.finite ⟨t.neg, t.coeff, t.scale⟩) := by
  have plain := plainChar_text noExp
  have digits : ∀ c ∈ Nat.toDigits 10 t.whole, c.isDigit = true := fun c mem =>
    Nat.isDigit_of_mem_toDigits (by decide) (by decide) mem
  obtain ⟨d, ds, split⟩ := List.exists_cons_of_ne_nil (Nat.toDigits_ne_nil (n := t.whole) (b := 10))
  have first : d.isDigit = true := digits d (split ▸ List.mem_cons_self)
  -- The sign is read, and a digit is none.
  have sign : decimalSign t.text = (t.neg, Nat.toDigits 10 t.whole ++ NumText.fracText t.frac) := by
    rw [NumText.text, noExp, NumText.expText, List.append_nil]
    cases t.neg with
    | true => rfl
    | false =>
        rw [split]
        refine of_isDigit (P := fun d => decimalSign ([] ++ (d :: ds ++ NumText.fracText t.frac)) =
          (false, d :: ds ++ NumText.fracText t.frac)) (fun d small => ?_) first
        interval_cases d <;> rfl
  have body : ∀ c ∈ Nat.toDigits 10 t.whole ++ NumText.fracText t.frac, PlainChar c := by
    intro c mem
    refine plain c ?_
    rw [NumText.text, noExp, NumText.expText, List.append_nil]
    exact List.mem_append_right _ mem
  rw [floatText?, stripFloat_of_plain plain, if_pos (underscored_of_plain plain none), filter_of_plain plain, sign]
  simp only [word_ne body "nan".toList 'n' rfl (.inl rfl), word_ne body "inf".toList 'i' rfl (.inr rfl),
    word_ne body "infinity".toList 'i' rfl (.inr rfl), or_self, if_false,
    decimalFinite_plain t.neg digits Nat.toDigits_ne_nil, Option.map_some]
  rw [NumText.coeff, NumText.scale, noExp, NumText.fracChars]
  simp

end Relay.Python
