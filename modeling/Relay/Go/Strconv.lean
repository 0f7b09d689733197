import Relay.Json.Scan
import Relay.Python.Float
import Relay.Python.FloatText

/-!
Numbers as Go's `strconv` writes and reads them.

`FormatFloat` with the verb `f` prints the shortest decimal of a double without an
exponent, and `ParseFloat` reads decimal and hexadecimal floats and the names of the
values that are no numbers. Every double comes back from its text
(`parseFloat_formatFloat`).
-/

namespace Relay.Go

open Relay.Json Relay.Numeric Relay.Calendar Relay.Python

/-! ### Comparing -/

/-- `x < y` -/
def less : Binary64 → Binary64 → Bool
  | .nan, _ => false
  | _, .nan => false
  | .infinity neg, .infinity neg' => neg && !neg'
  | .infinity neg, .finite _ _ => neg
  | .finite _ _, .infinity neg => !neg
  | .finite neg x, .finite neg' y => decide ((if neg then -x else x) < if neg' then -y else y)

/-- `x == y`: the zeros are equal, and no NaN is equal to any. -/
def equal : Binary64 → Binary64 → Bool
  | .infinity neg, .infinity neg' => neg == neg'
  | .finite neg x, .finite neg' y => decide ((if neg then -x else x) = if neg' then -y else y)
  | _, _ => false

/-! ### Writing -/

/-- `n * 10 ^ t` without an exponent. -/
def plain (neg : Bool) (n : Nat) : Int → NumText
  | .ofNat t => ⟨neg, n * 10 ^ t, none, none⟩
  | .negSucc t => ⟨neg, n / 10 ^ (t + 1), some (fixedDigits t n), none⟩

/-- The names of the values that are no numbers. -/
def formatSpecial : Binary64 → List Char
  | .infinity true => "-Inf".toList
  | .infinity false => "+Inf".toList
  | _ => "NaN".toList

/-- The shortest decimal of a finite double. -/
def plainFinite (neg : Bool) (x : ℚ) : NumText :=
  if x = 0 then ⟨neg, 0, none, none⟩ else plain neg (shortest x).1 (shortest x).2

/-- `strconv.FormatFloat(x, 'f', -1, 64)` -/
def formatFloat : Binary64 → List Char
  | .finite neg x => (plainFinite neg x).text
  | x => formatSpecial x

/-- `fmt.Sprintf("%v", x)` -/
def formatValue : Binary64 → List Char
  | .finite neg x =>
      let (n, t) := shortest x
      let exp := (Nat.toDigits 10 n).length + t - 1
      (if x = 0 then ⟨neg, 0, none, none⟩
        else if exp < -4 ∨ 6 ≤ exp then scientific neg n t else plain neg n t).text
  | x => formatSpecial x

/-- `strconv.Itoa(n)` -/
def itoa (n : Int) : List Char := (NumText.ofInt n).text

/-! ### Reading -/

/-- A sign or none: whether a number is negative. -/
def signed : List Char → Bool × List Char
  | '-' :: cs => (true, cs)
  | '+' :: cs => (false, cs)
  | cs => (false, cs)

def digit? (hex : Bool) (c : Char) : Option Nat :=
  if c.isDigit then some (c.toNat - 48) else if hex then hexVal? c else none

/-- The digits that were read as one number, how many of them stand behind the point, and whether
there were a point and a digit. -/
structure Mantissa where
  coeff : Nat
  places : Nat
  dot : Bool
  digits : Bool

def Mantissa.add (hex : Bool) (d : Nat) (m : Mantissa) : Mantissa where
  coeff := (if hex then 16 else 10) * m.coeff + d
  places := if m.dot then m.places + 1 else m.places
  dot := m.dot
  digits := true

/-- The first loop of `readFloat`. Underscores are skipped here. -/
def readMantissa (hex : Bool) : List Char → Mantissa → Mantissa × List Char
  | [], m => (m, [])
  | c :: cs, m =>
      if c = '_' then readMantissa hex cs m
      else if c = '.' then if m.dot then (m, c :: cs) else readMantissa hex cs { m with dot := true }
      else
        match digit? hex c with
        | some d => readMantissa hex cs (m.add hex d)
        | none => (m, c :: cs)

/-- Its second loop. What is large enough grows no more. -/
def readExponent : List Char → Nat → Nat × List Char
  | [], e => (e, [])
  | c :: cs, e =>
      if c = '_' then readExponent cs e
      else if c.isDigit then readExponent cs (if e < 10000 then 10 * e + (c.toNat - 48) else e)
      else (e, c :: cs)

/-- The exponent, which a hexadecimal float must have. -/
def exponent? (hex : Bool) : List Char → Option (Int × List Char)
  | [] => if hex then none else some (0, [])
  | c :: cs =>
      if c.toLower = (if hex then 'p' else 'e') then
        let (neg, digits) := signed cs
        match digits with
        | [] => none
        | d :: _ =>
            if d.isDigit then
              let (e, rest) := readExponent digits 0
              some (if neg then -(e : Int) else e, rest)
            else none
      else if hex then none else some (0, c :: cs)

/-- The loop of `underscoreOK`, with the class of the last character. -/
def underscoresFrom (hex : Bool) (seen : Char) : List Char → Bool
  | [] => seen ≠ '_'
  | c :: cs =>
      if (digit? hex c).isSome then underscoresFrom hex '0' cs
      else if c = '_' then seen = '0' && underscoresFrom hex '_' cs
      else seen ≠ '_' && underscoresFrom hex '!' cs

/-- Underscores stand between digits, or behind the prefix of a base. -/
def underscoreOK (text : List Char) : Bool :=
  match (signed text).2 with
  | '0' :: x :: rest =>
      if x.toLower ∈ ['b', 'o', 'x'] then underscoresFrom (x.toLower = 'x') '0' rest
      else underscoresFrom false '^' ('0' :: x :: rest)
  | cs => underscoresFrom false '^' cs

/-- The prefix of a hexadecimal float. -/
def hexPrefix : List Char → Bool × List Char
  | '0' :: x :: c :: cs => if x.toLower = 'x' then (true, c :: cs) else (false, '0' :: x :: c :: cs)
  | cs => (false, cs)

/-- A number that is the whole text. -/
def readFloat (text : List Char) : Option Binary64 :=
  let (neg, cs) := signed text
  let (hex, cs) := hexPrefix cs
  let (m, cs) := readMantissa hex cs ⟨0, 0, false, false⟩
  if m.digits then
    match exponent? hex cs with
    | some (e, []) =>
        if '_' ∈ text ∧ underscoreOK text = false then none
        else some (.ofRat neg (m.coeff * if hex then 2 ^ (e - 4 * m.places) else 10 ^ (e - m.places)))
    | _ => none
  else none

/-- `strconv.ParseFloat(text, 64)`; `none` is a syntax error. What is out of range is an infinity. -/
def parseFloat (text : List Char) : Option Binary64 :=
  let (neg, cs) := signed text
  let word := cs.map Char.toLower
  if text.map Char.toLower = "nan".toList then some .nan
  else if word = "inf".toList ∨ word = "infinity".toList then some (.infinity neg)
  else readFloat text

/-- What `strconv.Atoi(text)` returns beside its error: zero, or the nearest of 64 bits. -/
def atoi (text : List Char) : Int :=
  let (neg, digits) := signed text
  if digits ≠ [] ∧ digits.all Char.isDigit then
    let n : Int := Nat.ofDigitChars 10 digits 0
    max (-2 ^ 63) (min (2 ^ 63 - 1) (if neg then -n else n))
  else 0

/-! ### Numbers without an exponent -/

section Plain

theorem readMantissa_digits {ds : List Char} (digits : ∀ c ∈ ds, c.isDigit = true) (rest : List Char) (m : Mantissa) :
    readMantissa false (ds ++ rest) m =
      readMantissa false rest (ds.foldl (fun m c => m.add false (c.toNat - 48)) m) := by
  induction ds generalizing m with
  | nil => rfl
  | cons d ds ih =>
      have digit := digits d List.mem_cons_self
      have apart : d ≠ '_' ∧ d ≠ '.' := of_isDigit (P := fun d => d ≠ '_' ∧ d ≠ '.') (by decide) digit
      have read : digit? false d = some (d.toNat - 48) := if_pos digit
      rw [List.cons_append, readMantissa, if_neg apart.1, if_neg apart.2, read]
      exact ih (fun c mem => digits c (List.mem_cons_of_mem _ mem)) _

theorem foldl_add (ds : List Char) (m : Mantissa) :
    ds.foldl (fun m c => m.add false (c.toNat - 48)) m =
      ⟨Nat.ofDigitChars 10 ds m.coeff, if m.dot then m.places + ds.length else m.places, m.dot,
        m.digits || !ds.isEmpty⟩ := by
  induction ds generalizing m with
  | nil => simp
  | cons d ds ih =>
      rw [List.foldl_cons, ih]
      obtain ⟨coeff, places, dot, digits⟩ := m
      cases dot <;> simp [Mantissa.add, Nat.ofDigitChars, Nat.add_comm, Nat.add_left_comm]

variable {t : NumText}

/-- The digits before and behind the point. -/
theorem readMantissa_plain (t : NumText) : ∃ dot,
    readMantissa false (Nat.toDigits 10 t.whole ++ NumText.fracText t.frac) ⟨0, 0, false, false⟩ =
      (⟨t.coeff, t.fracChars.length, dot, true⟩, []) := by
  have digits : ∀ c ∈ Nat.toDigits 10 t.whole, c.isDigit = true := fun c mem =>
    Nat.isDigit_of_mem_toDigits (by decide) (by decide) mem
  have some_ : (Nat.toDigits 10 t.whole).isEmpty = false := List.isEmpty_eq_false_iff.mpr Nat.toDigits_ne_nil
  rw [readMantissa_digits digits, foldl_add, NumText.coeff, NumText.fracChars]
  cases t.frac with
  | none =>
      refine ⟨false, ?_⟩
      simp [NumText.fracText, readMantissa, some_]
  | some frac =>
      refine ⟨true, ?_⟩
      have read := @readMantissa_digits frac.chars frac.digits []
      rw [NumText.fracText, readMantissa, if_neg (by decide), if_pos rfl, if_neg Bool.false_ne_true]
      rw [List.append_nil] at read
      rw [read, foldl_add]
      simp [readMantissa, some_, Nat.ofDigitChars_append]

theorem signed_plain (noExp : t.exp = none) :
    signed t.text = (t.neg, Nat.toDigits 10 t.whole ++ NumText.fracText t.frac) := by
  obtain ⟨d, ds, split⟩ := List.exists_cons_of_ne_nil (Nat.toDigits_ne_nil (n := t.whole) (b := 10))
  have first : d.isDigit = true :=
    Nat.isDigit_of_mem_toDigits (b := 10) (n := t.whole) (by decide) (by decide) (split ▸ List.mem_cons_self)
  rw [NumText.text, noExp, NumText.expText, List.append_nil]
  cases t.neg with
  | true => rfl
  | false =>
      rw [split]
      refine of_isDigit (P := fun d => signed ([] ++ (d :: ds ++ NumText.fracText t.frac)) =
        (false, d :: ds ++ NumText.fracText t.frac)) (fun d small => ?_) first
      interval_cases d <;> rfl

theorem hexPrefix_plain {cs : List Char} (plain : ∀ c ∈ cs, PlainChar c) : hexPrefix cs = (false, cs) := by
  unfold hexPrefix
  split
  · rename_i x c rest
    exact if_neg (plain_ne_letter (plain x (by simp))).1
  · rfl

theorem abs_value (noExp : t.exp = none) : |t.value| = t.coeff * 10 ^ (0 - (t.fracChars.length : Int)) := by
  have scale : t.scale = 0 - t.fracChars.length := by
    rw [NumText.scale, noExp]
  have magnitude : (0 : ℚ) ≤ t.coeff * 10 ^ (0 - (t.fracChars.length : Int)) := by positivity
  rw [NumText.value, scale, mul_assoc]
  cases t.neg with
  | true => rw [if_pos rfl, neg_one_mul, abs_neg, abs_of_nonneg magnitude]
  | false => rw [if_neg Bool.false_ne_true, one_mul, abs_of_nonneg magnitude]

/-- A number without an exponent is read as the double nearest to it. -/
theorem parseFloat_plain (noExp : t.exp = none) : parseFloat t.text = some (.ofRat t.neg |t.value|) := by
  have plain := plainChar_text noExp
  have sign := signed_plain noExp
  have body : ∀ c ∈ Nat.toDigits 10 t.whole ++ NumText.fracText t.frac, PlainChar c := by
    intro c mem
    refine plain c ?_
    rw [NumText.text, noExp, NumText.expText, List.append_nil]
    exact List.mem_append_right _ mem
  obtain ⟨dot, mantissa⟩ := readMantissa_plain t
  have ends : exponent? false [] = some (0, []) := rfl
  have noUnderscore : '_' ∉ t.text := fun mem => plainChar_ne_underscore (plain '_' mem) rfl
  have read : readFloat t.text = some (.ofRat t.neg |t.value|) := by
    rw [readFloat, sign, abs_value noExp]
    simp only [hexPrefix_plain body, mantissa, ends, noUnderscore, false_and, if_false, if_true, Bool.false_eq_true]
  rw [parseFloat, sign]
  dsimp only
  rw [if_neg (word_ne plain "nan".toList 'n' rfl (.inl rfl)), if_neg, read]
  rintro (same | same)
  · exact word_ne body "inf".toList 'i' rfl (.inr rfl) same
  · exact word_ne body "infinity".toList 'i' rfl (.inr rfl) same

end Plain

/-! ### Every double comes back -/

/-- A magnitude is that of a double. -/
def IsDouble : Binary64 → Prop
  | .finite _ x => 0 ≤ x ∧ round64 x = x ∧ x < overflow
  | _ => True

section Doubles

variable {neg : Bool} {x : ℚ}

theorem exp_plainFinite (neg : Bool) (x : ℚ) : (plainFinite neg x).exp = none := by
  unfold plainFinite
  split
  · rfl
  · cases (shortest x).2 <;> rfl

theorem neg_plainFinite (neg : Bool) (x : ℚ) : (plainFinite neg x).neg = neg := by
  unfold plainFinite
  split
  · rfl
  · cases (shortest x).2 <;> rfl

theorem value_plain (neg : Bool) (n : Nat) (t : Int) :
    (plain neg n t).value = (if neg then -1 else 1) * n * 10 ^ t := by
  cases t with
  | ofNat t =>
      rw [NumText.value_of_isInt rfl]
      cases neg <;> simp [plain, NumText.intValue]
  | negSucc t => exact value_positional neg n (.negSucc t)

/-- The printed decimal is nearest to the double. -/
theorem ofRat_plainFinite (double : IsDouble (.finite neg x)) :
    Binary64.ofRat neg |(plainFinite neg x).value| = .finite neg x := by
  obtain ⟨nonneg, fixed, small⟩ := double
  have rounds : round64 |(plainFinite neg x).value| = x := by
    by_cases zero : x = 0
    · rw [plainFinite, if_pos zero, NumText.value_of_isInt rfl, zero]
      cases neg <;> simp [NumText.intValue]
    · have picked := (shortest_spec nonneg (by rwa [fixed])).1.1
      rw [fixed] at picked
      have magnitude : (0 : ℚ) ≤ (shortest x).1 * 10 ^ (shortest x).2 :=
        mul_nonneg (Nat.cast_nonneg _) (zpow_nonneg (by norm_num) _)
      rw [plainFinite, if_neg zero, value_plain, mul_assoc]
      cases neg with
      | true => rw [if_pos rfl, neg_one_mul, abs_neg, abs_of_nonneg magnitude, picked]
      | false => rw [if_neg Bool.false_ne_true, one_mul, abs_of_nonneg magnitude, picked]
  rw [Binary64.ofRat, rounds]
  exact if_pos small

theorem parseFloat_formatFloat {x : Binary64} (double : IsDouble x) : parseFloat (formatFloat x) = some x := by
  cases x with
  | finite neg x =>
      rw [formatFloat, parseFloat_plain (exp_plainFinite neg x), neg_plainFinite, ofRat_plainFinite double]
  | infinity neg => cases neg <;> decide
  | nan => decide

/-- Python reads the same text as the same double. -/
theorem floatText_formatFloat (double : IsDouble (.finite neg x)) : ∃ d : Dec,
    floatText? (formatFloat (.finite neg x)) = some (.finite d) ∧ Binary64.ofRat d.neg |d.value| = .finite neg x := by
  refine ⟨.ofNumText (plainFinite neg x), floatText_plain (exp_plainFinite neg x), ?_⟩
  have sign : (Dec.ofNumText (plainFinite neg x)).neg = neg := neg_plainFinite neg x
  rw [sign, Dec.value_ofNumText]
  exact ofRat_plainFinite double

end Doubles

/-! ### Integers -/

theorem atoi_itoa {n : Nat} (small : n < 2 ^ 63) : atoi (itoa n) = n := by
  have digits : ∀ c ∈ Nat.toDigits 10 n, c.isDigit = true := fun c mem =>
    Nat.isDigit_of_mem_toDigits (by decide) (by decide) mem
  have sign : signed (itoa n) = (false, Nat.toDigits 10 n) := by
    have plain := @signed_plain (.ofInt n) rfl
    have negative : decide ((n : Int) < 0) = false := by simp
    simp only [NumText.ofInt, NumText.fracText, List.append_nil, Int.natAbs_natCast, negative] at plain
    rw [itoa, NumText.ofInt, negative]
    exact plain
  have all : Nat.toDigits 10 n ≠ [] ∧ (Nat.toDigits 10 n).all Char.isDigit = true :=
    ⟨Nat.toDigits_ne_nil, List.all_eq_true.mpr digits⟩
  rw [atoi, sign]
  simp only [if_pos all, Nat.ofDigitChars_ten_toDigits, Bool.false_eq_true, if_false]
  omega

/-- Python reads an integer's text as the double nearest to it. -/
theorem floatText_itoa (n : Nat) : ∃ d : Dec,
    floatText? (itoa n) = some (.finite d) ∧ Binary64.ofRat d.neg |d.value| = .ofRat false n := by
  refine ⟨.ofNumText (.ofInt n), floatText_plain rfl, ?_⟩
  have sign : (Dec.ofNumText (.ofInt n)).neg = false := by simp [Dec.ofNumText, NumText.ofInt]
  have value : (NumText.ofInt n).value = n := by
    rw [NumText.value_of_isInt rfl, NumText.intValue_ofInt]
    rfl
  rw [sign, Dec.value_ofNumText, value, abs_of_nonneg (Nat.cast_nonneg n)]

end Relay.Go
