import Relay.Calendar.Date

/-!
Date and time of day in UTC, and their text `YYYY-MM-DDTHH:MM:SS`.

An instant is a number of seconds since 1970-01-01T00:00:00. `text` pads a year
to four digits and writes the others in full, with a sign before a negative one;
`fixed` and `readDigits` write and read the fields of a fixed width.
-/

namespace Relay.Calendar

structure DateTime where
  date : Date
  hour : Nat
  minute : Nat
  second : Nat
deriving DecidableEq, Repr

/-- The date exists and the time of day is one of its 86400 seconds. -/
def DateTime.Valid (t : DateTime) : Prop :=
  t.date.Valid ∧ t.hour < 24 ∧ t.minute < 60 ∧ t.second < 60

instance (t : DateTime) : Decidable t.Valid := by
  unfold DateTime.Valid
  infer_instance

def DateTime.toSeconds (t : DateTime) : Int :=
  86400 * t.date.toDays + (3600 * t.hour + 60 * t.minute + t.second : Nat)

def DateTime.ofSeconds (seconds : Int) : DateTime where
  date := .ofDays (seconds / 86400)
  hour := (seconds % 86400).toNat / 3600
  minute := (seconds % 86400).toNat % 3600 / 60
  second := (seconds % 86400).toNat % 60

@[simp] theorem toSeconds_ofSeconds (seconds : Int) :
    (DateTime.ofSeconds seconds).toSeconds = seconds := by
  simp only [DateTime.ofSeconds, DateTime.toSeconds, toDays_ofDays]
  omega

theorem ofSeconds_valid (seconds : Int) : (DateTime.ofSeconds seconds).Valid := by
  refine ⟨ofDays_valid _, ?_, ?_, ?_⟩
  · simp only [DateTime.ofSeconds]
    omega
  · simp only [DateTime.ofSeconds]
    omega
  · simp only [DateTime.ofSeconds]
    omega

/-- The calendar year of an instant. -/
def yearOf (seconds : Int) : Int := (DateTime.ofSeconds seconds).date.year

/-! ### Fields of a fixed width -/

def digitChar (n : Nat) : Char := Char.ofNat (48 + n)

def digitVal (c : Char) : Nat := c.toNat - 48

/-- The last `width` decimal digits of a number. -/
def fixed : Nat → Nat → List Char
  | 0, _ => []
  | width + 1, n => digitChar (n / 10 ^ width % 10) :: fixed width n

/-- Exactly `width` decimal digits, read behind those of `acc`. -/
def readDigits : Nat → Nat → List Char → Option (Nat × List Char)
  | 0, acc, cs => some (acc, cs)
  | _ + 1, _, [] => none
  | width + 1, acc, c :: cs =>
      if c.isDigit then readDigits width (10 * acc + digitVal c) cs else none

/-- The text after a given character. -/
def skip (c : Char) : List Char → Option (List Char)
  | d :: rest => if d = c then some rest else none
  | [] => none

@[simp] theorem skip_cons (c : Char) (rest : List Char) : skip c (c :: rest) = some rest := by
  simp [skip]

theorem digitChar_spec : ∀ n < 10, (digitChar n).isDigit = true ∧ digitVal (digitChar n) = n := by
  decide

theorem isDigit_fixed {width n : Nat} : ∀ c ∈ fixed width n, c.isDigit = true := by
  induction width with
  | zero => simp [fixed]
  | succ width ih =>
      intro c mem
      rcases List.mem_cons.mp mem with rfl | mem
      · exact (digitChar_spec _ (Nat.mod_lt _ (by decide))).1
      · exact ih c mem

@[simp] theorem length_fixed (width n : Nat) : (fixed width n).length = width := by
  induction width with
  | zero => rfl
  | succ width ih => simp [fixed, ih]

theorem readDigits_fixed (width acc n : Nat) (rest : List Char) :
    readDigits width acc (fixed width n ++ rest) =
      some (10 ^ width * acc + n % 10 ^ width, rest) := by
  induction width generalizing acc with
  | zero => simp [readDigits, fixed, Nat.mod_one]
  | succ width ih =>
      obtain ⟨digit, value⟩ := digitChar_spec (n / 10 ^ width % 10) (Nat.mod_lt _ (by decide))
      simp only [fixed, List.cons_append, readDigits, digit, if_true, value, ih]
      have split : 10 ^ width * (10 * acc + n / 10 ^ width % 10) + n % 10 ^ width =
          10 ^ (width + 1) * acc + n % 10 ^ (width + 1) := by
        rw [Nat.mod_pow_succ, Nat.pow_succ, Nat.mul_add, Nat.mul_assoc]
        omega
      rw [split]

/-- A field that fits its width reads back as its number. -/
theorem readDigits_fixed_of_lt {width n : Nat} (fits : n < 10 ^ width) (rest : List Char) :
    readDigits width 0 (fixed width n ++ rest) = some (n, rest) := by
  rw [readDigits_fixed, Nat.mul_zero, Nat.zero_add, Nat.mod_eq_of_lt fits]

theorem ofDigitChars_fixed (width n acc : Nat) :
    Nat.ofDigitChars 10 (fixed width n) acc = 10 ^ width * acc + n % 10 ^ width := by
  induction width generalizing acc with
  | zero => simp [fixed, Nat.mod_one]
  | succ width ih =>
      have value := (digitChar_spec (n / 10 ^ width % 10) (Nat.mod_lt _ (by decide))).2
      simp only [digitVal] at value
      have split : 10 ^ width * (10 * acc + n / 10 ^ width % 10) + n % 10 ^ width =
          10 ^ (width + 1) * acc + n % 10 ^ (width + 1) := by
        rw [Nat.mod_pow_succ, Nat.pow_succ, Nat.mul_add, Nat.mul_assoc]
        omega
      rw [fixed, Nat.ofDigitChars_cons]
      simp only [Char.reduceToNat, value, ih, split]

/-! ### Texts -/

/-- A number in at least `width` digits. -/
def padded (width n : Nat) : List Char := if n < 10 ^ width then fixed width n else Nat.toDigits 10 n

/-- A year in at least four digits. -/
def yearText (year : Int) : List Char :=
  if year < 0 then '-' :: padded 4 year.natAbs else padded 4 year.natAbs

def DateTime.text (t : DateTime) : List Char :=
  yearText t.date.year ++ ('-' :: (fixed 2 t.date.month ++ ('-' :: (fixed 2 t.date.day ++
    ('T' :: (fixed 2 t.hour ++ (':' :: (fixed 2 t.minute ++ (':' :: fixed 2 t.second)))))))))

theorem yearText_of_lt {year : Int} (low : 0 ≤ year) (high : year ≤ 9999) :
    yearText year = fixed 4 year.toNat := by
  have sign : ¬ year < 0 := by omega
  have fits : year.natAbs < 10 ^ 4 := by omega
  have same : year.natAbs = year.toNat := by omega
  rw [yearText, if_neg sign, padded, if_pos fits, same]

end Relay.Calendar
