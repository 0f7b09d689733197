import Mathlib.Data.Int.Notation
import Mathlib.Data.Nat.Notation
import Mathlib.Tactic.IntervalCases
import Mathlib.Tactic.SplitIfs

/-!
The proleptic Gregorian calendar.

Days are counted from 1970-01-01. A year here starts with March, so the leap day
is its last; 400 such years are an era of 146097 days, which splits into
centuries, groups of four years and years by division. `toDays_ofDays` and
`ofDays_valid` say that every day number has one date and that the date exists.
-/

namespace Relay.Calendar

structure Date where
  year : Int
  month : Nat
  day : Nat
deriving DecidableEq, Repr

def isLeap (year : Int) : Bool := year % 4 = 0 ∧ (year % 100 ≠ 0 ∨ year % 400 = 0)

def daysIn (year : Int) (month : Nat) : Nat :=
  if month = 2 then if isLeap year then 29 else 28
  else if month = 4 ∨ month = 6 ∨ month = 9 ∨ month = 11 then 30
  else 31

/-- The date exists. -/
def Date.Valid (d : Date) : Prop :=
  1 ≤ d.month ∧ d.month ≤ 12 ∧ 1 ≤ d.day ∧ d.day ≤ daysIn d.year d.month

instance (d : Date) : Decidable d.Valid := by
  unfold Date.Valid
  infer_instance

/-- Days from 0000-03-01 to 1970-01-01. -/
def epoch : Int := 719468

/-- Months since March, of a month counted from January. -/
def fromMarch (month : Nat) : Nat := (month + 9) % 12

/-- The days of the months before the `m`-th month since March. -/
def daysBefore (m : Nat) : Nat := (153 * m + 2) / 5

/-- The March-based year a date lies in. -/
def Date.marchYear (d : Date) : Int := if d.month ≤ 2 then d.year - 1 else d.year

/-- The number of a date's day. -/
def Date.toDays (d : Date) : Int :=
  365 * d.marchYear + d.marchYear / 4 - d.marchYear / 100 + d.marchYear / 400 +
    (daysBefore (fromMarch d.month) + d.day - 1) - epoch

/-! ### From a day number to its date -/

/-- The century, the group of four years, the year and the day of a day within
an era. The last day of an era and of a group of four is a leap day, not the
first day of another year. -/
def yearOfEra (day : Nat) : Nat × Nat :=
  let century := min (day / 36524) 3
  let inCentury := day - 36524 * century
  let group := inCentury / 1461
  let inGroup := inCentury % 1461
  let year := min (inGroup / 365) 3
  (100 * century + 4 * group + year, inGroup - 365 * year)

/-- The month since March and the day of the month of a day within a year. -/
def monthOfYear (day : Nat) : Nat × Nat :=
  let month := (5 * day + 2) / 153
  (month, day - daysBefore month + 1)

/-- The date of a year and a month since March. -/
def Date.ofMarch (year : Int) (month day : Nat) : Date where
  year := if month < 10 then year else year + 1
  month := if month < 10 then month + 3 else month - 9
  day := day

/-- The date of a day within an era. -/
def Date.ofEra (era : Int) (day : Nat) : Date :=
  .ofMarch (400 * era + (yearOfEra day).1) (monthOfYear (yearOfEra day).2).1
    (monthOfYear (yearOfEra day).2).2

/-- The date of a day number. -/
def Date.ofDays (days : Int) : Date :=
  .ofEra ((days + epoch) / 146097) ((days + epoch) % 146097).toNat

/-- A year since March has at most 365 days before its last one, and 365 only
when the February in it has a leap day. -/
theorem yearOfEra_spec {day : Nat} (bound : day < 146097) :
    (yearOfEra day).1 ≤ 399 ∧ (yearOfEra day).2 ≤ 365 ∧
      365 * (yearOfEra day).1 + (yearOfEra day).1 / 4 + (yearOfEra day).2 =
        day + (yearOfEra day).1 / 100 ∧
      ((yearOfEra day).2 = 365 → ((yearOfEra day).1 + 1) % 4 = 0 ∧
        (((yearOfEra day).1 + 1) % 100 ≠ 0 ∨ (yearOfEra day).1 = 399)) := by
  simp only [yearOfEra]
  obtain ⟨c, century⟩ : ∃ c, c = min (day / 36524) 3 := ⟨_, rfl⟩
  rw [← century]
  obtain ⟨g, group⟩ : ∃ g, g = (day - 36524 * c) / 1461 := ⟨_, rfl⟩
  obtain ⟨y, year⟩ : ∃ y, y = min ((day - 36524 * c) % 1461 / 365) 3 := ⟨_, rfl⟩
  rw [← group, ← year]
  have bounds : c ≤ 3 ∧ g ≤ 24 ∧ y ≤ 3 := by omega
  have quarter : (100 * c + 4 * g + y) / 4 = 25 * c + g := by omega
  have hundredth : (100 * c + 4 * g + y) / 100 = c := by omega
  rw [quarter, hundredth]
  omega

theorem monthOfYear_spec {day : Nat} (bound : day ≤ 365) :
    (monthOfYear day).1 ≤ 11 ∧ 1 ≤ (monthOfYear day).2 ∧
      daysBefore (monthOfYear day).1 + (monthOfYear day).2 = day + 1 := by
  simp only [monthOfYear, daysBefore]
  omega

/-- The length of the `m`-th month since March. -/
def marchDays (leap : Bool) (m : Nat) : Nat :=
  if m = 11 then if leap then 29 else 28
  else if m = 1 ∨ m = 3 ∨ m = 6 ∨ m = 8 then 30
  else 31

theorem marchDays_of_day {m day : Nat} (month : m = (5 * day + 2) / 153) (bound : day ≤ 365) :
    day - daysBefore m + 1 ≤ marchDays (day = 365) m := by
  have last : m ≤ 11 := by omega
  by_cases february : m = 11
  · simp only [marchDays, february, if_true, daysBefore, decide_eq_true_eq]
    split_ifs <;> omega
  · simp only [marchDays, february, if_false]
    interval_cases m <;> simp [daysBefore] <;> omega

/-- No month is longer than the calendar says; the last one, February, has 29
days only when the year has 366. -/
theorem monthOfYear_day {day : Nat} (bound : day ≤ 365) :
    (monthOfYear day).2 ≤ marchDays (day = 365) (monthOfYear day).1 :=
  marchDays_of_day rfl bound

theorem marchYear_ofMarch (year : Int) {month : Nat} (bound : month ≤ 11) (day : Nat) :
    (Date.ofMarch year month day).marchYear = year := by
  simp only [Date.ofMarch, Date.marchYear]
  split_ifs <;> omega

theorem fromMarch_ofMarch (year : Int) {month : Nat} (bound : month ≤ 11) (day : Nat) :
    fromMarch (Date.ofMarch year month day).month = month := by
  simp only [Date.ofMarch, fromMarch]
  split_ifs <;> omega

theorem toDays_ofMarch (year : Int) {month : Nat} (bound : month ≤ 11) (day : Nat) :
    (Date.ofMarch year month day).toDays =
      365 * year + year / 4 - year / 100 + year / 400 + (daysBefore month + day - 1) - epoch := by
  rw [Date.toDays, marchYear_ofMarch year bound, fromMarch_ofMarch year bound]
  rfl

theorem toDays_ofEra (era : Int) {day : Nat} (bound : day < 146097) :
    (Date.ofEra era day).toDays = 146097 * era + day - epoch := by
  obtain ⟨year, inYear, total, -⟩ := yearOfEra_spec bound
  obtain ⟨month, pos, inMonth⟩ := monthOfYear_spec inYear
  rw [Date.ofEra, toDays_ofMarch _ month]
  obtain ⟨y, value⟩ : ∃ y : Nat, y = (yearOfEra day).1 := ⟨_, rfl⟩
  rw [← value] at year total ⊢
  have quarter : (400 * era + (y : Int)) / 4 = 100 * era + (y / 4 : Nat) := by omega
  have hundredth : (400 * era + (y : Int)) / 100 = 4 * era + (y / 100 : Nat) := by omega
  have fourHundredth : (400 * era + (y : Int)) / 400 = era := by omega
  rw [quarter, hundredth, fourHundredth]
  omega

/-- Every day number is the number of its date. -/
theorem toDays_ofDays (days : Int) : (Date.ofDays days).toDays = days := by
  rw [Date.ofDays, toDays_ofEra _ (by omega)]
  omega

theorem ofMarch_valid {year : Int} {month day : Nat} {leap : Bool} (bound : month ≤ 11) (pos : 1 ≤ day)
    (longest : day ≤ marchDays leap month) (isLeap : leap = true → isLeap (year + 1) = true) :
    (Date.ofMarch year month day).Valid := by
  have length : marchDays leap month ≤ daysIn (Date.ofMarch year month day).year
      (Date.ofMarch year month day).month := by
    cases leap with
    | true => interval_cases month <;> simp [Date.ofMarch, marchDays, daysIn, isLeap]
    | false =>
        interval_cases month <;> simp [Date.ofMarch, marchDays, daysIn]
        split_ifs <;> simp
  refine ⟨?_, ?_, pos, Nat.le_trans longest length⟩
  · simp only [Date.ofMarch]
    split_ifs <;> omega
  · simp only [Date.ofMarch]
    split_ifs <;> omega

theorem isLeap_ofEra (era : Int) {year : Nat} (fourth : (year + 1) % 4 = 0)
    (century : (year + 1) % 100 ≠ 0 ∨ year = 399) : isLeap (400 * era + year + 1) = true := by
  simp only [isLeap, decide_eq_true_eq]
  omega

theorem ofEra_valid (era : Int) {day : Nat} (bound : day < 146097) : (Date.ofEra era day).Valid := by
  obtain ⟨-, inYear, -, leap⟩ := yearOfEra_spec bound
  obtain ⟨month, pos, -⟩ := monthOfYear_spec inYear
  refine ofMarch_valid month pos (monthOfYear_day inYear) fun last => ?_
  obtain ⟨fourth, century⟩ := leap (by simpa using last)
  exact isLeap_ofEra era fourth century

/-- The date of a day number exists. -/
theorem ofDays_valid (days : Int) : (Date.ofDays days).Valid := ofEra_valid _ (by omega)

end Relay.Calendar
