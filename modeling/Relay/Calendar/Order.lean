import Relay.Calendar.DateTime
import Mathlib.Data.List.Lex

/-!
The order of instants is the order of their dates, and of their texts.
-/

namespace Relay.Calendar

/-! ### Days -/

/-- The days before a year that starts with March, counted from one. -/
def yearStart (year : Int) : Int := 365 * year + year / 4 - year / 100 + year / 400

theorem yearStart_mono {y z : Int} (le : y ≤ z) : yearStart y ≤ yearStart z := by
  unfold yearStart
  omega

/-- The day's place in its year. -/
def Date.dayOfYear (d : Date) : Int := daysBefore (fromMarch d.month) + d.day - 1

theorem toDays_eq (d : Date) : d.toDays = yearStart d.marchYear + d.dayOfYear - epoch := rfl

theorem dayOfYear_nonneg {d : Date} (valid : d.Valid) : 0 ≤ d.dayOfYear := by
  have := valid.2.2.1
  unfold Date.dayOfYear
  omega

/-- A day lies before the next year. -/
theorem dayOfYear_lt {d : Date} (valid : d.Valid) :
    yearStart d.marchYear + d.dayOfYear < yearStart (d.marchYear + 1) := by
  obtain ⟨year, month, day⟩ := d
  obtain ⟨low, high, first, last⟩ := valid
  simp only at low high first last
  by_cases february : month = 2
  · subst february
    simp only [daysIn, isLeap, if_true, decide_eq_true_eq] at last
    simp only [Date.dayOfYear, Date.marchYear, yearStart, daysBefore, fromMarch]
    split_ifs at last ⊢ <;> omega
  · interval_cases month <;> simp [daysIn] at last february <;>
      simp [Date.dayOfYear, Date.marchYear, yearStart, daysBefore, fromMarch] <;> omega

/-- A day lies before the days of every later month of its year. -/
theorem dayOfYear_lt_of_month {d e : Date} (valid : d.Valid) (valid' : e.Valid)
    (later : fromMarch d.month < fromMarch e.month) : d.dayOfYear < e.dayOfYear := by
  obtain ⟨year, month, day⟩ := d
  obtain ⟨low, high, first, last⟩ := valid
  obtain ⟨low', high', first', -⟩ := valid'
  have start : daysBefore (fromMarch month) + day ≤ daysBefore (fromMarch e.month) := by
    have next : daysBefore (fromMarch month + 1) ≤ daysBefore (fromMarch e.month) := by
      unfold daysBefore
      simp only at later
      omega
    have short : daysBefore (fromMarch month) + day ≤ daysBefore (fromMarch month + 1) := by
      simp only at low high last later
      interval_cases month <;> simp [daysIn, fromMarch, daysBefore] at last later ⊢ <;> omega
    omega
  unfold Date.dayOfYear
  simp only
  omega

/-! ### Dates and times -/

/-- The fields of a date and time, the largest first. -/
def DateTime.fields (t : DateTime) : List Int :=
  [t.date.year, t.date.month, t.date.day, t.hour, t.minute, t.second]

theorem fields_lt_iff {s t : DateTime} : s.fields < t.fields ↔
    s.date.year < t.date.year ∨ s.date.year = t.date.year ∧ (s.date.month < t.date.month ∨
      s.date.month = t.date.month ∧ (s.date.day < t.date.day ∨ s.date.day = t.date.day ∧
        (s.hour < t.hour ∨ s.hour = t.hour ∧ (s.minute < t.minute ∨ s.minute = t.minute ∧
          s.second < t.second)))) := by
  simp only [DateTime.fields, List.cons_lt_cons_iff, List.not_lt_nil, and_false, or_false,
    Nat.cast_lt, Nat.cast_inj]

theorem fields_injective {s t : DateTime} (same : s.fields = t.fields) : s = t := by
  obtain ⟨⟨year, month, day⟩, hour, minute, second⟩ := s
  obtain ⟨⟨year', month', day'⟩, hour', minute', second'⟩ := t
  simpa [DateTime.fields, and_assoc] using same

theorem date_ext {d e : Date} (year : d.year = e.year) (month : d.month = e.month)
    (day : d.day = e.day) : d = e := by
  cases d
  cases e
  cases year
  cases month
  cases day
  rfl

/-- An earlier date has an earlier day. -/
theorem toDays_lt {d e : Date} (valid : d.Valid) (valid' : e.Valid)
    (earlier : d.year < e.year ∨ d.year = e.year ∧ (d.month < e.month ∨ d.month = e.month ∧ d.day < e.day)) :
    d.toDays < e.toDays := by
  have after := dayOfYear_lt valid
  have start := dayOfYear_nonneg valid'
  have low := valid.1
  have high := valid.2.1
  have low' := valid'.1
  have high' := valid'.2.1
  rw [toDays_eq, toDays_eq]
  by_cases march : d.marchYear < e.marchYear
  · have := yearStart_mono (show d.marchYear + 1 ≤ e.marchYear by omega)
    omega
  · have same : d.marchYear = e.marchYear := by
      unfold Date.marchYear at march ⊢
      split_ifs at march ⊢ <;> omega
    have inYear : d.dayOfYear < e.dayOfYear := by
      by_cases month : d.month = e.month
      · have day : d.day < e.day := by
          unfold Date.marchYear at same
          rw [month] at same
          split_ifs at same <;> omega
        rw [Date.dayOfYear, Date.dayOfYear, month]
        omega
      · apply dayOfYear_lt_of_month valid valid'
        unfold Date.marchYear at same
        unfold fromMarch
        split_ifs at same <;> omega
    rw [same]
    omega

theorem toSeconds_lt {s t : DateTime} (valid : s.Valid) (valid' : t.Valid)
    (earlier : s.fields < t.fields) : s.toSeconds < t.toSeconds := by
  obtain ⟨date, hour, minute, second⟩ := valid
  obtain ⟨date', hour', minute', second'⟩ := valid'
  rw [fields_lt_iff] at earlier
  unfold DateTime.toSeconds
  by_cases day : s.date = t.date
  · rw [day] at earlier ⊢
    omega
  · have days : s.date.toDays < t.date.toDays := by
      apply toDays_lt date date'
      have differ : ¬ (s.date.year = t.date.year ∧ s.date.month = t.date.month ∧
          s.date.day = t.date.day) := fun ⟨year, month, day'⟩ => day (date_ext year month day')
      omega
    omega

/-- The fields are in the order of the instants. -/
theorem ofSeconds_fields_lt {a b : Int} (lt : a < b) :
    (DateTime.ofSeconds a).fields < (DateTime.ofSeconds b).fields := by
  rcases lt_trichotomy (DateTime.ofSeconds a).fields (DateTime.ofSeconds b).fields with before | same | after
  · exact before
  · have := congrArg DateTime.toSeconds (fields_injective same)
    rw [toSeconds_ofSeconds, toSeconds_ofSeconds] at this
    omega
  · have := toSeconds_lt (ofSeconds_valid b) (ofSeconds_valid a) after
    rw [toSeconds_ofSeconds, toSeconds_ofSeconds] at this
    omega

theorem yearOf_mono {a b : Int} (le : a ≤ b) : yearOf a ≤ yearOf b := by
  rcases le.eq_or_lt with rfl | lt
  · exact le_rfl
  · have before := fields_lt_iff.mp (ofSeconds_fields_lt lt)
    unfold yearOf
    omega

/-! ### Texts -/

theorem digitChar_lt : ∀ a < 10, ∀ b < 10, a < b → digitChar a < digitChar b := by
  decide

/-- Numbers of one width are in the order of their digits. -/
theorem fixed_lt {width a b : Nat} (less : a % 10 ^ width < b % 10 ^ width) (r r' : List Char) :
    fixed width a ++ r < fixed width b ++ r' := by
  induction width with
  | zero =>
      rw [pow_zero, Nat.mod_one, Nat.mod_one] at less
      omega
  | succ width ih =>
      rw [Nat.mod_pow_succ, Nat.mod_pow_succ] at less
      have small := Nat.mod_lt (a / 10 ^ width) (show 0 < 10 by decide)
      have small' := Nat.mod_lt (b / 10 ^ width) (show 0 < 10 by decide)
      have rest := Nat.mod_lt a (show 0 < 10 ^ width by positivity)
      have rest' := Nat.mod_lt b (show 0 < 10 ^ width by positivity)
      rw [fixed, fixed, List.cons_append, List.cons_append, List.cons_lt_cons_iff]
      rcases Nat.lt_trichotomy (a / 10 ^ width % 10) (b / 10 ^ width % 10) with top | top | top
      · exact .inl (digitChar_lt _ small _ small' top)
      · rw [top] at less ⊢
        exact .inr ⟨rfl, ih (by omega)⟩
      · have := Nat.mul_le_mul_left (10 ^ width) (Nat.succ_le_of_lt top)
        rw [Nat.mul_succ] at this
        omega

theorem fixed_append_lt {width a b : Nat} (fits : a < 10 ^ width) (fits' : b < 10 ^ width)
    {r r' : List Char} (less : a < b ∨ a = b ∧ r < r') : fixed width a ++ r < fixed width b ++ r' := by
  rcases less with less | ⟨rfl, less⟩
  · apply fixed_lt
    rwa [Nat.mod_eq_of_lt fits, Nat.mod_eq_of_lt fits']
  · exact List.append_left_lt less

/-- The texts of the four-digit years are in the order of their fields. -/
theorem text_lt {s t : DateTime} (valid : s.Valid) (valid' : t.Valid)
    (inside : 0 ≤ s.date.year ∧ s.date.year ≤ 9999) (inside' : 0 ≤ t.date.year ∧ t.date.year ≤ 9999)
    {r r' : List Char} (less : s.fields < t.fields ∨ s.fields = t.fields ∧ r < r') :
    s.text ++ r < t.text ++ r' := by
  have day : ∀ {d : Date}, d.Valid → d.month < 10 ^ 2 ∧ d.day < 10 ^ 2 := by
    intro d valid
    have most : daysIn d.year d.month ≤ 31 := by
      unfold daysIn
      split_ifs <;> omega
    obtain ⟨_, month, _, day⟩ := valid
    omega
  obtain ⟨monthFits, dayFits⟩ := day valid.1
  obtain ⟨monthFits', dayFits'⟩ := day valid'.1
  obtain ⟨-, hour, minute, second⟩ := valid
  obtain ⟨-, hour', minute', second'⟩ := valid'
  have less' : s.date.year.toNat < t.date.year.toNat ∨ s.date.year.toNat = t.date.year.toNat ∧
      (s.date.month < t.date.month ∨ s.date.month = t.date.month ∧ (s.date.day < t.date.day ∨
        s.date.day = t.date.day ∧ (s.hour < t.hour ∨ s.hour = t.hour ∧ (s.minute < t.minute ∨
          s.minute = t.minute ∧ (s.second < t.second ∨ s.second = t.second ∧ r < r'))))) := by
    rcases less with less | ⟨same, less⟩
    · rw [fields_lt_iff] at less
      omega
    · obtain rfl := fields_injective same
      simp [less]
  simp only [DateTime.text, yearText_of_lt inside.1 inside.2, yearText_of_lt inside'.1 inside'.2,
    List.append_assoc, List.cons_append]
  have step : ∀ {width a b : Nat} {c : Char} {l l' : List Char}, a < 10 ^ width → b < 10 ^ width →
      (a < b ∨ a = b ∧ l < l') → fixed width a ++ (c :: l) < fixed width b ++ (c :: l') := by
    intro width a b c l l' fits fits' less
    exact fixed_append_lt fits fits' (less.imp_right fun ⟨same, less⟩ =>
      ⟨same, List.cons_lt_cons_iff.mpr (.inr ⟨rfl, less⟩)⟩)
  apply step (by omega) (by omega)
  refine less'.imp_right fun ⟨same, less'⟩ => ⟨same, ?_⟩
  apply step monthFits monthFits'
  refine less'.imp_right fun ⟨same, less'⟩ => ⟨same, ?_⟩
  apply step dayFits dayFits'
  refine less'.imp_right fun ⟨same, less'⟩ => ⟨same, ?_⟩
  apply step (by omega) (by omega)
  refine less'.imp_right fun ⟨same, less'⟩ => ⟨same, ?_⟩
  apply step (by omega) (by omega)
  refine less'.imp_right fun ⟨same, less'⟩ => ⟨same, ?_⟩
  exact fixed_append_lt (by omega) (by omega) less'
end Relay.Calendar
