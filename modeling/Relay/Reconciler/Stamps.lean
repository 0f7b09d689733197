import Relay.Reconciler.Events
import Relay.Salesforce.Stamp

/-!
What Python reads of a stamp: the instant Go reads, if a `datetime` can hold it.
-/

namespace Relay.Reconciler

open Relay.Json Relay.Python Relay.Calendar Relay.Salesforce Relay.Numeric

/-! ### The text that `fromisoformat` is given -/

theorem mem_fixed_ne {width n : Nat} {c d : Char} (mem : c ∈ fixed width n)
    (other : d.isDigit = false) : c ≠ d := by
  rintro rfl
  rw [isDigit_fixed c mem] at other
  cases other

/-- A date and time of a four-digit year holds no `Z`. -/
theorem mem_text_ne {t : DateTime} (inside : FourDigits t) {c : Char} (mem : c ∈ t.text) : c ≠ 'Z' := by
  rw [DateTime.text, yearText_of_lt inside.1 inside.2] at mem
  simp only [List.mem_append, List.mem_cons] at mem
  rcases mem with mem | rfl | mem | rfl | mem | rfl | mem | rfl | mem | rfl | mem
  all_goals first | exact mem_fixed_ne mem rfl | decide

theorem replaceZ_append (front back : List Char) :
    replaceZ (front ++ back) = replaceZ front ++ replaceZ back := List.flatMap_append ..

theorem replaceZ_of_not_mem {text : List Char} (free : ∀ c ∈ text, c ≠ 'Z') : replaceZ text = text := by
  induction text with
  | nil => rfl
  | cons c rest ih =>
      have tail := ih fun d mem => free d (List.mem_cons_of_mem _ mem)
      simp only [replaceZ] at tail ⊢
      rw [List.flatMap_cons, if_neg (free c List.mem_cons_self), tail]
      rfl

/-- UTC as an offset. -/
def utcOffset : Offset := ⟨false, 0, 0, by decide, by decide⟩

/-- The offset of a zone. -/
def offset : Zone → Offset
  | .utc => utcOffset
  | .plain o => o
  | .colon o => o

theorem offset_seconds (z : Zone) : (offset z).seconds = z.seconds := by
  cases z <;> rfl

theorem sign_ne (o : Offset) : o.sign ≠ 'Z' := by
  unfold Offset.sign
  split <;> decide

/-- Every zone becomes an offset with a colon. -/
theorem colonOffset_zone (z : Zone) (front : List Char) :
    colonOffset (front ++ replaceZ z.text) =
      front ++ ((offset z).sign :: (fixed 2 (offset z).hours ++ (':' :: fixed 2 (offset z).minutes))) := by
  have keep : ∀ o : Offset, replaceZ (o.sign :: (fixed 2 o.hours ++ (':' :: fixed 2 o.minutes))) =
      o.sign :: (fixed 2 o.hours ++ (':' :: fixed 2 o.minutes)) := by
    intro o
    refine replaceZ_of_not_mem fun c mem => ?_
    simp only [List.mem_cons, List.mem_append] at mem
    rcases mem with rfl | mem | rfl | mem
    · exact sign_ne o
    · exact mem_fixed_ne mem rfl
    · decide
    · exact mem_fixed_ne mem rfl
  have colon : ∀ o : Offset,
      colonOffset (front ++ (o.sign :: (fixed 2 o.hours ++ (':' :: fixed 2 o.minutes)))) =
        front ++ (o.sign :: (fixed 2 o.hours ++ (':' :: fixed 2 o.minutes))) := by
    intro o
    simp [colonOffset, fixed]
  cases z with
  | utc =>
      have zulu : replaceZ (Zone.utc).text =
          utcOffset.sign :: (fixed 2 utcOffset.hours ++ (':' :: fixed 2 utcOffset.minutes)) := rfl
      rw [zulu]
      exact colon utcOffset
  | colon o => rw [Zone.text, keep o, offset, colon o]
  | plain o =>
      have plain : replaceZ (o.sign :: (fixed 2 o.hours ++ fixed 2 o.minutes)) =
          o.sign :: (fixed 2 o.hours ++ fixed 2 o.minutes) := by
        refine replaceZ_of_not_mem fun c mem => ?_
        simp only [List.mem_cons, List.mem_append] at mem
        rcases mem with rfl | mem | mem
        · exact sign_ne o
        · exact mem_fixed_ne mem rfl
        · exact mem_fixed_ne mem rfl
      have signs : o.sign = '+' ∨ o.sign = '-' := by
        unfold Offset.sign
        split
        · exact .inr rfl
        · exact .inl rfl
      have digit : digitChar (o.hours % 10) ≠ ':' := by
        rintro same
        have isDigit := (digitChar_spec (o.hours % 10) (by omega)).1
        rw [same] at isDigit
        cases isDigit
      rw [Zone.text, plain, offset]
      simp [colonOffset, fixed, signs, digit]

/-! ### Reading it -/

theorem readDigits_two {n : Nat} (fits : n < 100) (rest : List Char) :
    readDigits 2 0 (fixed 2 n ++ rest) = some (n, rest) := readDigits_fixed_of_lt fits rest

theorem isoFields_text {t : DateTime} (valid : t.Valid) (inside : FourDigits t) (rest : List Char) :
    isoFields (t.text ++ rest) = some (t, rest) := by
  obtain ⟨⟨_, month, _, day⟩, hour, minute, second⟩ := valid
  have dayFits : t.date.day < 100 := by
    have most : daysIn t.date.year t.date.month ≤ 31 := by
      unfold daysIn
      split_ifs <;> omega
    omega
  have fits : t.date.year.toNat < 10 ^ 4 := by have := inside.1; have := inside.2; omega
  have same : (t.date.year.toNat : Int) = t.date.year := by have := inside.1; omega
  simp only [DateTime.text, yearText_of_lt inside.1 inside.2, List.append_assoc, List.cons_append]
  simp only [isoFields, readDigits_fixed_of_lt fits, Option.bind_eq_bind, Option.bind_some, skip_cons,
    readDigits_two (show t.date.month < 100 by omega), readDigits_two dayFits, List.drop_succ_cons,
    List.drop_zero, readDigits_two (show t.hour < 100 by omega),
    readDigits_two (show t.minute < 100 by omega), readDigits_two (show t.second < 100 by omega), same,
    pure]

/-- Three digits are the thousands of the six that are kept. -/
theorem isoFraction_fixed {ms : Nat} (fits : ms < 1000) {c : Char} (noDigit : c.isDigit = false)
    (rest : List Char) :
    isoFraction ('.' :: (fixed 3 ms ++ (c :: rest))) = some (1000 * ms, c :: rest) := by
  have digits := @isDigit_fixed 3 ms
  have taken : (fixed 3 ms ++ (c :: rest)).takeWhile Char.isDigit = fixed 3 ms := by
    rw [List.takeWhile_append_of_pos digits, List.takeWhile_cons_of_neg (by simp [noDigit]),
      List.append_nil]
  have left : (fixed 3 ms ++ (c :: rest)).dropWhile Char.isDigit = c :: rest := by
    rw [List.dropWhile_append_of_pos digits, List.dropWhile_cons_of_neg (by simp [noDigit])]
  have some : fixed 3 ms ≠ [] := fun none => by cases length_fixed 3 ms ▸ congrArg List.length none
  have six : (fixed 3 ms ++ ['0', '0', '0', '0', '0']).take 6 = fixed 3 ms ++ ['0', '0', '0'] := by
    rw [List.take_append, length_fixed, List.take_of_length_le (by rw [length_fixed]; decide)]
    rfl
  have value : Nat.ofDigitChars 10 (fixed 3 ms ++ ['0', '0', '0']) 0 = 1000 * ms := by
    rw [Nat.ofDigitChars_append, ofDigitChars_fixed]
    simp only [Nat.ofDigitChars_cons, Nat.ofDigitChars_nil, Char.reduceToNat]
    omega
  simp only [isoFraction, true_or, if_true, taken, left, if_neg some, six, value]

theorem isoOffset_offset (o : Offset) :
    isoOffset (o.sign :: (fixed 2 o.hours ++ (':' :: fixed 2 o.minutes))) = some o.seconds := by
  obtain ⟨west, hh, mm, hours, minutes⟩ := o
  have read := readDigits_two (show mm < 100 by omega) []
  rw [List.append_nil] at read
  have small : ¬ 86400 ≤ (hh * 60 + mm) * 60 := by omega
  simp only [isoOffset, readDigits_two (show hh < 100 by omega), Option.bind_eq_bind,
    Option.bind_some, skip_cons, read, ne_eq, not_true_eq_false, false_or, if_neg small,
    Offset.sign, Offset.seconds]
  cases west <;> rfl

/-- Python reads the stamps whose instant a `datetime` can hold, to the millisecond. -/
theorem parseModstamp_textAt (s : Stamp) {ms : Nat} (fits : ms < 1000) :
    parseModstamp (s.textAt ms) =
      if InRange (1000000 * s.seconds + 1000 * ms) then .ok (1000000 * s.seconds + 1000 * ms)
      else .error (.other "OverflowError" "date value out of range") := by
  have inside : FourDigits s.time := ⟨by have := s.year.1; omega, s.year.2⟩
  have free : ∀ c ∈ s.time.text ++ ('.' :: fixed 3 ms), c ≠ 'Z' := by
    intro c mem
    rcases List.mem_append.mp mem with mem | mem
    · exact mem_text_ne inside mem
    · rcases List.mem_cons.mp mem with rfl | mem
      · decide
      · exact mem_fixed_ne mem rfl
  have given : colonOffset (replaceZ (s.textAt ms).toList) =
      s.time.text ++ ('.' :: (fixed 3 ms ++ ((offset s.zone).sign ::
        (fixed 2 (offset s.zone).hours ++ (':' :: fixed 2 (offset s.zone).minutes))))) := by
    have shape : (s.textAt ms).toList = (s.time.text ++ ('.' :: fixed 3 ms)) ++ s.zone.text := by
      simp [Stamp.textAt]
    rw [shape, replaceZ_append, replaceZ_of_not_mem free, colonOffset_zone]
    simp
  have instant : isoInstant (colonOffset (replaceZ (s.textAt ms).toList)) =
      some (1000000 * s.seconds + 1000 * ms) := by
    rw [given]
    simp [isoInstant, isoFields_text s.valid inside,
      isoFraction_fixed fits (offset s.zone).sign_noDigit, isoOffset_offset, offset_seconds, s.valid,
      s.year.1, Stamp.seconds]
  rw [parseModstamp, fromisoformat, instant]

theorem parseModstamp_text (s : Stamp) :
    parseModstamp s.text =
      if InRange (1000000 * s.seconds) then .ok (1000000 * s.seconds)
      else .error (.other "OverflowError" "date value out of range") := by
  have read := parseModstamp_textAt s (show 0 < 1000 by decide)
  rwa [Int.natCast_zero, Int.mul_zero, Int.add_zero] at read

/-! ### What the event says of it -/

/-- Four-digit years span less than `2 ^ 53` milliseconds. -/
theorem bound_of_year {seconds : Int} (low : 0 ≤ yearOf seconds) (high : yearOf seconds ≤ 9999) :
    -(10 ^ 12) < seconds ∧ seconds < 10 ^ 12 := by
  have days := toDays_ofDays (seconds / 86400)
  obtain ⟨-, month, -, day⟩ := ofDays_valid (seconds / 86400)
  have most : daysIn (Date.ofDays (seconds / 86400)).year (Date.ofDays (seconds / 86400)).month ≤ 31 := by
    unfold daysIn
    split_ifs <;> omega
  simp only [yearOf, DateTime.ofSeconds] at low high
  unfold Date.toDays Date.marchYear daysBefore fromMarch epoch at days
  split_ifs at days <;> omega

theorem seconds_bound {us : Int} (inRange : InRange us) :
    -(10 ^ 12) < us / 1000000 ∧ us / 1000000 < 10 ^ 12 :=
  bound_of_year (by have := inRange.1; omega) inRange.2

theorem roundSigned_intCast {n : Int} (low : -(2 ^ 53) ≤ n) (high : n ≤ 2 ^ 53) :
    roundSigned (n : ℚ) = n := by
  unfold roundSigned
  by_cases negative : n < 0
  · have negative' : (n : ℚ) < 0 := by exact_mod_cast negative
    have same : -(n : ℚ) = ((-n).toNat : ℚ) := by
      have : ((-n).toNat : Int) = -n := Int.toNat_of_nonneg (by omega)
      exact_mod_cast this.symm
    rw [if_pos negative', same, round64_natCast (by omega), ← same, neg_neg]
  · have negative' : ¬ (n : ℚ) < 0 := by exact_mod_cast negative
    have same : (n : ℚ) = (n.toNat : ℚ) := by
      have : (n.toNat : Int) = n := Int.toNat_of_nonneg (by omega)
      exact_mod_cast this.symm
    rw [if_neg negative', same, round64_natCast (by omega)]

theorem truncate_intCast (n : Int) : truncate (n : ℚ) = n := by
  unfold truncate
  split
  · rw [← Int.cast_neg, Int.floor_intCast, neg_neg]
  · exact Int.floor_intCast n

/-- The version of a whole second is its milliseconds. -/
theorem version_seconds {seconds : Int} (inRange : InRange (1000000 * seconds)) :
    version (1000000 * seconds) = 1000 * seconds := by
  have bound := seconds_bound inRange
  have whole : 1000000 * seconds / 1000000 = seconds := by omega
  rw [whole] at bound
  have exact_ : timestamp (1000000 * seconds) = (seconds : ℚ) := by
    have cancel : ((1000000 * seconds : Int) : ℚ) / 1000000 = seconds := by
      push_cast
      field_simp
    rw [timestamp, cancel, roundSigned_intCast (by omega) (by omega)]
  have product : (seconds : ℚ) * 1000 = ((1000 * seconds : Int) : ℚ) := by
    push_cast
    ring
  rw [version, exact_, product, roundSigned_intCast (by omega) (by omega), truncate_intCast]

/-- Both sides normalise a millisecond to one text. -/
theorem normalised_millis (k : Int) :
    normalised (1000 * k) = String.ofList (formatMillis (1000000 * k)) := by
  have micros : 1000 * k / 1000000 = k / 1000 := by omega
  have nanos : 1000000 * k / nanosPerSecond = k / 1000 := by
    rw [nanosPerSecond]
    omega
  have fraction : microsecond (1000 * k) / 1000 = (1000000 * k % nanosPerSecond / 1000000).toNat := by
    rw [microsecond, nanosPerSecond]
    omega
  rw [normalised, formatMillis, strftime, micros, nanos, fraction]

theorem normalised_seconds (seconds : Int) :
    normalised (1000000 * seconds) = String.ofList (formatMillis (nanosPerSecond * seconds)) := by
  have micros : 1000000 * seconds = 1000 * (1000 * seconds) := by omega
  have nanos : 1000000 * (1000 * seconds) = nanosPerSecond * seconds := by
    rw [nanosPerSecond]
    omega
  rw [micros, normalised_millis, nanos]

end Relay.Reconciler
