import Relay.Calendar.DateTime

/-!
Salesforce datetimes on the Go side.

A Go time is a number of nanoseconds since 1970-01-01T00:00:00Z. `parse` follows
`time.Parse` for the two layouts that `ParseDateTime` tries: it reads the same
fields for both and then a fraction and an offset that depend on the layout.

`parseDateTime_literal` says what a stored watermark means to the next run: the
instant rounded down to its second. A time that a literal cannot hold does not
parse at all.
-/

namespace Relay.Salesforce

open Relay.Calendar

def nanosPerSecond : Int := 1000000000

/-- The fields of `time.Parse` that both layouts start with. -/
structure Fields where
  time : DateTime
  rest : List Char

/-- `getnum`: one or two digits, or exactly two. -/
def getnum (fixed : Bool) : List Char → Option (Nat × List Char)
  | c :: d :: rest =>
      if !c.isDigit then none
      else if d.isDigit then some (10 * digitVal c + digitVal d, rest)
      else if fixed then none
      else some (digitVal c, d :: rest)
  | [c] => if c.isDigit && !fixed then some (digitVal c, []) else none
  | [] => none

/-- `2006-01-02T15:04:05`. -/
def fields (value : List Char) : Option Fields := do
  let (year, value) ← readDigits 4 0 value
  let value ← skip '-' value
  let (month, value) ← getnum true value
  let value ← skip '-' value
  let (day, value) ← getnum true value
  let value ← skip 'T' value
  let (hour, value) ← getnum false value
  let value ← skip ':' value
  let (minute, value) ← getnum true value
  let value ← skip ':' value
  let (second, value) ← getnum true value
  return ⟨⟨⟨year, month, day⟩, hour, minute, second⟩, value⟩

/-- `atoi`. -/
def atoi (s : List Char) : Option Int :=
  let (neg, digits) := match s with
    | '-' :: digits => (true, digits)
    | '+' :: digits => (false, digits)
    | digits => (false, digits)
  if digits.all Char.isDigit then
    some (if neg then -(Nat.ofDigitChars 10 digits 0 : Int) else Nat.ofDigitChars 10 digits 0)
  else none

def commaOrPeriod (c : Char) : Bool := c = '.' || c = ','

/-- `parseNanoseconds`, of the characters after the separator. -/
def parseNanoseconds (digits : List Char) : Option Int := do
  let ns ← atoi (digits.take 9)
  if ns < 0 then none else some (ns * 10 ^ (9 - (digits.take 9).length))

inductive Layout where
  /-- `2006-01-02T15:04:05.000-0700` -/
  | wire
  /-- `2006-01-02T15:04:05.999999999Z07:00` -/
  | rfc3339Nano

/-- The fraction of a second: exactly three characters after the separator, or
any digits there are. -/
def fraction : Layout → List Char → Option (Int × List Char)
  | .wire, c :: value =>
      if commaOrPeriod c && 3 ≤ value.length then
        (parseNanoseconds (value.take 3)).map fun ns => (ns, value.drop 3)
      else none
  | .wire, [] => none
  | .rfc3339Nano, c :: d :: value =>
      if commaOrPeriod c && d.isDigit then
        (parseNanoseconds ((d :: value).takeWhile Char.isDigit)).map fun ns =>
          (ns, (d :: value).dropWhile Char.isDigit)
      else some (0, c :: d :: value)
  | .rfc3339Nano, value => some (0, value)

/-- An offset in seconds; 24 hours and 60 minutes are still taken. -/
def offsetOf (sign : Char) (hour minute : List Char) : Option Int := do
  let (hr, _) ← getnum true hour
  let (mm, _) ← getnum true minute
  if 24 < hr ∨ 60 < mm then none
  else if sign = '+' then some ((hr * 60 + mm) * 60 : Nat)
  else if sign = '-' then some (-((hr * 60 + mm) * 60 : Nat))
  else none

/-- The offset that ends a text. -/
def zone : Layout → List Char → Option Int
  | .wire, [sign, h, h', m, m'] => offsetOf sign [h, h'] [m, m']
  | .wire, _ => none
  | .rfc3339Nano, ['Z'] => some 0
  | .rfc3339Nano, [sign, h, h', ':', m, m'] => offsetOf sign [h, h'] [m, m']
  | .rfc3339Nano, _ => none

/-- `time.Parse`. -/
def parse (layout : Layout) (value : List Char) : Option Int := do
  let read ← fields value
  let (nsec, rest) ← fraction layout read.rest
  let offset ← zone layout rest
  if read.time.Valid then some (nanosPerSecond * (read.time.toSeconds - offset) + nsec) else none

/-- Parse a datetime as the REST API returns it, or one that Relay wrote. -/
def parseDateTime (s : String) : Option Int :=
  (parse .wire s.toList).or (parse .rfc3339Nano s.toList)

/-- The time as a SOQL datetime literal: whole seconds, UTC `Z`. -/
def literal (t : Int) : String :=
  String.ofList ((DateTime.ofSeconds (t / nanosPerSecond)).text ++ ['Z'])

/-- `t.Truncate(time.Second)`. -/
def truncateSecond (t : Int) : Int := nanosPerSecond * (t / nanosPerSecond)

/-- `t.UnixMilli()`. -/
def unixMilli (t : Int) : Int := t / 1000000

/-- `t.Format("2006-01-02T15:04:05.000Z")`. -/
def formatMillis (t : Int) : List Char :=
  (DateTime.ofSeconds (t / nanosPerSecond)).text ++
    ('.' :: (fixed 3 (t % nanosPerSecond / 1000000).toNat ++ ['Z']))

/-- `t.Format(time.RFC3339)` of a UTC time. -/
def formatRFC3339 (t : Int) : List Char := (DateTime.ofSeconds (t / nanosPerSecond)).text ++ ['Z']

/-! ### Reading what was written -/

theorem getnum_fixed {fixed_ : Bool} {n : Nat} (fits : n < 100) (rest : List Char) :
    getnum fixed_ (fixed 2 n ++ rest) = some (n, rest) := by
  obtain ⟨tens, ones⟩ : n / 10 < 10 ∧ n % 10 < 10 := by omega
  obtain ⟨digit, value⟩ := digitChar_spec _ tens
  obtain ⟨digit', value'⟩ := digitChar_spec _ ones
  have shape : fixed 2 n = [digitChar (n / 10), digitChar (n % 10)] := by
    simp only [fixed, pow_one, pow_zero, Nat.div_one, Nat.mod_eq_of_lt tens]
  simp only [shape, List.cons_append, List.nil_append, getnum, digit, digit', value, value',
    Bool.not_true, Bool.false_eq_true, if_false, if_true, Nat.div_add_mod]

/-- What is left after `width` digits. -/
theorem readDigits_rest {width acc n : Nat} {cs rest : List Char}
    (read : readDigits width acc cs = some (n, rest)) : rest = cs.drop width := by
  induction width generalizing acc cs with
  | zero =>
      cases read
      rfl
  | succ width ih =>
      cases cs with
      | nil => cases read
      | cons c cs =>
          simp only [readDigits] at read
          split at read
          · exact ih read
          · cases read

/-- Four digits and a dash are no year of another width. -/
theorem fields_yearText {year : Int} (outside : ¬ (0 ≤ year ∧ year ≤ 9999)) (rest : List Char) :
    fields (yearText year ++ rest) = none := by
  suffices noYear : ∀ n cs, readDigits 4 0 (yearText year ++ rest) = some (n, cs) →
      skip '-' cs = none by
    simp only [fields]
    cases read : readDigits 4 0 (yearText year ++ rest) with
    | none => rfl
    | some pair =>
        obtain ⟨n, cs⟩ := pair
        simp [noYear n cs read]
  intro n cs read
  by_cases negative : year < 0
  · rw [yearText, if_pos negative] at read
    simp [readDigits, Char.isDigit] at read
  · have long : ¬ year.natAbs < 10 ^ 4 := by omega
    have tooLong : ¬ (Nat.toDigits 10 year.natAbs).length ≤ 4 := fun short =>
      long ((Nat.length_toDigits_le_iff (by decide) (by decide)).mp short)
    rw [yearText, if_neg negative, padded, if_neg long] at read
    rw [readDigits_rest read, List.drop_append_of_le_length (by omega)]
    cases tail : (Nat.toDigits 10 year.natAbs).drop 4 with
    | nil => exact absurd (List.drop_eq_nil_iff.mp tail) tooLong
    | cons c cs =>
        have mem : c ∈ Nat.toDigits 10 year.natAbs :=
          List.mem_of_mem_drop (tail ▸ List.mem_cons_self)
        have digit := Nat.isDigit_of_mem_toDigits (by decide) (by decide) mem
        have other : c ≠ '-' := by
          rintro rfl
          cases digit
        simp [skip, other]

/-- The fields of a date and time read back, if its year has four digits. -/
theorem fields_text {t : DateTime} (valid : t.Valid) (rest : List Char) :
    fields (t.text ++ rest) =
      if 0 ≤ t.date.year ∧ t.date.year ≤ 9999 then some ⟨t, rest⟩ else none := by
  obtain ⟨⟨_, month, _, day⟩, hour, minute, second⟩ := valid
  have dayFits : t.date.day < 100 := by
    have most : daysIn t.date.year t.date.month ≤ 31 := by
      unfold daysIn
      split_ifs <;> omega
    omega
  split
  · rename_i inside
    have fits : t.date.year.toNat < 10 ^ 4 := by omega
    have same : (t.date.year.toNat : Int) = t.date.year := by omega
    simp only [DateTime.text, yearText_of_lt inside.1 inside.2, List.append_assoc, List.cons_append]
    simp only [fields, readDigits_fixed_of_lt fits, Option.bind_eq_bind, Option.bind_some, skip_cons,
      getnum_fixed (show t.date.month < 100 by omega), getnum_fixed dayFits,
      getnum_fixed (show t.hour < 100 by omega), getnum_fixed (show t.minute < 100 by omega),
      getnum_fixed (show t.second < 100 by omega), same, pure]
  · rename_i outside
    rw [DateTime.text, List.append_assoc]
    exact fields_yearText outside _

/-- The years that a text of four digits holds. -/
def FourDigits (t : DateTime) : Prop := 0 ≤ t.date.year ∧ t.date.year ≤ 9999

instance (t : DateTime) : Decidable (FourDigits t) := by
  unfold FourDigits
  infer_instance

theorem parse_text {t : DateTime} (valid : t.Valid) (layout : Layout) (rest : List Char) :
    parse layout (t.text ++ rest) =
      if FourDigits t then
        (fraction layout rest).bind fun read =>
          (zone layout read.2).map fun offset => nanosPerSecond * (t.toSeconds - offset) + read.1
      else none := by
  simp only [parse, fields_text valid]
  by_cases inside : FourDigits t
  · have inside' : 0 ≤ t.date.year ∧ t.date.year ≤ 9999 := inside
    simp only [if_pos inside, if_pos inside', Option.bind_eq_bind, Option.bind_some]
    cases fraction layout rest with
    | none => rfl
    | some read =>
        simp only [Option.bind_some, if_pos valid]
        cases zone layout read.2 with
        | none => rfl
        | some offset => rfl
  · have outside : ¬ (0 ≤ t.date.year ∧ t.date.year ≤ 9999) := inside
    simp only [if_neg inside, if_neg outside]
    rfl

theorem atoi_fixed {width n : Nat} (fits : n < 10 ^ width) : atoi (fixed width n) = some (n : Int) := by
  have digits := @isDigit_fixed width n
  have value := ofDigitChars_fixed width n 0
  rw [Nat.mul_zero, Nat.zero_add, Nat.mod_eq_of_lt fits] at value
  unfold atoi
  cases shape : fixed width n with
  | nil =>
      rw [shape] at value
      simp [← value]
  | cons c cs =>
      rw [shape] at digits value
      have first := digits c List.mem_cons_self
      have all : (c :: cs).all Char.isDigit = true := List.all_eq_true.mpr digits
      have notMinus : c ≠ '-' := by
        rintro rfl
        cases first
      have notPlus : c ≠ '+' := by
        rintro rfl
        cases first
      split
      rename_i neg digits' same
      split at same
      · rename_i eq
        exact absurd (List.cons.inj eq).1 notMinus
      · rename_i eq
        exact absurd (List.cons.inj eq).1 notPlus
      · cases same
        rw [if_pos all, value]
        rfl

theorem parseNanoseconds_fixed {width n : Nat} (short : width ≤ 9) (fits : n < 10 ^ width) :
    parseNanoseconds (fixed width n) = some (n * 10 ^ (9 - width)) := by
  have whole : (fixed width n).take 9 = fixed width n :=
    List.take_of_length_le (by rw [length_fixed]; exact short)
  have sign : ¬ (n : Int) < 0 := by omega
  simp [parseNanoseconds, whole, atoi_fixed fits, sign]

theorem fraction_wire {ms : Nat} (fits : ms < 1000) (rest : List Char) :
    fraction .wire ('.' :: (fixed 3 ms ++ rest)) = some ((ms * 1000000 : Int), rest) := by
  have three := length_fixed 3 ms
  have whole : (fixed 3 ms ++ rest).take 3 = fixed 3 ms := by
    rw [List.take_append_of_le_length three.ge, List.take_of_length_le three.le]
  have left : (fixed 3 ms ++ rest).drop 3 = rest := by
    rw [List.drop_append_of_le_length three.ge, List.drop_of_length_le three.le, List.nil_append]
  have long : 3 ≤ (fixed 3 ms ++ rest).length := by
    rw [List.length_append, three]
    omega
  have read : parseNanoseconds (fixed 3 ms) = some ((ms * 1000000 : Int)) :=
    parseNanoseconds_fixed (by decide) fits
  simp [fraction, commaOrPeriod, whole, left, read]

theorem offsetOf_fixed {sign : Char} {hh mm : Nat} (hours : hh < 24) (minutes : mm < 60) :
    offsetOf sign (fixed 2 hh) (fixed 2 mm) =
      if sign = '+' then some (((hh * 60 + mm) * 60 : Nat) : Int)
      else if sign = '-' then some (-(((hh * 60 + mm) * 60 : Nat) : Int)) else none := by
  have hour := @getnum_fixed true hh (by omega) []
  have minute := @getnum_fixed true mm (by omega) []
  rw [List.append_nil] at hour minute
  have small : ¬ (24 < hh ∨ 60 < mm) := by omega
  simp only [offsetOf, hour, minute, Option.bind_eq_bind, Option.bind_some, if_neg small]

theorem zone_wire (sign : Char) (hh mm : Nat) :
    zone .wire (sign :: (fixed 2 hh ++ fixed 2 mm)) = offsetOf sign (fixed 2 hh) (fixed 2 mm) := rfl

theorem zone_rfc3339Nano (sign : Char) (hh mm : Nat) :
    zone .rfc3339Nano (sign :: (fixed 2 hh ++ (':' :: fixed 2 mm))) =
      offsetOf sign (fixed 2 hh) (fixed 2 mm) := by
  simp [zone, fixed]

theorem fraction_rfc3339Nano {ms : Nat} (fits : ms < 1000) {c : Char} (noDigit : c.isDigit = false)
    (rest : List Char) :
    fraction .rfc3339Nano ('.' :: (fixed 3 ms ++ (c :: rest))) = some ((ms * 1000000 : Int), c :: rest) := by
  have digits := @isDigit_fixed 3 ms
  have taken : (fixed 3 ms ++ (c :: rest)).takeWhile Char.isDigit = fixed 3 ms := by
    rw [List.takeWhile_append_of_pos digits, List.takeWhile_cons_of_neg (by simp [noDigit]),
      List.append_nil]
  have left : (fixed 3 ms ++ (c :: rest)).dropWhile Char.isDigit = c :: rest := by
    rw [List.dropWhile_append_of_pos digits, List.dropWhile_cons_of_neg (by simp [noDigit])]
  have read : parseNanoseconds (fixed 3 ms) = some ((ms * 1000000 : Int)) :=
    parseNanoseconds_fixed (by decide) fits
  cases shape : fixed 3 ms with
  | nil => cases length_fixed 3 ms ▸ congrArg List.length shape
  | cons d ds =>
      rw [shape] at digits taken left read
      have first := digits d List.mem_cons_self
      rw [List.cons_append] at taken left ⊢
      rw [fraction, taken, left, read, first]
      rfl

/-- A normalised stamp reads back to the millisecond, or not at all. -/
theorem parseDateTime_formatMillis (t : Int) :
    parseDateTime (String.ofList (formatMillis t)) =
      if FourDigits (.ofSeconds (t / nanosPerSecond)) then some (1000000 * (t / 1000000)) else none := by
  have valid := ofSeconds_valid (t / nanosPerSecond)
  have fits : (t % nanosPerSecond / 1000000).toNat < 1000 := by
    rw [nanosPerSecond]
    omega
  rw [parseDateTime, formatMillis, String.toList_ofList, parse_text valid, parse_text valid,
    fraction_wire fits, fraction_rfc3339Nano fits rfl]
  by_cases inside : FourDigits (.ofSeconds (t / nanosPerSecond))
  · have value : nanosPerSecond * (t / nanosPerSecond - 0) +
        ((t % nanosPerSecond / 1000000).toNat * 1000000 : Int) = 1000000 * (t / 1000000) := by
      rw [nanosPerSecond]
      omega
    have wire : zone .wire ['Z'] = none := rfl
    have utc : zone .rfc3339Nano ['Z'] = some 0 := rfl
    rw [if_pos inside, if_pos inside, if_pos inside, Option.bind_some, Option.bind_some, wire, utc,
      toSeconds_ofSeconds, Option.map_none, Option.none_or, Option.map_some, value]
  · rw [if_neg inside, if_neg inside, if_neg inside, Option.none_or]

theorem length_text {t : DateTime} (inside : FourDigits t) : t.text.length = 19 := by
  simp [DateTime.text, yearText_of_lt inside.1 inside.2]

/-- A watermark reads back as the second it was written in, or not at all. -/
theorem parseDateTime_literal (t : Int) :
    parseDateTime (literal t) =
      if FourDigits (.ofSeconds (t / nanosPerSecond)) then some (truncateSecond t) else none := by
  have valid := ofSeconds_valid (t / nanosPerSecond)
  have wire : fraction .wire ['Z'] = none := by simp [fraction, commaOrPeriod]
  rw [parseDateTime, literal, String.toList_ofList, parse_text valid, parse_text valid, wire]
  by_cases inside : FourDigits (.ofSeconds (t / nanosPerSecond))
  · simp only [if_pos inside, Option.bind_none, Option.none_or, fraction, Option.bind_some, zone,
      Option.map_some, toSeconds_ofSeconds]
    simp [truncateSecond]
  · simp only [if_neg inside, Option.none_or]

end Relay.Salesforce
