import Relay.FakeSalesforce.Print

/-!
What the parser reads of a printed literal.

A value comes back as it was, except that every backslash of a string comes back
twice: only an escaped quote is undone (`reread`).
-/

namespace Relay.FakeSalesforce

open Relay.Python Relay.Calendar Relay.Reconciler Relay.Salesforce

/-! ### Strings -/

def twice (c : Char) : List Char := if c = '\\' then ['\\', '\\'] else [c]

/-- A text with its backslashes written twice. -/
def doubled (text : String) : String := String.ofList (text.toList.flatMap twice)

/-- A character that begins no escaped quote stays. -/
theorem unquote_cons (c : Char) (rest : List Char) (plain : c = '\\' → ∀ more, rest ≠ '\'' :: more) :
    unquote (c :: rest) = c :: unquote rest := by
  rw [unquote]
  rintro more rfl rfl
  exact plain rfl more rfl

theorem escaped_ne_quote (text more : List Char) : text.flatMap escape ≠ '\'' :: more := by
  intro same
  cases text with
  | nil => cases same
  | cons c rest =>
      rw [List.flatMap_cons, escape] at same
      split at same
      · cases same
      · rename_i plain
        exact plain (.inr (List.cons.inj same).1)

theorem unquote_escaped (text : List Char) : unquote (text.flatMap escape) = text.flatMap twice := by
  induction text with
  | nil => rfl
  | cons c rest ih =>
      rw [List.flatMap_cons, List.flatMap_cons, ← ih, escape, twice]
      by_cases backslash : c = '\\'
      · subst backslash
        -- what follows is no quote: neither the second backslash nor the next escape
        have first := unquote_cons '\\' ('\\' :: rest.flatMap escape) fun _ more same => by cases same
        have second := unquote_cons '\\' (rest.flatMap escape) fun _ more => escaped_ne_quote rest more
        simp only [true_or, if_true, List.cons_append, List.nil_append, first, second]
      · by_cases quote : c = '\''
        · subst quote
          simp only [or_true, if_true, if_neg backslash, List.cons_append, List.nil_append, unquote]
        · have kept := unquote_cons c (rest.flatMap escape) fun same => absurd same backslash
          simp only [backslash, quote, or_self, if_false, List.cons_append, List.nil_append, kept]

/-- A text without a backslash, and only such a text, is not changed. -/
theorem doubled_eq_iff (text : String) : doubled text = text ↔ '\\' ∉ text.toList := by
  have lengths : ∀ cs : List Char, cs.length ≤ (cs.flatMap twice).length ∧
      ('\\' ∈ cs → cs.length < (cs.flatMap twice).length) := by
    intro cs
    induction cs with
    | nil => exact ⟨le_refl _, fun mem => by cases mem⟩
    | cons c rest ih =>
        rw [List.flatMap_cons, List.length_append, List.length_cons, twice]
        split
        · rename_i same
          subst same
          simp only [List.length_cons, List.length_nil]
          exact ⟨by omega, fun _ => by omega⟩
        · rename_i other
          simp only [List.length_cons, List.length_nil, List.mem_cons]
          refine ⟨by omega, fun mem => ?_⟩
          have later := ih.2 (mem.resolve_left fun same => other same.symm)
          omega
  constructor
  · intro same mem
    have more := (lengths text.toList).2 mem
    have equal := congrArg (fun t : String => t.toList.length) same
    simp only [doubled, String.toList_ofList] at equal
    omega
  · intro free
    have kept : ∀ cs : List Char, '\\' ∉ cs → cs.flatMap twice = cs := by
      intro cs free
      induction cs with
      | nil => rfl
      | cons c rest ih =>
          rw [List.mem_cons, not_or] at free
          rw [List.flatMap_cons, twice, if_neg (Ne.symm free.1), ih free.2]
          rfl
    rw [doubled, kept _ free, String.ofList_toList]

theorem quotedText_stringToken (name text : String) : quotedText name (stringToken text) = .ok (some (doubled text)) := by
  have inner : ('\'' :: (text.toList.flatMap escape ++ ['\''])).tail.dropLast = text.toList.flatMap escape :=
    List.dropLast_concat
  rw [quotedText, stringToken, inner, unquote_escaped]
  rfl

/-! ### Numbers -/

theorem digit?_eq {c : Char} (digit : c.isDigit = true) : digit? c = some (digitVal c) := by
  obtain ⟨low, high⟩ := (isDigit_iff c).mp digit
  have first : decimalZeros.find? (fun first => first ≤ c.toNat ∧ c.toNat < first + 10) = some 48 :=
    List.find?_cons_of_pos (decide_eq_true ⟨low, by omega⟩)
  rw [digit?, first]
  rfl

/-- A run of digits before what is no digit. -/
theorem spanDecimal_append {ds : List Char} (rest : List Char) (digits : ∀ c ∈ ds, c.isDigit = true)
    (stop : ∀ c more, rest = c :: more → digit? c = none) :
    spanDecimal (ds ++ rest) = (ds.map digitVal, rest) := by
  induction ds with
  | nil =>
      cases rest with
      | nil => rfl
      | cons c more => rw [List.nil_append, spanDecimal, stop c more rfl, List.map_nil]
  | cons c ds ih =>
      have later := ih fun d mem => digits d (List.mem_cons_of_mem _ mem)
      rw [List.cons_append, spanDecimal, digit?_eq (digits c List.mem_cons_self), later, List.map_cons]

theorem ofDigits_map (cs : List Char) : ofDigits (cs.map digitVal) = Nat.ofDigitChars 10 cs 0 := by
  rw [ofDigits, List.foldl_map]
  rfl

/-- The fraction of a printed decimal. -/
theorem decimalFraction_fixed (width n : Nat) :
    decimalFraction (if width = 0 then [] else '.' :: fixed width n) = ((fixed width n).map digitVal, []) := by
  by_cases whole : width = 0
  · subst whole
    rfl
  · have run := spanDecimal_append [] (@isDigit_fixed width n) fun c more same => by cases same
    rw [List.append_nil] at run
    rw [if_neg whole, decimalFraction, run]

theorem decimalFinite_plain {d : Dec} (low : d.exp ≤ 0) :
    decimalFinite d.neg (Nat.toDigits 10 (d.coeff / 10 ^ (-d.exp).toNat) ++
      if d.exp = 0 then [] else '.' :: fixed (-d.exp).toNat d.coeff) = some d := by
  have width : d.exp = 0 ↔ (-d.exp).toNat = 0 := by omega
  have stop : ∀ c more, (if d.exp = 0 then [] else '.' :: fixed (-d.exp).toNat d.coeff) = c :: more →
      digit? c = none := by
    intro c more same
    split at same
    · cases same
    · cases same
      have none : isDecimal '.' = false := isDecimal_ascii (by simp)
      exact Option.not_isSome_iff_eq_none.mp (Bool.eq_false_iff.mp none)
  have coefficient : ofDigits ((Nat.toDigits 10 (d.coeff / 10 ^ (-d.exp).toNat)).map digitVal ++
      (fixed (-d.exp).toNat d.coeff).map digitVal) = d.coeff := by
    rw [← List.map_append, ofDigits_map, Nat.ofDigitChars_append, Nat.ofDigitChars_ten_toDigits, ofDigitChars_fixed]
    exact Nat.div_add_mod _ _
  have some : (Nat.toDigits 10 (d.coeff / 10 ^ (-d.exp).toNat)).map digitVal ++
      (fixed (-d.exp).toNat d.coeff).map digitVal ≠ [] := by
    simp [Nat.toDigits_ne_nil]
  have exponent : (0 : Int) - ((fixed (-d.exp).toNat d.coeff).map digitVal).length = d.exp := by
    rw [List.length_map, length_fixed]
    omega
  rw [decimalFinite, spanDecimal_append _ (toDigits_digits _) stop]
  simp only [width, decimalFraction_fixed, if_neg some, decimalExponent, Option.map_some, coefficient, exponent]

theorem strip_of_free {cs : List Char} (free : ∀ c ∈ cs, isSpace c = false) : strip cs = cs := by
  have kept : ∀ cs : List Char, (∀ c ∈ cs, isSpace c = false) → cs.dropWhile isSpace = cs := by
    intro cs free
    cases cs with
    | nil => rfl
    | cons c rest => exact List.dropWhile_cons_of_neg (by simp [free c List.mem_cons_self])
  rw [strip, kept cs free, kept cs.reverse fun c mem => free c (List.mem_reverse.mp mem), List.reverse_reverse]

/-- A printed decimal has digits, a sign and a point. -/
theorem mem_plain {d : Dec} {c : Char} (mem : c ∈ plain d) : c.isDigit = true ∨ c = '-' ∨ c = '.' := by
  rw [plain, List.mem_append, List.mem_append] at mem
  rcases mem with sign | whole | fraction
  · split at sign
    · exact .inr (.inl (List.mem_singleton.mp sign))
    · cases sign
  · exact .inl (toDigits_digits _ c whole)
  · split at fraction
    · cases fraction
    · rcases List.mem_cons.mp fraction with point | digit
      · exact .inr (.inr point)
      · exact .inl (isDigit_fixed c digit)

/-- No name of a value begins with a digit. -/
theorem special_digit (neg : Bool) {c : Char} (more : List Char) (digit : c.isDigit = true) :
    special neg ((c :: more).map Char.toLower) = none := by
  have same : c.toLower = c := by
    obtain ⟨low, high⟩ := (isDigit_iff c).mp digit
    unfold Char.toLower
    split
    · rename_i upper
      have upper : 65 ≤ c.toNat := upper.1
      omega
    · rfl
  have others : c.toLower ≠ 'n' ∧ c.toLower ≠ 's' ∧ c.toLower ≠ 'i' := by
    rw [same]
    refine ⟨?_, ?_, ?_⟩ <;> (rintro rfl; cases digit)
  have inf : "inf".toList = ['i', 'n', 'f'] := by with_unfolding_all rfl
  have infinity : "infinity".toList = ['i', 'n', 'f', 'i', 'n', 'i', 't', 'y'] := by with_unfolding_all rfl
  simp only [List.map_cons]
  unfold special
  split
  · rename_i same
    exact absurd (List.cons.inj same).1 others.1
  · rename_i same
    exact absurd (List.cons.inj same).1 others.2.1
  · rw [inf, infinity]
    simp [others.2.2]

theorem decimal_plain {d : Dec} (low : d.exp ≤ 0) (fits : d.fits = true) : decimal (plain d) = some (.finite d) := by
  have noSpace : ∀ c ∈ plain d, isSpace c = false := by
    intro c mem
    rcases mem_plain mem with digit | rfl | rfl
    · exact (isDigit_spec digit).1
    · rfl
    · rfl
  have noUnderscore : (plain d).filter (· ≠ '_') = plain d := by
    rw [List.filter_eq_self]
    intro c mem
    rcases mem_plain mem with digit | rfl | rfl
    · have other : c ≠ '_' := by
        rintro rfl
        cases digit
      exact decide_eq_true other
    · rfl
    · rfl
  have finite := decimalFinite_plain low
  obtain ⟨first, more, digits⟩ := List.exists_cons_of_ne_nil (@Nat.toDigits_ne_nil (d.coeff / 10 ^ (-d.exp).toNat) 10)
  have digit : first.isDigit = true := toDigits_digits (d.coeff / 10 ^ (-d.exp).toNat) first (by rw [digits]; exact List.mem_cons_self)
  rw [digits, List.cons_append] at finite
  have sign : decimalSign (plain d) =
      (d.neg, first :: (more ++ if d.exp = 0 then [] else '.' :: fixed (-d.exp).toNat d.coeff)) := by
    rw [plain, digits]
    cases d.neg with
    | true => rfl
    | false =>
        have notSign : first ≠ '-' ∧ first ≠ '+' := by
          refine ⟨(isDigit_spec digit).2.2, ?_⟩
          rintro rfl
          cases digit
        simp [decimalSign, notSign]
  simp only [decimal, strip_of_free noSpace, noUnderscore, sign, special_digit d.neg _ digit, finite,
    Option.bind_some, if_pos fits]

/-- `int` reads a number whose digits it does not refuse. -/
theorem intOf_toDigits (n : Nat) :
    (∃ value, intOf (Nat.toDigits 10 n) = .ok value) ↔ n < 10 ^ maxStrDigits := by
  rw [← Nat.length_toDigits_le_iff (by omega) (by simp [maxStrDigits])]
  unfold intOf
  split
  · rename_i short
    exact ⟨fun _ => short, fun _ => ⟨_, rfl⟩⟩
  · rename_i long
    constructor
    · rintro ⟨value, read⟩
      cases read
    · intro short
      exact absurd short long

theorem intOf_eq {n : Nat} (short : n < 10 ^ maxStrDigits) : intOf (Nat.toDigits 10 n) = .ok n := by
  have digits : (Nat.toDigits 10 n).filterMap digit? = (Nat.toDigits 10 n).map digitVal := by
    rw [← List.filterMap_eq_map]
    exact List.filterMap_congr fun c mem => digit?_eq (toDigits_digits n c mem)
  rw [intOf, if_pos ((Nat.length_toDigits_le_iff (by omega) (by simp [maxStrDigits])).mpr short), digits, ofDigits_map,
    Nat.ofDigitChars_ten_toDigits]

/-! ### Dates and datetimes -/

theorem dateFromIsoformat_dateText {d : Date} (valid : d.Valid) (low : 1 ≤ d.year) (high : d.year ≤ 9999) :
    dateFromIsoformat (dateText d.year.toNat d.month d.day) = .ok d := by
  obtain ⟨january, december, _, last⟩ := id valid
  have dayFits : d.day < 100 := by
    have most : daysIn d.year d.month ≤ 31 := by
      unfold daysIn
      split_ifs <;> omega
    omega
  have same : (d.year.toNat : Int) = d.year := by omega
  have day := readDigits_two dayFits []
  rw [List.append_nil] at day
  have read : isoDate (dateText d.year.toNat d.month d.day) = some d := by
    simp only [isoDate, dateText, readDigits_fixed_of_lt (show d.year.toNat < 10 ^ 4 by omega), Option.bind_eq_bind,
      Option.bind_some, skip_cons, readDigits_two (show d.month < 100 by omega), day, if_true, same]
  have month : ¬ ¬ (1 ≤ d.month ∧ d.month ≤ 12) := not_not.mpr ⟨january, december⟩
  rw [dateFromIsoformat, read]
  simp only [if_neg (show ¬ d.year < 1 by omega), if_neg month, if_pos valid]

/-- A printed datetime is the text that Go and Python know, and a `Z`. -/
theorem datetimeText_eq {us : Int} (inside : FourDigits (DateTime.ofSeconds (us / 1000000))) :
    datetimeText us = ((DateTime.ofSeconds (us / 1000000)).text ++
      (if microsecond us / 1000 = 0 then [] else '.' :: fixed 3 (microsecond us / 1000))) ++ ['Z'] := by
  simp [datetimeText, dateText, clockText, DateTime.text, yearText_of_lt inside.1 inside.2]

/-- An offset that has its colon is left alone. -/
theorem colonDigits_utc (front : List Char) : colonDigits (front ++ "+00:00".toList) = front ++ "+00:00".toList := by
  have utc : "+00:00".toList = ['+', '0', '0', ':', '0', '0'] := by with_unfolding_all rfl
  rw [utc, colonDigits, List.reverse_append]
  simp

theorem parseDatetimeLiteral_datetimeText {us : Int} (inRange : InRange us) (millis : us % 1000 = 0) :
    parseDatetimeLiteral (datetimeText us) = .ok us := by
  have inside : FourDigits (DateTime.ofSeconds (us / 1000000)) := ⟨by have := inRange.1; unfold yearOf at this; omega, inRange.2⟩
  have ms : microsecond us / 1000 < 1000 := by unfold microsecond; omega
  have utc : "+00:00".toList = utcOffset.sign :: (fixed 2 utcOffset.hours ++ (':' :: fixed 2 utcOffset.minutes)) := by
    with_unfolding_all rfl
  have free : ∀ c ∈ (DateTime.ofSeconds (us / 1000000)).text ++
      (if microsecond us / 1000 = 0 then [] else '.' :: fixed 3 (microsecond us / 1000)), c ≠ 'Z' := by
    intro c mem
    rcases List.mem_append.mp mem with mem | mem
    · exact mem_text_ne inside mem
    · split at mem
      · cases mem
      · rcases List.mem_cons.mp mem with rfl | mem
        · exact Char.ne_of_val_ne (by decide)
        · exact mem_fixed_ne mem rfl
  have given : colonDigits (replaceZ (datetimeText us)) = (DateTime.ofSeconds (us / 1000000)).text ++
      ((if microsecond us / 1000 = 0 then [] else '.' :: fixed 3 (microsecond us / 1000)) ++ "+00:00".toList) := by
    rw [datetimeText_eq inside, replaceZ_append, replaceZ_of_not_mem free]
    have zulu : replaceZ ['Z'] = "+00:00".toList := List.append_nil _
    rw [zulu, colonDigits_utc, List.append_assoc]
  have fraction : isoFraction ((if microsecond us / 1000 = 0 then [] else '.' :: fixed 3 (microsecond us / 1000)) ++
      "+00:00".toList) = some (1000 * (microsecond us / 1000), "+00:00".toList) := by
    rw [utc]
    split
    · rename_i none
      rw [none]
      rfl
    · exact isoFraction_fixed ms utcOffset.sign_noDigit _
  have instant : 1000000 * ((DateTime.ofSeconds (us / 1000000)).toSeconds - utcOffset.seconds) +
      (1000 * (microsecond us / 1000) : Nat) = us := by
    have zero : utcOffset.seconds = 0 := rfl
    rw [toSeconds_ofSeconds, zero]
    unfold microsecond
    omega
  have offset_ : isoOffset "+00:00".toList = some utcOffset.seconds := by rw [utc, isoOffset_offset]
  have year : 1 ≤ (DateTime.ofSeconds (us / 1000000)).date.year := inRange.1
  rw [parseDatetimeLiteral, given, fromisoformat]
  simp only [isoInstant, isoFields_text (ofSeconds_valid _) inside, fraction, Option.bind_eq_bind, Option.bind_some,
    offset_, ofSeconds_valid, year, and_self, if_true, instant, if_pos inRange]

/-! ### Literals -/

/-- A value, read again from its literal. -/
def reread : (t : FieldType) → t.Val → t.Val
  | .id, text => doubled text
  | .string, text => doubled text
  | .picklist, text => doubled text
  | .currency, d => d
  | .date, d => d
  | .boolean, b => b
  | .datetime, us => us

theorem literal_literalToken (name : String) {t : FieldType} {value : Option t.Val}
    (has : ∀ v, value = some v → HasLiteral t v) :
    literal name t (literalToken t value) = .ok (value.map (reread t)) := by
  cases value with
  | none => cases t <;> rfl
  | some v =>
      cases t with
      | id => exact quotedText_stringToken name v
      | string => exact quotedText_stringToken name v
      | picklist => exact quotedText_stringToken name v
      | currency =>
          have read : decimalOf (plain v) = .ok v := by
            rw [decimalOf, decimal_plain (has v rfl).1 (has v rfl).2]
          exact congrArg (fun result : Except Exn Dec => raise (result.map some)) read
      | date =>
          have read := dateFromIsoformat_dateText (has v rfl).1 (has v rfl).2.1 (has v rfl).2.2
          exact congrArg (fun result : Except Exn Date => raise (result.map some)) read
      | boolean => cases v <;> rfl
      | datetime =>
          have read := parseDatetimeLiteral_datetimeText (has v rfl).1 (has v rfl).2
          exact congrArg (fun result : Except Exn Int => raise (result.map some)) read

end Relay.FakeSalesforce
