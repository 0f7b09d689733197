import Relay.Events.Builders
import Relay.Reconciler.Salesforce
import Relay.Worker.Messages

/-!
Amounts on both paths to the worker.

Go keeps the text of an amount, so the worker's total is its decimal value. The
reconciler decodes a fraction or an exponent to a double first, and the worker
then reads the double's shortest decimal. The two are the same number exactly
when the amount is itself the shortest decimal of its double.
-/

namespace Relay.Events

open Relay.Json Relay.Python Relay.Calendar Relay.Salesforce Relay.Numeric Relay.Worker

/-! ### The two messages -/

/-- The body that the poller sends for a record. -/
def goMessage (record : Json.Value Token) (publishedAt : Int) : Option String :=
  match Opportunity.unmarshal record with
  | .error _ => none
  | .ok o => (fromOpportunity o publishedAt).map marshal

/-- The body that the reconciler sends for a record. -/
def reconcilerMessage (record : Json.Value Token) (now : Int) : Except Exn String := do
  let loaded ← Reconciler.load record
  let row ← Reconciler.readRow loaded
  let event ← Reconciler.fromSalesforce row now
  dumpsText (.obj event)

/-- The total that the worker reads from a body. -/
def totalIn (rt : Runtime) (body : String) : Option ℚ :=
  match orderOf rt body with
  | .error _ => none
  | .ok order => some order.total.value

def goTotal (rt : Runtime) (row : Row Token) (publishedAt : Int) : Option ℚ :=
  (goMessage row.json publishedAt).bind (totalIn rt)

def reconcilerTotal (rt : Runtime) (row : Row Token) (publishedAt : Int) : Option ℚ :=
  match reconcilerMessage row.json (publishedAt / 1000) with
  | .error _ => none
  | .ok body => totalIn rt body

/-- An amount that is not negative, within the limits of `Decimal` and below the
ERP's largest number. -/
structure Accepted (t : NumText) : Prop where
  nonneg : 0 ≤ t.value
  small : t.value < 10 ^ 126
  fits : (Dec.ofNumText t).fits = true

theorem goMessage_eq (record : Json.Value Token) (publishedAt : Int) :
    goMessage record publishedAt =
      (goEvent record publishedAt).map fun event => String.ofList (print .go event) := by
  unfold goMessage goEvent
  cases Opportunity.unmarshal record with
  | error err => rfl
  | ok o => rw [Option.map_map]; rfl

/-! ### What the worker reads -/

/-- The value of a total, if there is one. -/
def valueOf : Except Exn Dec → Option ℚ
  | .error _ => none
  | .ok total => some total.value

theorem totalIn_eq (rt : Runtime) (body : String) :
    totalIn rt body = valueOf ((orderOf rt body).map Erp.Order.total) := by
  unfold totalIn
  cases orderOf rt body <;> rfl

theorem formatMillis_ne_empty (t : Int) : String.ofList (formatMillis t) ≠ "" := by
  intro empty
  have lengths := congrArg String.length empty
  simp [formatMillis] at lengths

theorem convertible_of_lt {i : Int} (low : -(10 ^ 16) < i) (high : i < 10 ^ 16) : Convertible i := by
  have small : i.natAbs < 10 ^ 16 := by omega
  exact (Nat.length_toDigits_le_iff (by decide) (by decide)).mpr
    (small.trans_le (Nat.pow_le_pow_right (by decide) (by decide)))

theorem convertible_version {seconds : Int} (inRange : InRange (1000000 * seconds)) :
    Convertible (1000 * seconds) := by
  have bound := Reconciler.seconds_bound inRange
  have whole : 1000000 * seconds / 1000000 = seconds := by omega
  rw [whole] at bound
  exact convertible_of_lt (by omega) (by omega)

/-- The total of a printed event, in any style. -/
theorem totalIn_event {rt : Runtime} (deep : 2 ≤ rt.depth) (style : Style) {row : Row Token}
    {amount_ : Number Token} (present : row.amount = some amount_) {seconds : Int}
    (positive : 0 < seconds) (inRange : InRange (1000000 * seconds)) (publishedAt : Int)
    {accountName : Option String} (billable : Billable row accountName) :
    totalIn rt (String.ofList (print style (eventJson row seconds publishedAt accountName))) =
      valueOf ((parseNumber amount_.token).bind fun number => amount number.value) := by
  rw [totalIn_eq]
  congr 1
  have read := parseBody_event deep style row
    (String.ofList (formatMillis (nanosPerSecond * seconds))) (convertible_version inRange)
    (String.ofList (formatRFC3339 publishedAt)) accountName
  rw [Worker.orderOf, eventJson, read, present, parseAmount]
  cases parsed : parseNumber amount_.token with
  | error exc => rfl
  | ok number =>
      have total := toOrder_event rt (String.ofList (formatRFC3339 publishedAt))
        (billable.withAmount (some number))
        (show 0 < 1000 * seconds by omega) (formatMillis_ne_empty (nanosPerSecond * seconds))
      exact total

theorem nonNegative_ok {d : Dec} (nonneg : 0 ≤ d.value) : nonNegative d = .ok d := by
  have sign : ¬ d.isNegative = true := fun negative =>
    absurd ((Dec.isNegative_iff d).mp negative) (not_lt.mpr nonneg)
  rw [nonNegative, if_neg sign]

/-- An integer text below the ERP's limit has at most as many digits as `int` converts. -/
theorem int_accepted {t : NumText} (accepted : Accepted t) (whole : t.isInt = true) :
    int t = .ok t.intValue ∧ Convertible t.intValue := by
  have value := NumText.value_of_isInt whole
  have nonneg := accepted.nonneg
  have small := accepted.small
  rw [value] at nonneg small
  have nonneg' : 0 ≤ t.intValue := by exact_mod_cast nonneg
  have small' : t.intValue < 10 ^ 126 := by exact_mod_cast small
  have size : t.whole = t.intValue.natAbs := by
    unfold NumText.intValue
    split <;> omega
  have short : Convertible t.intValue := by
    refine (Nat.length_toDigits_le_iff (by decide) (by decide)).mpr ?_
    have below : t.intValue.natAbs < 10 ^ 126 := by omega
    exact below.trans_le (Nat.pow_le_pow_right (by decide) (by decide))
  have digits : (Nat.toDigits 10 t.whole).length ≤ maxStrDigits := by
    rw [size]
    exact short
  exact ⟨if_pos digits, short⟩

theorem amount_int {i : Int} (nonneg : 0 ≤ i) : amount (.int i) = .ok (.ofInt i) :=
  nonNegative_ok (by rw [Dec.value_ofInt]; exact_mod_cast nonneg)

/-- Go's text of an accepted amount gives its decimal value. -/
theorem goAmount {t : NumText} (accepted : Accepted t) :
    ∃ total : Dec, ((parseNumber (.number t)).bind fun number => amount number.value) = .ok total ∧
      total.value = t.value := by
  by_cases whole : t.isInt = true
  · obtain ⟨int, -⟩ := int_accepted accepted whole
    have value := NumText.value_of_isInt whole
    have nonneg : 0 ≤ t.intValue := by
      have := accepted.nonneg
      rw [value] at this
      exact_mod_cast this
    refine ⟨.ofInt t.intValue, ?_, by rw [Dec.value_ofInt, value]⟩
    rw [parseNumber, if_pos whole, int]
    exact amount_int nonneg
  · refine ⟨.ofNumText t, ?_, rfl⟩
    rw [parseNumber, if_neg whole, if_pos accepted.fits]
    exact nonNegative_ok accepted.nonneg

/-! ### What the reconciler sends -/

/-- The number of an amount in the reconciler's message. -/
def resent (t : NumText) : Number Token :=
  if t.isInt then .int t.intValue else .num (dumpFloat (float t))

theorem loadNumber_resent {t : NumText} (accepted : Accepted t) :
    ∃ number : Number PyNum, loadNumber (.number t) = .ok number ∧
      (jsonNumber (some number)).decode (fun i => .ok (.int i)) dumpNumber =
        .ok (jsonNumber (some (resent t))) := by
  by_cases whole : t.isInt = true
  · obtain ⟨int, -⟩ := int_accepted accepted whole
    refine ⟨.int t.intValue, by rw [loadNumber, if_pos whole, int]; rfl, ?_⟩
    rw [resent, if_pos whole]
    rfl
  · refine ⟨.num (.float (float t)), if_neg whole, ?_⟩
    rw [resent, if_neg whole]
    rfl

/-- The reconciler's message is the event with the amount it decoded. -/
theorem reconcilerMessage_stamped {row : Row Token} {t : NumText}
    (present : row.amount = some (.num (.number t))) (accepted : Accepted t) (stamp : Stamp)
    (inRange : InRange (1000000 * stamp.seconds)) (publishedAt : Int) :
    reconcilerMessage (stamped row stamp).json (publishedAt / 1000) =
      .ok (String.ofList (print .python (eventJson (row.withAmount (some (resent t))) stamp.seconds
        publishedAt (pythonAccountName row)))) := by
  obtain ⟨number, loaded, dumped⟩ := loadNumber_resent accepted
  have load : Reconciler.load (stamped row stamp).json =
      .ok (stamped (row.withAmount (some number)) stamp).json := by
    have amount : (stamped row stamp).amount = some (.num (.number t)) := present
    rw [Reconciler.load_row, Reconciler.loadRow, amount]
    simp only [Number.token, loaded, Except.map]
    rfl
  have event := fromSalesforce_stamped (row.withAmount (some number)) stamp publishedAt
  rw [if_pos inRange] at event
  have amounts : (jsonNumber (row.withAmount (some number)).amount).decode (fun i => .ok (.int i)) dumpNumber =
      (.ok (some (resent t)) : Except Exn (Option (Number Token))).map jsonNumber := dumped
  have written : dumps (.obj (eventMembers (row.withAmount (some number))
      (String.ofList (formatMillis (nanosPerSecond * stamp.seconds))) (1000 * stamp.seconds)
      (String.ofList (formatRFC3339 publishedAt)) (pythonAccountName (row.withAmount (some number))))) =
        .ok (eventJson (row.withAmount (some (resent t))) stamp.seconds publishedAt
          (pythonAccountName row)) :=
    decode_event _ _ _ _ _ _ rfl amounts
  simp only [reconcilerMessage, load, Reconciler.readRow_row, event, bind, Except.bind, dumpsText,
    written, Except.map]

/-- The number a double's text is read as. -/
theorem sign_of_value {t : NumText} (positive : 0 < t.value) : t.neg = false := by
  by_contra negative
  have scale : (0 : ℚ) ≤ t.coeff * (10 : ℚ) ^ t.scale := by positivity
  have value : t.value = -(t.coeff * (10 : ℚ) ^ t.scale) := by
    rw [NumText.value, if_pos (by simpa using negative)]
    ring
  rw [value] at positive
  linarith

theorem round64_small {t : NumText} (accepted : Accepted t) : round64 t.value < overflow := by
  refine round64_lt_overflow accepted.nonneg ?_
  calc t.value ≤ 10 ^ 126 := accepted.small.le
    _ ≤ 16 ^ 126 := by gcongr; norm_num
    _ = (2 ^ 4) ^ 126 := by norm_num
    _ = 2 ^ 504 := by rw [← pow_mul]
    _ ≤ 2 ^ 1000 := pow_le_pow_right₀ (by norm_num) (by norm_num)

/-- The double's shortest decimal, which the worker reads as the total. -/
theorem resentAmount {t : NumText} (accepted : Accepted t) (fraction : ¬ t.isInt = true) :
    ((parseNumber (resent t).token).bind fun number => amount number.value) =
      .ok (.ofNumText (reprFinite t.neg (round64 t.value))) := by
  have size : |t.value| = t.value := abs_of_nonneg accepted.nonneg
  have finite : float t = .finite t.neg (round64 t.value) := by
    rw [float, Binary64.ofRat, size, if_pos (round64_small accepted)]
  have token : (resent t).token = .number (reprFinite t.neg (round64 t.value)) := by
    rw [resent, if_neg fraction, finite]
    rfl
  have notInt : ¬ (reprFinite t.neg (round64 t.value)).isInt = true := by
    rw [isInt_reprFinite]
    decide
  have nonneg : 0 ≤ (Dec.ofNumText (reprFinite t.neg (round64 t.value))).value := by
    rw [Dec.value_ofNumText]
    by_cases zero : round64 t.value = 0
    · rw [zero, value_reprFinite_zero]
    · have positive : 0 < t.value := by
        refine lt_of_le_of_ne accepted.nonneg fun none => zero ?_
        rw [← none, round64_zero]
      rw [sign_of_value positive, value_reprFinite false zero]
      have := (value_shortest_bounds accepted.nonneg zero).1
      simpa using this.le
  rw [token, parseNumber, if_neg notInt,
    if_pos (fits_reprFinite t.neg accepted.nonneg (round64_small accepted))]
  exact nonNegative_ok nonneg

/-- The shortest decimal of an amount's double is the amount exactly when the
amount is zero or that decimal. -/
theorem value_resent_iff {t : NumText} (nonneg : 0 ≤ t.value) :
    (reprFinite t.neg (round64 t.value)).value = t.value ↔ t.value = 0 ∨ IsShortest t.value := by
  by_cases zero : round64 t.value = 0
  · rw [zero, value_reprFinite_zero]
    constructor
    · exact fun same => .inl same.symm
    · rintro (none | ⟨n, place, -, -, coarsest⟩)
      · exact none.symm
      · refine absurd ?_ (coarsest (place + 1) (by omega) 0)
        rw [zero]
        simp
  · have positive : 0 < t.value := by
      refine lt_of_le_of_ne nonneg fun none => zero ?_
      rw [← none, round64_zero]
    have shortest := shortest_eq_iff nonneg zero
    rw [sign_of_value positive, value_reprFinite false zero, if_neg (by decide), one_mul, shortest]
    exact ⟨.inr, fun either => either.resolve_left positive.ne'⟩

/-- The reconciler's message gives the decimal value of an integer text, and of
any other amount that is zero or the shortest decimal of its double. -/
theorem resentAmount_iff {t : NumText} (accepted : Accepted t) :
    valueOf ((parseNumber (resent t).token).bind fun number => amount number.value) =
        some t.value ↔ t.isInt = true ∨ t.value = 0 ∨ IsShortest t.value := by
  by_cases whole : t.isInt = true
  · obtain ⟨-, short⟩ := int_accepted accepted whole
    have value := NumText.value_of_isInt whole
    have nonneg : 0 ≤ t.intValue := by
      have := accepted.nonneg
      rw [value] at this
      exact_mod_cast this
    have token : (resent t).token = .number (.ofInt t.intValue) := by
      rw [resent, if_pos whole]
      rfl
    have parsed : parseNumber (.number (.ofInt t.intValue)) = .ok (.int t.intValue) := by
      rw [parseNumber, NumText.isInt_ofInt, if_pos rfl, int_ofInt short]
      rfl
    have total : amount (Number.value (.int t.intValue)) = .ok (.ofInt t.intValue) := amount_int nonneg
    rw [token, parsed]
    simp only [Except.bind, total, valueOf, Dec.value_ofInt, value, whole, true_or]
  · rw [resentAmount accepted whole, valueOf, Dec.value_ofNumText, Option.some.injEq,
      value_resent_iff accepted.nonneg]
    simp only [whole, false_or, Bool.false_eq_true]

/-! ### Both totals -/

section Totals

variable {rt : Runtime} {row : Row Token} {t : NumText} {stamp : Stamp}

theorem goTotal_stamped (deep : 2 ≤ rt.depth) (present : row.amount = some (.num (.number t)))
    (accepted : Accepted t) (billable : Billable row (pythonAccountName row))
    (positive : 0 < stamp.seconds) (inRange : InRange (1000000 * stamp.seconds)) (publishedAt : Int) :
    goTotal rt (stamped row stamp) publishedAt = some t.value := by
  have same : goAccountName row = pythonAccountName row := by
    refine (accountName_iff row).mpr fun nameless => ?_
    obtain ⟨name, named, -⟩ := billable.customerName
    rw [pythonAccountName, nameless] at named
    cases named
  have message := goMessage_eq (stamped row stamp).json publishedAt
  rw [goEvent_stamped row stamp publishedAt, Option.map_some] at message
  obtain ⟨total, read, value⟩ := goAmount accepted
  have total_ := totalIn_event deep .go present positive inRange publishedAt billable
  rw [goTotal, message, Option.bind_some, same, total_, Number.token, read, valueOf, value]

theorem reconcilerTotal_stamped (deep : 2 ≤ rt.depth) (present : row.amount = some (.num (.number t)))
    (accepted : Accepted t) (billable : Billable row (pythonAccountName row))
    (positive : 0 < stamp.seconds) (inRange : InRange (1000000 * stamp.seconds)) (publishedAt : Int) :
    reconcilerTotal rt (stamped row stamp) publishedAt = some t.value ↔
      t.isInt = true ∨ t.value = 0 ∨ IsShortest t.value := by
  have message := reconcilerMessage_stamped present accepted stamp inRange publishedAt
  have total := totalIn_event deep .python
    (show (row.withAmount (some (resent t))).amount = some (resent t) from rfl) positive inRange
    publishedAt (billable.withAmount (some (resent t)))
  rw [reconcilerTotal, message, ← resentAmount_iff accepted, ← total]

/-- Both totals are the decimal value of the amount exactly when its text is that
of an integer, or it is zero or the shortest decimal of its double. -/
theorem amounts_exact_iff (deep : 2 ≤ rt.depth) (present : row.amount = some (.num (.number t)))
    (accepted : Accepted t) (billable : Billable row (pythonAccountName row))
    (positive : 0 < stamp.seconds) (inRange : InRange (1000000 * stamp.seconds)) (publishedAt : Int) :
    (goTotal rt (stamped row stamp) publishedAt = some t.value ∧
        reconcilerTotal rt (stamped row stamp) publishedAt = some t.value) ↔
      t.isInt = true ∨ t.value = 0 ∨ IsShortest t.value := by
  rw [goTotal_stamped deep present accepted billable positive inRange publishedAt,
    reconcilerTotal_stamped deep present accepted billable positive inRange publishedAt]
  simp only [true_and]

end Totals

/-! ### Two amounts -/

/-- A won deal with an account. -/
def wonRow (t : NumText) : Row Token :=
  ⟨"006A00000000001AAA", some "Renewal", some "Closed Won", some (.num (.number t)), some "2026-09-14",
    some "001A00000000001AAA", some (some "Acme"), ""⟩

theorem billable_wonRow (t : NumText) : Billable (wonRow t) (pythonAccountName (wonRow t)) where
  id := by simp [wonRow]
  customer := ⟨_, rfl, by simp⟩
  customerName := ⟨_, rfl, by simp⟩
  closeDate := ⟨_, rfl, rfl⟩

/-- `4999.99`, which is no double but the shortest decimal of one. -/
def discounted : NumText := ⟨false, 4999, some ⟨['9', '9'], by decide, by simp⟩, none⟩

theorem value_discounted : discounted.value = 499999 / 100 := by decide +kernel

theorem discounted_shortest : IsShortest discounted.value := by
  rw [value_discounted]
  exact (shortest_eq_iff (by norm_num) (by decide +kernel)).mp (by decide +kernel)

theorem amounts_exact_discounted :
    round64 (499999 / 100) ≠ 499999 / 100 ∧
      goTotal ⟨fun _ => true, 1000⟩ (stamped (wonRow discounted) september) 0 = some (499999 / 100) ∧
      reconcilerTotal ⟨fun _ => true, 1000⟩ (stamped (wonRow discounted) september) 0 = some (499999 / 100) := by
  have accepted : Accepted discounted := by
    refine ⟨?_, ?_, by decide +kernel⟩
    · rw [value_discounted]
      norm_num
    · rw [value_discounted]
      norm_num
  have both := (@amounts_exact_iff ⟨fun _ => true, 1000⟩ (wonRow discounted) discounted september (by decide)
    rfl accepted (billable_wonRow _) (by decide) (by decide) 0).mpr (.inr (.inr discounted_shortest))
  rw [value_discounted] at both
  exact ⟨by decide +kernel, both⟩

/-- `1234567890123456.78`, of which a double keeps `1234567890123456.75`. -/
def cents : NumText := ⟨false, 1234567890123456, some ⟨['7', '8'], by decide, by simp⟩, none⟩

theorem value_cents : cents.value = 123456789012345678 / 100 := by decide +kernel

/-- A decimal with one digit less rounds to the same double. -/
theorem cents_not_shortest : ¬ IsShortest cents.value := by
  rw [value_cents]
  rintro ⟨n, place, value, -, coarsest⟩
  rcases lt_or_ge (-1) place with coarse | fine
  · obtain ⟨k, split⟩ := Int.eq_ofNat_of_zero_le (show 0 ≤ place by omega)
    rw [split, zpow_natCast] at value
    have whole : ((100 * (n * 10 ^ k) : Nat) : ℚ) = (123456789012345678 : Nat) := by
      push_cast
      rw [← value]
      norm_num
    have whole' : 100 * (n * 10 ^ k) = 123456789012345678 := by exact_mod_cast whole
    omega
  · rcases Int.lt_or_eq_of_le fine with finer | rfl
    · refine coarsest (-1) finer 12345678901234568 ?_
      decide +kernel
    · have whole : ((10 * n : Nat) : ℚ) = (123456789012345678 : Nat) := by
        have scaled : (n : ℚ) * 10 ^ (-1 : Int) * 100 = 123456789012345678 := by
          rw [← value]
          norm_num
        rw [zpow_neg_one] at scaled
        push_cast
        linarith
      have whole' : 10 * n = 123456789012345678 := by exact_mod_cast whole
      omega

/-- Of this amount the poller's message keeps every digit and the reconciler's
message does not. -/
theorem amounts_differ_cents :
    goTotal ⟨fun _ => true, 1000⟩ (stamped (wonRow cents) september) 0 = some cents.value ∧
      reconcilerTotal ⟨fun _ => true, 1000⟩ (stamped (wonRow cents) september) 0 ≠ some cents.value := by
  have accepted : Accepted cents :=
    ⟨by rw [value_cents]; norm_num, by rw [value_cents]; norm_num, by decide +kernel⟩
  refine ⟨goTotal_stamped (by decide) rfl accepted (billable_wonRow _) (by decide) (by decide) 0, ?_⟩
  intro same
  have exact_ := (reconcilerTotal_stamped (by decide) rfl accepted (billable_wonRow _) (by decide)
    (by decide) 0).mp same
  rcases exact_ with whole | zero | shortest
  · cases whole
  · rw [value_cents] at zero
    norm_num at zero
  · exact cents_not_shortest shortest

end Relay.Events
