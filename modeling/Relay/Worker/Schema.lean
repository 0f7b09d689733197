import Relay.Data.Checks
import Relay.Worker.Mapping

/-!
What `to_order` checks of an event.

`schemaChecks` are the demands of the event schema in the order in which
`to_order` looks at them, each with the error it raises. One of them is looser
in the code: its date pattern takes decimal digits of every script, and a line
feed after them.
-/

namespace Relay.Worker

open Relay.Json Relay.Python Relay.Erp Relay.Data

/-! ### Demands -/

/-- A member that is a string with characters in it. -/
def NonEmpty (members : List (String × Obj)) (name : String) : Prop :=
  ∃ value, dictGet name members = .str value ∧ value ≠ ""

/-- A number, or a text of one, that denotes a finite decimal. -/
inductive Denotes : Obj → Dec → Prop where
  | int (i : Int) : Denotes (.int i) (.ofInt i)
  | decimal (d : Dec) : Denotes (.num (.decimal d)) d
  | float (neg : Bool) (x : ℚ) :
      Denotes (.num (.float (.finite neg x))) (.ofNumText (reprFinite neg x))
  | text {text : String} {d : Dec} :
      Python.decimal text.toList = some (.finite d) → Denotes (.str text) d

/-- Ten characters `YYYY-MM-DD`, all digits ASCII. -/
def PlainDate (text : String) : Prop :=
  ∃ a b c d e f g h : Char, text.toList = [a, b, c, d, '-', e, f, '-', g, h] ∧
    ∀ digit ∈ [a, b, c, d, e, f, g, h], digit.isDigit = true

/-- The deal of an event; no members where there is none. -/
def dealOf (event : List (String × Obj)) : List (String × Obj) :=
  match dictGet "opportunity" event with
  | .obj opp => opp
  | _ => []

/-! ### The checks -/

def required (members : List (String × Obj)) (name : String) : Check Exn :=
  ⟨NonEmpty members name, .permanentError "missing_field" name⟩

/-- The checks up to the amount. -/
def checksBeforeDate (rt : Runtime) (event : List (String × Obj)) : List (Check Exn) :=
  [⟨dictGet "schema" event = .str schema,
      .permanentError "unknown_schema" (str rt.printable (dictGet "schema" event))⟩,
    ⟨dictGet "opportunity" event = .obj (dealOf event), .permanentError "missing_field" "opportunity"⟩,
    required (dealOf event) "id",
    required event "event_key",
    ⟨∃ version, dictGet "version" event = .int version ∧ 0 < version,
      .permanentError "invalid_field" "version"⟩,
    ⟨dictGet "account_id" (dealOf event) ≠ .null ∧ dictGet "account_id" (dealOf event) ≠ .str "",
      .permanentError "missing_account" "the deal has no Account"⟩,
    ⟨dictGet "amount" (dealOf event) ≠ .null,
      .permanentError "missing_amount" "the deal has no Amount"⟩,
    ⟨∃ total, Denotes (dictGet "amount" (dealOf event)) total ∧ 0 ≤ total.value, invalidAmount⟩,
    required (dealOf event) "close_date"]

/-- The date, which `Good` decides. -/
def dateCheck (Good : String → Prop) (event : List (String × Obj)) : Check Exn :=
  ⟨∃ text, dictGet "close_date" (dealOf event) = .str text ∧ Good text,
    .permanentError "invalid_field" "close_date"⟩

def checksAfterDate (event : List (String × Obj)) : List (Check Exn) :=
  [required (dealOf event) "account_id", required (dealOf event) "account_name",
    required (dealOf event) "system_modstamp"]

/-- The schema of an event, in the order of the code. -/
def schemaChecks (rt : Runtime) (event : List (String × Obj)) : List (Check Exn) :=
  checksBeforeDate rt event ++ dateCheck PlainDate event :: checksAfterDate event

/-- The order of an event, field by field. -/
structure Carries (rt : Runtime) (event : List (String × Obj)) (order : Order) : Prop where
  orderId : dictGet "id" (dealOf event) = .str order.orderId
  customerId : dictGet "account_id" (dealOf event) = .str order.customerId
  customerName : dictGet "account_name" (dealOf event) = .str order.customerName
  opportunityName : order.opportunityName = strOrEmpty rt (dictGet "name" (dealOf event))
  total : Denotes (dictGet "amount" (dealOf event)) order.total
  orderDate : dictGet "close_date" (dealOf event) = .str order.orderDate
  version : dictGet "version" event = .int order.version
  sourceModstamp : dictGet "system_modstamp" (dealOf event) = .str order.sourceModstamp
  eventKey : dictGet "event_key" event = .str order.eventKey

/-- A date that the pattern of the code matches although it is none, in an event
that passes every check before it. -/
def LooseDate (rt : Runtime) (event : List (String × Obj)) : Prop :=
  AllPass (checksBeforeDate rt event) ∧
    ∃ text, dictGet "close_date" (dealOf event) = .str text ∧ isDate text = true ∧ ¬ PlainDate text

/-! ### Dates -/

theorem digit?_of_isDigit {c : Char} (digit : c.isDigit = true) : (digit? c).isSome = true := by
  have bounds : 0x30 ≤ c.toNat ∧ c.toNat < 0x30 + 10 := by
    simp only [Char.isDigit, Bool.and_eq_true, decide_eq_true_eq] at digit
    obtain ⟨low, high⟩ := digit
    have low' : 48 ≤ c.toNat := UInt32.le_iff_toNat_le.mp low
    have high' : c.toNat ≤ 57 := UInt32.le_iff_toNat_le.mp high
    omega
  simp [digit?, decimalZeros, bounds.1, bounds.2]

/-- The pattern matches every date. -/
theorem PlainDate.isDate {text : String} (plain : PlainDate text) : isDate text = true := by
  obtain ⟨a, b, c, d, e, f, g, h, chars, digits⟩ := plain
  have found : ∀ digit ∈ [a, b, c, d, e, f, g, h], (digit? digit).isSome = true :=
    fun digit mem => digit?_of_isDigit (digits digit mem)
  simp only [Worker.isDate, chars, decide_true, Bool.true_or, Bool.and_true]
  exact List.all_eq_true.mpr found

/-! ### The steps of `to_order` -/

theorem answers_requiredStr (members : List (String × Obj)) (name : String) :
    Answers [required members name] (requiredStr members name)
      (fun value => dictGet name members = .str value) := by
  unfold requiredStr
  split
  · rename_i value member
    split
    · rename_i empty
      apply answers_fail
      rintro ⟨value', member', full⟩
      rw [member, Value.str.injEq] at member'
      exact full (member' ▸ empty)
    · rename_i full
      exact answers_pass ⟨value, member, full⟩ member
  · rename_i other
    apply answers_fail
    rintro ⟨value, member, -⟩
    exact other value member

theorem nonNegative_answers (value : Obj) (total : Dec) (denotes : Denotes value total)
    (only : ∀ total', Denotes value total' → total' = total) :
    Answers [⟨∃ total, Denotes value total ∧ 0 ≤ total.value, invalidAmount⟩] (nonNegative total)
      (Denotes value) := by
  unfold nonNegative
  split
  · rename_i negative
    apply answers_fail
    rintro ⟨total', denotes', nonneg⟩
    rw [only total' denotes'] at nonneg
    exact absurd ((Dec.isNegative_iff total).mp negative) (not_lt.mpr nonneg)
  · rename_i positive
    have nonneg := not_lt.mp (mt (Dec.isNegative_iff total).mpr positive)
    exact answers_pass ⟨total, denotes, nonneg⟩ denotes

theorem answers_amount (value : Obj) :
    Answers [⟨∃ total, Denotes value total ∧ 0 ≤ total.value, invalidAmount⟩] (amount value)
      (Denotes value) := by
  unfold amount
  split
  · rename_i i
    apply nonNegative_answers _ _ (.int i)
    intro total' denotes
    cases denotes
    rfl
  · rename_i d
    apply nonNegative_answers _ _ (.decimal d)
    intro total' denotes
    cases denotes
    rfl
  · rename_i neg x
    apply nonNegative_answers _ _ (.float neg x)
    intro total' denotes
    cases denotes
    rfl
  · rename_i text
    split
    · rename_i d parsed
      apply nonNegative_answers _ _ (.text parsed)
      intro total' denotes
      cases denotes with
      | text parsed' =>
          rw [parsed, Option.some.injEq, Decimal.finite.injEq] at parsed'
          exact parsed'.symm
    · rename_i none
      apply answers_fail
      rintro ⟨total, denotes, -⟩
      cases denotes with
      | text parsed => exact none total parsed
  · rename_i int decimal float text
    apply answers_fail
    rintro ⟨total, denotes, -⟩
    cases denotes with
    | int i => exact int i rfl
    | decimal => exact decimal _ rfl
    | float neg x => exact float neg x rfl
    | text parsed => exact text _ rfl

theorem answers_opportunityOf (rt : Runtime) (event : List (String × Obj)) :
    Answers
      [⟨dictGet "schema" event = .str schema,
          .permanentError "unknown_schema" (str rt.printable (dictGet "schema" event))⟩,
        ⟨dictGet "opportunity" event = .obj (dealOf event),
          .permanentError "missing_field" "opportunity"⟩]
      (opportunityOf rt event) (fun opp => opp = dealOf event) := by
  unfold opportunityOf
  cases name : dictGet "schema" event with
  | str text =>
      dsimp only
      split
      · rename_i known
        refine Answers.after_pass (congrArg Value.str known) ?_
        cases deal : dictGet "opportunity" event with
        | obj opp =>
            have same : opp = dealOf event := by rw [dealOf, deal]
            exact answers_pass (congrArg Value.obj same) same
        | _ =>
            apply answers_fail
            rintro ⟨⟩
      · rename_i unknown
        apply answers_fail
        rintro ⟨⟩
        exact unknown rfl
  | _ =>
      apply answers_fail
      rintro ⟨⟩

theorem answers_versionOf (event : List (String × Obj)) :
    Answers [⟨∃ version, dictGet "version" event = .int version ∧ 0 < version,
        .permanentError "invalid_field" "version"⟩]
      (versionOf event) (fun version => dictGet "version" event = .int version) := by
  unfold versionOf
  split
  · rename_i version member
    split
    · rename_i positive
      exact answers_pass ⟨version, member, positive⟩ member
    · rename_i small
      apply answers_fail
      rintro ⟨version', member', positive⟩
      rw [member, Value.int.injEq] at member'
      exact small (member' ▸ positive)
  · rename_i other
    apply answers_fail
    rintro ⟨version, member, -⟩
    exact other version member

theorem answers_totalOf (opp : List (String × Obj)) :
    Answers
      [⟨dictGet "account_id" opp ≠ .null ∧ dictGet "account_id" opp ≠ .str "",
          .permanentError "missing_account" "the deal has no Account"⟩,
        ⟨dictGet "amount" opp ≠ .null, .permanentError "missing_amount" "the deal has no Amount"⟩,
        ⟨∃ total, Denotes (dictGet "amount" opp) total ∧ 0 ≤ total.value, invalidAmount⟩]
      (totalOf opp) (Denotes (dictGet "amount" opp)) := by
  unfold totalOf
  split
  · rename_i none
    apply answers_fail
    rintro ⟨some, -⟩
    exact some none
  · rename_i empty
    apply answers_fail
    rintro ⟨-, full⟩
    exact full empty
  · rename_i some full
    refine Answers.after_pass ⟨some, full⟩ ?_
    split
    · rename_i none
      exact answers_fail (not_not.mpr none)
    · rename_i given
      exact (answers_amount _).after_pass given

theorem answers_closeDateOf (event : List (String × Obj)) :
    Answers [required (dealOf event) "close_date", dateCheck (isDate · = true) event]
      (closeDateOf (dealOf event)) (fun text => dictGet "close_date" (dealOf event) = .str text) := by
  refine (answers_requiredStr (dealOf event) "close_date").bind fun text member => ?_
  by_cases date : isDate text = true
  · rw [if_pos date]
    exact answers_pass ⟨text, member, date⟩ member
  · rw [if_neg date]
    apply answers_fail
    rintro ⟨text', member', date'⟩
    rw [member, Value.str.injEq] at member'
    exact date (member' ▸ date')

/-- `to_order` makes the checks of the schema, with its own pattern for the date. -/
theorem answers_toOrder (rt : Runtime) (event : List (String × Obj)) :
    Answers (checksBeforeDate rt event ++ dateCheck (isDate · = true) event :: checksAfterDate event)
      (toOrder rt event) (Carries rt event) := by
  refine (answers_opportunityOf rt event).bind fun opp deal => ?_
  subst deal
  refine (answers_requiredStr (dealOf event) "id").bind fun orderId isOrderId => ?_
  refine (answers_requiredStr event "event_key").bind fun eventKey isEventKey => ?_
  refine (answers_versionOf event).bind fun version isVersion => ?_
  refine (answers_totalOf (dealOf event)).bind fun total isTotal => ?_
  refine (answers_closeDateOf event).bind fun closeDate isCloseDate => ?_
  refine (answers_requiredStr (dealOf event) "account_id").bind fun customerId isCustomerId => ?_
  refine (answers_requiredStr (dealOf event) "account_name").bind fun customerName isCustomerName => ?_
  refine (answers_requiredStr (dealOf event) "system_modstamp").last
    fun sourceModstamp isSourceModstamp => ⟨_, rfl, ?_⟩
  exact {
    orderId := isOrderId
    customerId := isCustomerId
    customerName := isCustomerName
    opportunityName := rfl
    total := isTotal
    orderDate := isCloseDate
    version := isVersion
    sourceModstamp := isSourceModstamp
    eventKey := isEventKey }

/-- `to_order` accepts exactly the schema, unless a date is none that the pattern
matches. -/
theorem toOrder_exact_iff (rt : Runtime) (event : List (String × Obj)) :
    Answers (schemaChecks rt event) (toOrder rt event) (Carries rt event) ↔
      ¬ LooseDate rt event := by
  have weaker : (∃ text, dictGet "close_date" (dealOf event) = .str text ∧ PlainDate text) →
      ∃ text, dictGet "close_date" (dealOf event) = .str text ∧ isDate text = true := by
    rintro ⟨text, member, plain⟩
    exact ⟨text, member, plain.isDate⟩
  have other : ∀ check ∈ checksAfterDate event,
      check.error ≠ .permanentError "invalid_field" "close_date" := by
    intro check mem
    simp only [checksAfterDate, List.mem_cons, List.not_mem_nil, or_false] at mem
    rcases mem with rfl | rfl | rfl <;> simp [required]
  refine (Answers.replace_iff weaker other (answers_toOrder rt event)).trans (not_congr ?_)
  constructor
  · rintro ⟨pass, ⟨text, member, date⟩, none⟩
    exact ⟨pass, text, member, date, fun plain => none ⟨text, member, plain⟩⟩
  · rintro ⟨pass, text, member, date, loose⟩
    refine ⟨pass, ⟨text, member, date⟩, ?_⟩
    rintro ⟨text', member', plain⟩
    rw [member, Value.str.injEq] at member'
    exact loose (member' ▸ plain)

/-- An event that is good but for its date. -/
def eventDated (closeDate : String) : List (String × Obj) :=
  [("schema", .str schema), ("event_key", .str "006A1@2026-01-31T00:00:00.000Z"),
    ("version", .int 1769817600000),
    ("opportunity", .obj [("id", .str "006A1"), ("name", .str "Renewal"), ("amount", .int 100),
      ("close_date", .str closeDate), ("account_id", .str "001A1"), ("account_name", .str "Acme"),
      ("system_modstamp", .str "2026-01-31T00:00:00.000+0000")])]

/-- A date with a line feed behind it becomes the date of an order. -/
theorem toOrder_admits_lineFeed :
    ¬ Answers (schemaChecks ⟨fun _ => true, 100⟩ (eventDated "2026-01-31\n"))
      (toOrder ⟨fun _ => true, 100⟩ (eventDated "2026-01-31\n"))
      (Carries ⟨fun _ => true, 100⟩ (eventDated "2026-01-31\n")) := by
  intro exact
  have all := exact.accepts.mp ⟨_, rfl⟩
  obtain ⟨text, member, plain⟩ :=
    all (dateCheck PlainDate (eventDated "2026-01-31\n")) (by simp [schemaChecks])
  obtain rfl : "2026-01-31\n" = text := Value.str.inj member
  obtain ⟨a, b, c, d, e, f, g, h, chars, -⟩ := plain
  have long : 11 = 10 := congrArg List.length chars
  exact absurd long (by decide)

end Relay.Worker
