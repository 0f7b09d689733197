import Relay.Events.Amounts
import Relay.Ingest.Sends
import Relay.Reconciler.Repair

/-!
The deal that an order was made of.

`Depicts` relates an order to a state of a deal: the order has one of the deal's
versions, and the fields that `to_order` maps from its row. Both builders' messages
depict the deal that they were built of, the poller's when the amount is `Exact`.
`toOrder_of_depicts` is the way back: another state of the deal with the same
content maps to the same fields.
-/

namespace Relay.Events

open Relay.Json Relay.Python Relay.Calendar Relay.Salesforce Relay.Numeric Relay.Worker Relay.Erp

/-! ### Amounts -/

/-- An amount that both sides read as one number: an integer text, a number that is
not positive, or the shortest decimal of a finite double. -/
def Exact (t : NumText) : Prop :=
  t.isInt = true ∨ t.value ≤ 0 ∨ (round64 t.value < overflow ∧ IsShortest t.value)

/-- The total of the poller's message is that of the reconciler's. -/
theorem Exact.readings {t : NumText} (exact_ : Exact t) {number : Number PyNum} {total : Dec}
    (read : parseNumber (.number t) = .ok number) (accepted : amount number.value = .ok total) :
    ∃ number' total', loadNumber (.number t) = .ok number' ∧ amount number'.value = .ok total' ∧
      total'.value = total.value := by
  by_cases whole : t.isInt = true
  · rw [parseNumber, if_pos whole] at read
    exact ⟨number, total, by rw [loadNumber, if_pos whole, read], accepted, rfl⟩
  · rw [parseNumber, if_neg whole] at read
    split at read
    · cases read
      -- A decimal that the worker accepts is not negative.
      have nonneg : 0 ≤ t.value ∧ total = .ofNumText t := by
        change nonNegative (.ofNumText t) = .ok total at accepted
        unfold nonNegative at accepted
        split at accepted
        · cases accepted
        · rename_i sign
          cases accepted
          rw [Dec.isNegative_iff, Dec.value_ofNumText, not_lt] at sign
          exact ⟨sign, rfl⟩
      obtain ⟨nonneg, rfl⟩ := nonneg
      have shortest : round64 t.value < overflow ∧ (t.value = 0 ∨ IsShortest t.value) := by
        rcases exact_ with int | zero | ⟨finite, shortest⟩
        · exact absurd int whole
        · have zero : t.value = 0 := le_antisymm zero nonneg
          refine ⟨?_, .inl zero⟩
          rw [zero, round64_zero]
          norm_num [overflow]
        · exact ⟨finite, .inr shortest⟩
      have finite : float t = .finite t.neg (round64 t.value) := by
        rw [float, Binary64.ofRat, abs_of_nonneg nonneg, if_pos shortest.1]
      have value : (Dec.ofNumText (reprFinite t.neg (round64 t.value))).value = t.value := by
        rw [Dec.value_ofNumText]
        exact (value_resent_iff nonneg).mpr shortest.2
      refine ⟨.num (.float (float t)), _, if_neg whole, ?_, value⟩
      rw [finite]
      exact nonNegative_ok (by rw [value]; exact nonneg)
    · cases read

/-! ### Deals -/

/-- A version that a builder gives the deal. -/
inductive HasVersion (d : Deal) : Int → Prop where
  | poller : HasVersion d d.systemModstamp
  | reconciler {stamp : Int} : Reconciler.parseModstamp (wireText d.systemModstamp) = .ok stamp →
      HasVersion d (Reconciler.version stamp)

/-- The order was made of the deal: it has a version of it, and the fields of its row. -/
structure Depicts (d : Deal) (order : Order) : Prop where
  version : HasVersion d order.version
  mapped : ∃ row total, Reconciler.loadRow d.row = .ok row ∧ total.value = order.total.value ∧
    Mapped row order.version row.account.join { order with total := total }

/-- The fields that an order takes from a deal are the same. -/
structure SameContent (d d' : Deal) : Prop where
  name : d.name = d'.name
  amount : d.amount = d'.amount
  closeDate : d.closeDate = d'.closeDate
  accountId : d.accountId = d'.accountId
  account : d.account = d'.account

theorem SameContent.refl (d : Deal) : SameContent d d := ⟨rfl, rfl, rfl, rfl, rfl⟩

/-- Loading a row decodes its amount and leaves the other fields. -/
theorem withAmount_of_loadRow {row : Row Token} {loaded : Row PyNum}
    (load : Reconciler.loadRow row = .ok loaded) : ∃ amount, loaded = row.withAmount amount := by
  unfold Reconciler.loadRow at load
  split at load
  · cases load
    exact ⟨none, rfl⟩
  · cases read : loadNumber _ with
    | error exc =>
        rw [read] at load
        cases load
    | ok number =>
        rw [read] at load
        cases load
        exact ⟨some number, rfl⟩

/-- The rows of two states of a deal with the same content, loaded. -/
theorem loadRow_same {d d' : Deal} (same : SameContent d d') {row row' : Row PyNum}
    (load : Reconciler.loadRow d.row = .ok row) (load' : Reconciler.loadRow d'.row = .ok row') :
    ∃ amount, row = d.row.withAmount amount ∧ row' = d'.row.withAmount amount := by
  unfold Reconciler.loadRow at load load'
  simp only [Deal.row, ← same.amount] at load load'
  cases present : d.amount with
  | none =>
      simp only [present, Option.map_none] at load load'
      cases load
      cases load'
      exact ⟨none, rfl, rfl⟩
  | some t =>
      simp only [present, Option.map_some] at load load'
      cases read : loadNumber (Number.num (Token.number t)).token with
      | error exc =>
          rw [read] at load
          cases load
      | ok number =>
          rw [read] at load load'
          cases load
          cases load'
          exact ⟨some number, rfl, rfl⟩

/-! ### Messages -/

section Messages

variable {rt : Runtime} {d : Deal} {order : Order}

theorem account_of_goAccountName {row : Row Token} {name : String}
    (named : goAccountName row = some name) (nonempty : name ≠ "") : row.account.join = some name := by
  rcases account : row.account with _ | _ | name'
  · simp [goAccountName, account] at named
  · simp only [goAccountName, account, Option.map_some, Option.getD_none, Option.some.injEq] at named
    exact absurd named.symm nonempty
  · simpa [goAccountName, account] using named

/-- The version of an event that Go can build has few digits. -/
theorem convertible_modstamp {ms stamp : Int} (parsed : parseDateTime (wireText ms) = some stamp) :
    stamp = 1000000 * ms ∧ Convertible ms := by
  rw [parseDateTime_wireText] at parsed
  split at parsed
  · rename_i inside
    obtain ⟨low, high⟩ := Reconciler.bound_of_year inside.1 inside.2
    exact ⟨(Option.some.inj parsed).symm, convertible_of_lt (by omega) (by omega)⟩
  · cases parsed

/-- The order of the poller's message is that of the deal's row, its amount as the
worker reads it. -/
theorem orderOf_marshal (deep : 2 ≤ rt.depth) {ev : Ingest.Event} (event : Ingest.IsEventOf d ev) :
    ∃ publishedAt, orderOf rt (marshal ev) = (parseAmount d.row.amount).bind fun amount =>
      toOrder rt (eventMembers (d.row.withAmount amount)
        (String.ofList (formatMillis (1000000 * d.systemModstamp))) d.systemModstamp publishedAt
        (goAccountName d.row)) := by
  obtain ⟨o, publishedAt, decoded, built⟩ := event
  rw [unmarshal_row] at decoded
  cases decoded
  unfold fromOpportunity at built
  split at built
  · cases built
  · rename_i stamp parsed
    cases built
    obtain ⟨rfl, short⟩ := convertible_modstamp parsed
    have millis : unixMilli (1000000 * d.systemModstamp) = d.systemModstamp := by
      rw [unixMilli]
      omega
    have shape : (d.row.account.map fun name => (⟨name.getD ""⟩ : Salesforce.Account)).map
        Salesforce.Account.name = goAccountName d.row := by
      rw [goAccountName]
      cases d.row.account <;> rfl
    have body := parseBody_event deep .go d.row
      (String.ofList (formatMillis (1000000 * d.systemModstamp))) short
      (String.ofList (formatRFC3339 publishedAt)) (goAccountName d.row)
    refine ⟨String.ofList (formatRFC3339 publishedAt), ?_⟩
    rw [marshal]
    have read : ∀ text members, text = String.ofList (print .go (.obj members)) →
        ∀ result, parseBody rt (String.ofList (print .go (.obj members))) = result →
          orderOf rt text = result.bind fun event => toOrder rt event := by
      rintro text members rfl result rfl
      rw [Worker.orderOf]
      cases parseBody rt (String.ofList (print .go (.obj members))) <;> rfl
    rw [read _ _ ?_ _ body]
    · cases parseAmount d.row.amount <;> rfl
    · simp only [OpportunityEvent.json, Opportunity.json, shape, millis]
      rfl

/-- The order of the poller's message depicts the deal. -/
theorem depicts_of_poller (deep : 2 ≤ rt.depth) (exact_ : ∀ t, d.amount = some t → Exact t)
    {ev : Ingest.Event} (event : Ingest.IsEventOf d ev) (read : orderOf rt (marshal ev) = .ok order) :
    Depicts d order := by
  obtain ⟨publishedAt, body⟩ := orderOf_marshal deep event
  rw [body] at read
  cases present : d.amount with
  | none =>
      have amounts : parseAmount d.row.amount = .ok none := by simp [Deal.row, present, parseAmount]
      rw [amounts] at read
      obtain ⟨number, absent, -⟩ := (mapped_of_toOrder read).total
      cases absent
  | some t =>
      have amounts : parseAmount d.row.amount = (parseNumber (.number t)).map some := by
        simp [Deal.row, present, parseAmount, Number.token]
      rw [amounts] at read
      cases parsed' : parseNumber (.number t) with
      | error exc =>
          rw [parsed'] at read
          cases read
      | ok number =>
          rw [parsed'] at read
          have mapped := mapped_of_toOrder read
          obtain ⟨number₀, same, accepted⟩ := mapped.total
          obtain rfl : number = number₀ := Option.some.inj same
          obtain ⟨number', total', loaded, accepted', value⟩ :=
            (exact_ t present).readings parsed' accepted
          refine ⟨?_, d.row.withAmount (some number'), total', ?_, value, ?_⟩
          · rw [mapped.version.1]
            exact .poller
          · simp only [Reconciler.loadRow, Deal.row, present, Option.map_some, Number.token, loaded]
            rfl
          · exact {
              id := mapped.id
              version := ⟨rfl, by rw [mapped.version.1]; exact mapped.version.2⟩
              customer := mapped.customer
              customerName := ⟨account_of_goAccountName mapped.customerName.1 mapped.customerName.2,
                mapped.customerName.2⟩
              opportunityName := mapped.opportunityName
              total := ⟨number', rfl, accepted'⟩
              closeDate := mapped.closeDate }

/-- The order of the reconciler's message depicts the deal. -/
theorem depicts_of_reconciler (deep : 2 ≤ rt.depth) {row : Row PyNum}
    (load : Reconciler.loadRow d.row = .ok row) {stamp : Int}
    (parsed : Reconciler.parseModstamp row.systemModstamp = .ok stamp) (publishedAt : Int)
    (read : Reconciler.orderOfEvent rt (Reconciler.eventOf row stamp publishedAt) = .ok order) :
    Depicts d order := by
  rw [Reconciler.orderOf_message deep (Reconciler.loadedRow_of_loadRow load)
    (Reconciler.inRange_of_parseModstamp parsed), Reconciler.eventOf_eq] at read
  have mapped := mapped_of_toOrder read
  have stamps : row.systemModstamp = wireText d.systemModstamp := by
    obtain ⟨amount, rfl⟩ := withAmount_of_loadRow load
    rfl
  rw [stamps] at parsed
  have versions := mapped.version.1
  rw [← versions] at mapped
  exact ⟨versions ▸ .reconciler parsed, row, order.total, load, rfl, mapped⟩

end Messages

/-! ### The way back -/

/-- What a comparison reads of two orders' content. -/
structure SameOrder (a b : Order) : Prop where
  customerId : a.customerId = b.customerId
  customerName : a.customerName = b.customerName
  opportunityName : a.opportunityName = b.opportunityName
  total : a.total.value = b.total.value
  orderDate : a.orderDate = b.orderDate

/-- The order of a row at a version has one content. -/
theorem sameOrder_of_mapped {row : Row PyNum} {version version' : Int} {accountName : Option String}
    {a b : Order} (first : Mapped row version accountName a) (second : Mapped row version' accountName b) :
    SameOrder a b where
  customerId := Option.some.inj (first.customer.1.symm.trans second.customer.1)
  customerName := Option.some.inj (first.customerName.1.symm.trans second.customerName.1)
  opportunityName := first.opportunityName.trans second.opportunityName.symm
  total := by
    obtain ⟨number, here, read⟩ := first.total
    obtain ⟨number', here', read'⟩ := second.total
    cases here.symm.trans here'
    rw [Except.ok.inj (read.symm.trans read')]
  orderDate := Option.some.inj (first.closeDate.1.symm.trans second.closeDate.1)

/-- A state of the deal with the depicted content, at the order's version, maps to
the content of the order. -/
theorem toOrder_of_depicts (rt : Runtime) {d r : Deal} {order : Order} (depicts : Depicts r order)
    (id : d.id = r.id) (same : SameContent d r) {row : Row PyNum}
    (load : Reconciler.loadRow d.row = .ok row) {stamp : Int}
    (version : Reconciler.version stamp = order.version) (publishedAt : Int) :
    ∃ order', toOrder rt (Reconciler.eventOf row stamp publishedAt) = .ok order' ∧
      SameOrder order order' := by
  obtain ⟨row₀, total, load₀, value, mapped₀⟩ := depicts.mapped
  obtain ⟨amount, rfl, rfl⟩ := loadRow_same same load load₀
  have mapped : Mapped (d.row.withAmount amount) order.version d.account.join
      { order with total := total } := by
    obtain ⟨ids, versions, customer, customerName, name, totals, closeDate⟩ := mapped₀
    simp only [Row.withAmount, Deal.row, ← id, ← same.accountId, ← same.account, ← same.name,
      ← same.closeDate] at ids customer customerName name totals closeDate
    exact ⟨ids, versions, customer, customerName, name, totals, closeDate⟩
  obtain ⟨number, present, accepted⟩ := mapped.total
  have positive : 0 < Reconciler.version stamp := by
    rw [version]
    exact mapped.version.2
  obtain ⟨order', made⟩ : ∃ order', toOrder rt (Reconciler.eventOf (d.row.withAmount amount) stamp
      publishedAt) = .ok order' :=
    Reconciler.mapped_iff.mpr ⟨mapped.billable, positive, number, total, present, accepted⟩
  have remade := made
  rw [Reconciler.eventOf_eq] at remade
  obtain ⟨customerId, customerName, opportunityName, totals, orderDate⟩ :=
    sameOrder_of_mapped mapped (mapped_of_toOrder remade)
  exact ⟨order', made, customerId, customerName, opportunityName, value.symm.trans totals, orderDate⟩

end Relay.Events
