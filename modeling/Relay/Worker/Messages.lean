import Relay.Events.Shape
import Relay.Json.RoundTrip
import Relay.Worker.Mapping

/-!
What the worker makes of an event.

`parseBody_event` is the round trip of a message body in any style: the worker
reads back the event with its amount decoded. `toOrder_congr` says that the order
of an event depends on the amount only through the total, and `toOrder_event`
what it is for an event whose other fields are complete.
-/

namespace Relay.Worker

open Relay.Effect Relay.Json Relay.Python Relay.Erp Relay.Salesforce Relay.Events

/-- The amount of a message as the worker decodes it. -/
def parseAmount : Option (Number Token) → Except Exn (Option (Number PyNum))
  | none => .ok none
  | some amount => (parseNumber amount.token).map some

/-- An integer that `int` converts. -/
def Convertible (i : Int) : Prop := (Nat.toDigits 10 i.natAbs).length ≤ maxStrDigits

theorem int_ofInt {i : Int} (short : Convertible i) : int (.ofInt i) = .ok i := by
  have digits : (Nat.toDigits 10 (NumText.ofInt i).whole).length ≤ maxStrDigits := short
  rw [int, if_pos digits, NumText.intValue_ofInt]

theorem depth_jsonText {N : Type} (text : Option String) : (jsonText text : Json.Value N).depth = 0 := by
  cases text <;> rfl

theorem depth_jsonNumber {N : Type} (amount : Option (Number N)) : (jsonNumber amount).depth = 0 := by
  rcases amount with _ | _ | _ <;> rfl

theorem depth_event {N : Type} (row : Row N) (normalised : String) (version : Int)
    (publishedAt : String) (accountName : Option String) :
    (Json.Value.obj (eventMembers row normalised version publishedAt accountName)).depth = 2 := by
  simp only [eventMembers, dealMembers, Json.Value.depth, depthMembers, depth_jsonText,
    depth_jsonNumber, Nat.max_self, Nat.zero_add, Nat.max_zero, Nat.zero_max]

theorem decode_amount (amount : Option (Number Token)) :
    (jsonNumber amount).decode (fun i => (parseNumber (.number (.ofInt i))).map Number.value)
        (fun t => (parseNumber t).map Number.value) = (parseAmount amount).map jsonNumber := by
  rcases amount with _ | _ | t
  · rfl
  · simp only [jsonNumber, Number.value, Json.Value.decode, parseAmount, Number.token]
    cases parseNumber _ <;> rfl
  · simp only [jsonNumber, Number.value, Json.Value.decode, parseAmount, Number.token]
    cases parseNumber t <;> rfl

/-- A printed event is read back with its amount decoded. -/
theorem parseBody_event {rt : Runtime} (deep : 2 ≤ rt.depth) (style : Style) (row : Row Token)
    (normalised : String) {version : Int} (short : Convertible version) (publishedAt : String)
    (accountName : Option String) :
    parseBody rt (String.ofList (print style
        (.obj (eventMembers row normalised version publishedAt accountName)))) =
      (parseAmount row.amount).map fun amount =>
        eventMembers (row.withAmount amount) normalised version publishedAt accountName := by
  have versions : (parseNumber (.number (.ofInt version))).map Number.value = .ok (.int version) := by
    simp only [parseNumber, NumText.isInt_ofInt, if_true, int_ofInt short, Except.map, Number.value]
  have decoded := decode_event (fun i => (parseNumber (.number (.ofInt i))).map Number.value)
    (fun t => (parseNumber t).map Number.value) row normalised publishedAt accountName versions
    (decode_amount row.amount)
  have bound : (Json.Value.obj (eventMembers row normalised version publishedAt accountName)).depth ≤
      rt.depth := by
    rw [depth_event]
    exact deep
  rw [parseBody, String.toList_ofList, loads_print bound, Json.Value.decoded, decoded]
  cases parseAmount row.amount <;> rfl

/-! ### The order -/

/-- The order of an event with the members of another depends on the deal's other
fields and its total. -/
theorem toOrder_congr (rt : Runtime) {row row' : Row PyNum} (normalised : String) (version : Int)
    (publishedAt : String) (accountName : Option String)
    (others : ∀ name ≠ "amount", dictGet name (dealMembers row normalised accountName) =
      dictGet name (dealMembers row' normalised accountName))
    (key : row.id = row'.id)
    (total : totalOf (dealMembers row normalised accountName) =
      totalOf (dealMembers row' normalised accountName)) :
    toOrder rt (eventMembers row normalised version publishedAt accountName) =
      toOrder rt (eventMembers row' normalised version publishedAt accountName) := by
  have texts : ∀ name ≠ "amount", requiredStr (dealMembers row normalised accountName) name =
      requiredStr (dealMembers row' normalised accountName) name := by
    intro name other
    rw [requiredStr, requiredStr, others name other]
  have deal : ∀ row : Row PyNum, opportunityOf rt
      (eventMembers row normalised version publishedAt accountName) =
        .ok (dealMembers row normalised accountName) := fun _ => rfl
  have eventKey : ∀ row : Row PyNum, requiredStr
      (eventMembers row normalised version publishedAt accountName) "event_key" =
        if row.id ++ ":" ++ normalised = "" then .error (.permanentError "missing_field" "event_key")
        else .ok (row.id ++ ":" ++ normalised) := fun _ => rfl
  have versions : ∀ row : Row PyNum, versionOf
      (eventMembers row normalised version publishedAt accountName) =
        if 0 < version then .ok version else .error (.permanentError "invalid_field" "version") :=
    fun _ => rfl
  have dates : closeDateOf (dealMembers row normalised accountName) =
      closeDateOf (dealMembers row' normalised accountName) := by
    rw [closeDateOf, closeDateOf, texts "close_date" (by decide)]
  simp only [toOrder, deal, eventKey, versions, bind, Except.bind]
  rw [texts "id" (by decide), key, total, dates, texts "account_id" (by decide),
    texts "account_name" (by decide), texts "system_modstamp" (by decide), others "name" (by decide)]

/-- The fields of a row, its amount apart, that an order needs. -/
structure Billable {N : Type} (row : Row N) (accountName : Option String) : Prop where
  id : row.id ≠ ""
  customer : ∃ customerId, row.accountId = some customerId ∧ customerId ≠ ""
  customerName : ∃ name, accountName = some name ∧ name ≠ ""
  closeDate : ∃ date, row.closeDate = some date ∧ isDate date = true

theorem Billable.withAmount {N M : Type} {row : Row N} {accountName : Option String}
    (billable : Billable row accountName) (amount : Option (Number M)) :
    Billable (row.withAmount amount) accountName :=
  ⟨billable.id, billable.customer, billable.customerName, billable.closeDate⟩

theorem isDate_ne_empty {date : String} (isDate_ : isDate date = true) : date ≠ "" := by
  rintro rfl
  cases isDate_

theorem requiredStr_text (members : List (String × Obj)) (name text : String)
    (here : dictGet name members = .str text) (nonempty : text ≠ "") :
    requiredStr members name = .ok text := by
  simp only [requiredStr, here, if_neg nonempty]

/-- The total of a deal with an account is its amount. -/
theorem totalOf_customer {opp : List (String × Obj)} {customerId : String}
    (present : dictGet "account_id" opp = .str customerId) (nonempty : customerId ≠ "") :
    (dictGet "amount" opp = .null →
        totalOf opp = .error (.permanentError "missing_amount" "the deal has no Amount")) ∧
      (dictGet "amount" opp ≠ .null → totalOf opp = amount (dictGet "amount" opp)) := by
  unfold totalOf
  split
  · rename_i null
    cases present.symm.trans null
  · rename_i empty
    exact absurd (Value.str.inj (present.symm.trans empty)) nonempty
  · split
    · rename_i null
      exact ⟨fun _ => rfl, fun other => absurd null other⟩
    · rename_i other
      exact ⟨fun null => absurd null other, fun _ => rfl⟩

theorem totalOf_number {opp : List (String × Obj)} {customerId : String} {value : Number PyNum}
    (present : dictGet "account_id" opp = .str customerId) (nonempty : customerId ≠ "")
    (is : dictGet "amount" opp = value.value) : totalOf opp = amount value.value := by
  rw [← is]
  refine (totalOf_customer present nonempty).2 ?_
  rw [is]
  cases value <;> nofun

/-- The total of an event whose other fields are complete. -/
theorem toOrder_event (rt : Runtime) {row : Row PyNum} {normalised : String} {version : Int}
    (publishedAt : String) {accountName : Option String} (billable : Billable row accountName)
    (positive : 0 < version) (written : normalised ≠ "") :
    (toOrder rt (eventMembers row normalised version publishedAt accountName)).map Order.total =
      match row.amount with
      | none => .error (.permanentError "missing_amount" "the deal has no Amount")
      | some value => amount value.value := by
  obtain ⟨id, ⟨customerId, account, customerNe⟩, ⟨name, named, nameNe⟩, date, dated, isDate_⟩ := billable
  have deal : opportunityOf rt (eventMembers row normalised version publishedAt accountName) =
      .ok (dealMembers row normalised accountName) := rfl
  have keyNe : row.id ++ ":" ++ normalised ≠ "" := by
    intro empty
    have lengths := congrArg String.length empty
    simp at lengths
  have key := requiredStr_text (eventMembers row normalised version publishedAt accountName)
    "event_key" (row.id ++ ":" ++ normalised) rfl keyNe
  have versions : versionOf (eventMembers row normalised version publishedAt accountName) =
      .ok version := if_pos positive
  have ids := requiredStr_text (dealMembers row normalised accountName) "id" row.id rfl id
  have customers := requiredStr_text (dealMembers row normalised accountName) "account_id" customerId
    (by rw [dealMembers, account]; rfl) customerNe
  have names := requiredStr_text (dealMembers row normalised accountName) "account_name" name
    (by rw [dealMembers, named]; rfl) nameNe
  have stamps := requiredStr_text (dealMembers row normalised accountName) "system_modstamp" normalised
    rfl written
  have dates : closeDateOf (dealMembers row normalised accountName) = .ok date := by
    have text := requiredStr_text (dealMembers row normalised accountName) "close_date" date
      (by rw [dealMembers, dated]; rfl) (isDate_ne_empty isDate_)
    simp only [closeDateOf, text, bind, Except.bind, isDate_, if_true]
    rfl
  have present : dictGet "account_id" (dealMembers row normalised accountName) = .str customerId := by
    rw [dealMembers, account]
    rfl
  have value : dictGet "amount" (dealMembers row normalised accountName) = jsonNumber row.amount := rfl
  cases given : row.amount with
  | none =>
      rw [given] at value
      simp only [toOrder, deal, ids, key, versions, (totalOf_customer present customerNe).1 value, bind, Except.bind]
      rfl
  | some amount_ =>
      rw [given] at value
      simp only [toOrder, deal, ids, key, versions, totalOf_number present customerNe value, dates, customers, names,
        stamps, bind, Except.bind]
      cases amount amount_.value <;> rfl

theorem text_of_requiredStr {members : List (String × Obj)} {name text : String}
    (required : requiredStr members name = .ok text) :
    dictGet name members = .str text ∧ text ≠ "" := by
  unfold requiredStr at required
  split at required
  · rename_i value here
    split at required
    · cases required
    · rename_i nonempty
      cases required
      exact ⟨here, nonempty⟩
  · cases required

theorem some_of_jsonText {N : Type} {text : Option String} {value : String}
    (same : (jsonText text : Json.Value N) = .str value) : text = some value := by
  cases text with
  | none => cases same
  | some text =>
      cases same
      rfl

theorem strOrEmpty_str (rt : Runtime) (text : String) : strOrEmpty rt (.str text) = text := by
  by_cases empty : text = ""
  · subst empty
    rfl
  · have truthy_ : truthy (.str text) = true := by simpa [truthy] using empty
    rw [strOrEmpty, if_pos truthy_]
    rfl

/-- The order of a row at this version: what `to_order` checks and what it keeps. -/
structure Mapped (row : Row PyNum) (version : Int) (accountName : Option String) (order : Order) : Prop where
  id : order.orderId = row.id ∧ row.id ≠ ""
  version : order.version = version ∧ 0 < version
  customer : row.accountId = some order.customerId ∧ order.customerId ≠ ""
  customerName : accountName = some order.customerName ∧ order.customerName ≠ ""
  opportunityName : order.opportunityName = row.name.getD ""
  total : ∃ number, row.amount = some number ∧ amount number.value = .ok order.total
  closeDate : row.closeDate = some order.orderDate ∧ isDate order.orderDate = true

theorem Mapped.billable {row : Row PyNum} {version : Int} {accountName : Option String} {order : Order}
    (mapped : Mapped row version accountName order) : Billable row accountName :=
  ⟨mapped.id.2, ⟨_, mapped.customer⟩, ⟨_, mapped.customerName⟩, ⟨_, mapped.closeDate⟩⟩

theorem mapped_of_toOrder {rt : Runtime} {row : Row PyNum} {normalised : String} {version : Int}
    {publishedAt : String} {accountName : Option String} {order : Order}
    (accepted : toOrder rt (eventMembers row normalised version publishedAt accountName) = .ok order) :
    Mapped row version accountName order := by
  obtain ⟨opp, deal, accepted⟩ := ok_of_bind accepted
  obtain rfl : dealMembers row normalised accountName = opp := Except.ok.inj deal
  obtain ⟨orderId, ids, accepted⟩ := ok_of_bind accepted
  obtain ⟨eventKey, -, accepted⟩ := ok_of_bind accepted
  obtain ⟨version', versions, accepted⟩ := ok_of_bind accepted
  obtain ⟨total, totals, accepted⟩ := ok_of_bind accepted
  obtain ⟨closeDate, dates, accepted⟩ := ok_of_bind accepted
  obtain ⟨customerId, customers, accepted⟩ := ok_of_bind accepted
  obtain ⟨customerName, names, accepted⟩ := ok_of_bind accepted
  obtain ⟨sourceModstamp, -, accepted⟩ := ok_of_bind accepted
  cases accepted
  obtain ⟨id, idNe⟩ := text_of_requiredStr ids
  obtain rfl : row.id = orderId := Json.Value.str.inj id
  obtain ⟨customer, customerNe⟩ := text_of_requiredStr customers
  obtain ⟨name, nameNe⟩ := text_of_requiredStr names
  obtain ⟨closeText, closes, dated⟩ := ok_of_bind dates
  constructor
  case id => exact ⟨rfl, idNe⟩
  case version =>
    change (if 0 < version then _ else _) = _ at versions
    split at versions
    · rename_i positive
      cases versions
      exact ⟨rfl, positive⟩
    · cases versions
  case customer => exact ⟨some_of_jsonText customer, customerNe⟩
  case customerName => exact ⟨some_of_jsonText name, nameNe⟩
  case opportunityName => exact strOrEmpty_str rt _
  case total =>
    have value : dictGet "amount" (dealMembers row normalised accountName) = jsonNumber row.amount := rfl
    unfold totalOf at totals
    rw [value] at totals
    split at totals
    · cases totals
    · cases totals
    · rcases here : row.amount with _ | number
      · rw [here] at totals
        cases totals
      · rw [here] at totals
        refine ⟨number, rfl, ?_⟩
        rcases number with _ | _ <;> exact totals
  case closeDate =>
    split at dated
    · rename_i isDate_
      cases dated
      exact ⟨some_of_jsonText (text_of_requiredStr closes).1, isDate_⟩
    · cases dated

end Relay.Worker
