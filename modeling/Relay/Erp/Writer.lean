import Relay.Platform.Interface
import Relay.Python.Exceptions
import Relay.Python.Value

/-!
The idempotent, version-checked ERP write.

`transaction` is the one DynamoDB transaction that writes an order, its invoice
and its customer; only the order carries a condition. `classify` decides what a
cancelled or failed transaction means for the caller.
-/

namespace Relay.Erp

open Relay.Platform Relay.Python Relay.Effect Relay.Dynamo

inductive WriteResult where
  /-- Created or updated. -/
  | written
  /-- This exact version is already stored. -/
  | duplicate
  /-- A newer version is already stored. -/
  | stale
deriving DecidableEq, Repr

def WriteResult.value : WriteResult → String
  | written => "written"
  | duplicate => "duplicate"
  | stale => "stale"

/-- Cancellation codes that mean "try again later". -/
def transientCodes : List String :=
  ["TransactionConflict", "ThrottlingError", "ProvisionedThroughputExceeded", "RequestLimitExceeded"]

def transientErrors : List String :=
  ["ProvisionedThroughputExceededException", "ThrottlingException", "RequestLimitExceeded",
    "TransactionInProgressException", "InternalServerError", "ServiceUnavailable"]

/-- One deal, already validated and mapped to ERP fields. -/
structure Order where
  orderId : String
  customerId : String
  customerName : String
  opportunityName : String
  total : Dec
  orderDate : String
  version : Int
  sourceModstamp : String
  eventKey : String
deriving DecidableEq

/-! ### The transaction -/

def s (value : String) : Operand := .value (.s value)

def n (value : ℚ) : Operand := .value (.n value)

/-- The order, the only conditional item. -/
def orderUpdate (order : Order) (now : String) : Update Table where
  table := .orders
  keyAttr := "order_id"
  key := order.orderId
  set :=
    [("customer_id", s order.customerId), ("customer_name", s order.customerName),
      ("opportunity_name", s order.opportunityName), ("total", n order.total.value),
      ("order_date", s order.orderDate), ("version", n order.version),
      ("source_modstamp", s order.sourceModstamp), ("event_key", s order.eventKey),
      ("updated_at", s now), ("created_at", .ifNotExists "created_at" (.s now)),
      ("revision", .plus (.ifNotExists "revision" (.n 0)) (n 1))]
  condition := some (.or (.attributeNotExists "order_id") (.lessThan "version" (.n order.version)))

/-- The invoice mirrors the latest order version. -/
def invoiceUpdate (order : Order) (now : String) : Update Table where
  table := .invoices
  keyAttr := "invoice_id"
  key := invoiceIdFor order.orderId
  set :=
    [("order_id", s order.orderId), ("customer_id", s order.customerId),
      ("amount", n order.total.value), ("issue_date", s order.orderDate), ("status", s "ISSUED"),
      ("version", n order.version), ("event_key", s order.eventKey), ("updated_at", s now),
      ("created_at", .ifNotExists "created_at" (.s now))]
  condition := none

/-- The customer, upserted with no condition of its own. -/
def customerUpdate (order : Order) (now : String) : Update Table where
  table := .customers
  keyAttr := "customer_id"
  key := order.customerId
  set :=
    [("name", s order.customerName), ("last_event_key", s order.eventKey), ("updated_at", s now),
      ("created_at", .ifNotExists "created_at" (.s now))]
  condition := none

def transaction (order : Order) (now : String) : List (Update Table) :=
  [orderUpdate order now, invoiceUpdate order now, customerUpdate order now]

/-! ### What a failed transaction means -/

/-- A failed call as the exception it raises. -/
def raised : Fault → Exn
  | .client response => .clientError response
  | .other typeName message => .other typeName message

/-- `int(stored["version"]["N"]) if stored else -1`. -/
def storedVersion : Option Item → Except Exn Int
  | none => .ok (-1)
  | some item =>
      match item "version" with
      | some (.n version) =>
          if version.den = 1 then .ok version.num
          else .error (.other "ValueError" "invalid literal for int() with base 10")
      | some (.s _) => .error (.other "KeyError" "'N'")
      | none => .error (.other "KeyError" "'version'")

/-- The verdict on a failed condition, from the order stored now. -/
def verdict (order : Order) (stored : Option Item) : Except Exn WriteResult :=
  match storedVersion stored with
  | .error exc => .error exc
  | .ok stored =>
      if stored = order.version then .ok .duplicate
      else if order.version < stored then .ok .stale
      -- The stored version is older, yet the condition failed: the order changed
      -- between our write and our read.
      else .error (.erpUnavailable "order changed during the write; retrying")

def readOrder (orderId : String) : Act (Except Fault (Option Item)) :=
  Act.getItem .orders orderId

/-- `f"transaction cancelled: {codes}"`. -/
def cancelled (printable : Char → Bool) (codes : List String) : String :=
  "transaction cancelled: " ++ String.ofList (repr printable (.arr (codes.map .str)))

/-- A cancelled transaction whose order condition did not fail. -/
def classifyCodes (printable : Char → Bool) (codes : List String) : Exn :=
  if codes.any (· ∈ transientCodes) then .erpUnavailable (cancelled printable codes)
  else if "ValidationError" ∈ codes then .erpRejected (cancelled printable codes)
  else .erpUnavailable (cancelled printable codes)

def code (reason : CancellationReason) : String := reason.code.getD "None"

def classify (printable : Char → Bool) (response : ErrorResponse) (order : Order) :
    Act (Except Exn WriteResult) :=
  if response.code.getD "" = "TransactionCanceledException" then
    match response.reasons with
    | first :: rest =>
        if code first = "ConditionalCheckFailed" then
          match first.item with
          | some item => pure (verdict order (some item))
          | none => do
              match ← readOrder order.orderId with
              | .ok stored => return verdict order stored
              | .error fault => return .error (raised fault)
        else pure (.error (classifyCodes printable ((first :: rest).map code)))
    | [] => pure (.error (classifyCodes printable []))
  else if response.code.getD "" = "ValidationException" then
    pure (.error (.erpRejected (response.message.getD (response.code.getD ""))))
  else if response.code.getD "" ∈ transientErrors then
    pure (.error (.erpUnavailable (response.code.getD "")))
  else pure (.error (.clientError response))

/-- Write the order, invoice and customer in one transaction. -/
def writeOrder (printable : Char → Bool) (order : Order) (now : String) :
    Act (Except Exn WriteResult) := do
  match ← Act.transactWriteItems (transaction order now) with
  | .ok () => return .ok .written
  | .error (.client response) => classify printable response order
  | .error (.other typeName message) => return .error (.other typeName message)

end Relay.Erp
