import Relay.Erp.Writer
import Relay.Json.Scan
import Relay.Python.Json

/-!
Validate an event and map Salesforce fields to ERP fields.

Anything that makes an event unmappable raises `PermanentError`. Two things that
go wrong inside the JSON decoder are other exceptions: an integer with more
digits than the interpreter converts, and a decimal whose exponent does not fit.
-/

namespace Relay.Worker

open Relay.Json Relay.Python Relay.Erp

/-- What the interpreter brings: the Unicode database and the recursion limit. -/
structure Runtime where
  printable : Char → Bool
  depth : Nat

def schema : String := "relay.opportunity.v1"

/-! ### `parse_body` -/

/-- A number of a document: `int` without fraction and exponent, else `Decimal`. -/
def parseNumber : Token → Except Exn (Number PyNum)
  | .number t =>
      if t.isInt then (int t).map .int
      else if (Dec.ofNumText t).fits then .ok (.num (.decimal (.ofNumText t)))
      else .error (.other "InvalidOperation" "[<class 'decimal.InvalidOperation'>]")
  | .nan => .ok (.num (.float .nan))
  | .infinity => .ok (.num (.float (.infinity false)))
  | .negInfinity => .ok (.num (.float (.infinity true)))

/-- `str(exc)` of a `JSONDecodeError`: its message and where it stands. -/
def decodeErrorText (msg : String) (body : List Char) (left : Nat) : String :=
  let before := body.take (body.length - left)
  let line := before.count '\n' + 1
  let column := (before.reverse.takeWhile (· ≠ '\n')).length + 1
  msg ++ ": line " ++ toString line ++ " column " ++ toString column ++ " (char " ++
    toString before.length ++ ")"

/-- Parse a message body. -/
def parseBody (rt : Runtime) (body : String) : Except Exn (List (String × Obj)) :=
  match loads (fun t => (parseNumber t).map Number.value) rt.depth body.toList with
  | .ok (.obj event) => .ok event
  | .ok _ => .error (.permanentError "malformed_json" "body is not a JSON object")
  | .error (.syntaxError msg left) =>
      .error (.permanentError "malformed_json" (decodeErrorText msg body.toList left))
  | .error (.number exc) => .error exc
  | .error .tooDeep => .error (.other "RecursionError" "maximum recursion depth exceeded")

/-! ### `to_order` -/

def requiredStr (obj : List (String × Obj)) (name : String) : Except Exn String :=
  match dictGet name obj with
  | .str value => if value = "" then .error (.permanentError "missing_field" name) else .ok value
  | _ => .error (.permanentError "missing_field" name)

def invalidAmount : Exn := .permanentError "invalid_field" "amount"

/-- A finite decimal that is not negative. -/
def nonNegative (total : Dec) : Except Exn Dec :=
  if total.isNegative then .error invalidAmount else .ok total

/-- An amount as a `Decimal`: `Decimal(str(value))`, which gives an integer or a
decimal back, and reads the shortest text of a float. -/
def amount : Obj → Except Exn Dec
  | .int i => nonNegative (.ofInt i)
  | .num (.decimal d) => nonNegative d
  | .num (.float (.finite neg x)) => nonNegative (.ofNumText (reprFinite neg x))
  | .str text =>
      match decimal text.toList with
      | some (.finite d) => nonNegative d
      | _ => .error invalidAmount
  | _ => .error invalidAmount

/-- `^\d{4}-\d{2}-\d{2}$`: digits of any script, and perhaps a line feed at the
end. -/
def isDate (text : String) : Bool :=
  match text.toList with
  | a :: b :: c :: d :: '-' :: e :: f :: '-' :: g :: h :: rest =>
      [a, b, c, d, e, f, g, h].all (fun c => (digit? c).isSome) && (rest = [] || rest = ['\n'])
  | _ => false

/-- `bool(value)`. -/
def truthy : Obj → Bool
  | .null => false
  | .bool b => b
  | .int i => i != 0
  | .num (.decimal d) => d.coeff != 0
  | .num (.float (.finite _ x)) => decide (x ≠ 0)
  | .num (.float _) => true
  | .str s => s != ""
  | .arr items => !items.isEmpty
  | .obj members => !members.isEmpty

/-- `str(value or "")`. -/
def strOrEmpty (rt : Runtime) (value : Obj) : String :=
  if truthy value then str rt.printable value else ""

/-- The deal of an event. -/
def opportunityOf (rt : Runtime) (event : List (String × Obj)) : Except Exn (List (String × Obj)) :=
  match dictGet "schema" event with
  | .str name =>
      if name = schema then
        match dictGet "opportunity" event with
        | .obj opp => .ok opp
        | _ => .error (.permanentError "missing_field" "opportunity")
      else .error (.permanentError "unknown_schema" name)
  | other => .error (.permanentError "unknown_schema" (str rt.printable other))

/-- The version of an event. -/
def versionOf (event : List (String × Obj)) : Except Exn Int :=
  match dictGet "version" event with
  | .int version =>
      if 0 < version then .ok version else .error (.permanentError "invalid_field" "version")
  | _ => .error (.permanentError "invalid_field" "version")

/-- The amount of a deal that has an account. -/
def totalOf (opp : List (String × Obj)) : Except Exn Dec :=
  match dictGet "account_id" opp with
  | .null => .error (.permanentError "missing_account" "the deal has no Account")
  | .str "" => .error (.permanentError "missing_account" "the deal has no Account")
  | _ =>
      match dictGet "amount" opp with
      | .null => .error (.permanentError "missing_amount" "the deal has no Amount")
      | value => amount value

def closeDateOf (opp : List (String × Obj)) : Except Exn String := do
  let closeDate ← requiredStr opp "close_date"
  if isDate closeDate then return closeDate
  else throw (.permanentError "invalid_field" "close_date")

/-- Validate one event and map it to an ERP order. -/
def toOrder (rt : Runtime) (event : List (String × Obj)) : Except Exn Order := do
  let opp ← opportunityOf rt event
  let orderId ← requiredStr opp "id"
  let eventKey ← requiredStr event "event_key"
  let version ← versionOf event
  let total ← totalOf opp
  let closeDate ← closeDateOf opp
  let customerId ← requiredStr opp "account_id"
  let customerName ← requiredStr opp "account_name"
  let sourceModstamp ← requiredStr opp "system_modstamp"
  return {
    orderId := orderId
    customerId := customerId
    customerName := customerName
    opportunityName := strOrEmpty rt (dictGet "name" opp)
    total := total
    orderDate := closeDate
    version := version
    sourceModstamp := sourceModstamp
    eventKey := eventKey }

/-- The order of a message body. -/
def orderOf (rt : Runtime) (body : String) : Except Exn Order :=
  match parseBody rt body with
  | .ok event => toOrder rt event
  | .error exc => .error exc

/-! ### Errors -/

/-- Every error of a computation is a `PermanentError`. -/
def Permanent {α : Type} (result : Except Exn α) : Prop :=
  ∀ exc, result = .error exc → ∃ reason detail, exc = .permanentError reason detail

theorem permanent_ok {α : Type} (value : α) : Permanent (.ok value) := by
  rintro exc ⟨⟩

theorem permanent_error {α : Type} (reason detail : String) :
    Permanent (.error (.permanentError reason detail) : Except Exn α) := by
  rintro exc ⟨⟩
  exact ⟨reason, detail, rfl⟩

theorem Permanent.bind {α β : Type} {first : Except Exn α} {next : α → Except Exn β}
    (start : Permanent first) (rest : ∀ value, Permanent (next value)) : Permanent (first >>= next) := by
  intro exc failed
  cases first with
  | error exc' =>
      cases failed
      exact start exc rfl
  | ok value => exact rest value exc failed

theorem permanent_requiredStr (members : List (String × Obj)) (name : String) :
    Permanent (requiredStr members name) := by
  unfold requiredStr
  split
  · split
    · exact permanent_error _ _
    · exact permanent_ok _
  · exact permanent_error _ _

theorem permanent_opportunityOf (rt : Runtime) (event : List (String × Obj)) :
    Permanent (opportunityOf rt event) := by
  unfold opportunityOf
  split
  · split
    · split
      · exact permanent_ok _
      · exact permanent_error _ _
    · exact permanent_error _ _
  · exact permanent_error _ _

theorem permanent_versionOf (event : List (String × Obj)) : Permanent (versionOf event) := by
  unfold versionOf
  split
  · split
    · exact permanent_ok _
    · exact permanent_error _ _
  · exact permanent_error _ _

theorem permanent_nonNegative (total : Dec) : Permanent (nonNegative total) := by
  unfold nonNegative
  split
  · exact permanent_error _ _
  · exact permanent_ok _

theorem permanent_amount (value : Obj) : Permanent (amount value) := by
  unfold amount
  split
  · exact permanent_nonNegative _
  · exact permanent_nonNegative _
  · exact permanent_nonNegative _
  · split
    · exact permanent_nonNegative _
    · exact permanent_error _ _
  · exact permanent_error _ _

theorem permanent_totalOf (opp : List (String × Obj)) : Permanent (totalOf opp) := by
  unfold totalOf
  split
  · exact permanent_error _ _
  · exact permanent_error _ _
  · split
    · exact permanent_error _ _
    · exact permanent_amount _

theorem permanent_closeDateOf (opp : List (String × Obj)) : Permanent (closeDateOf opp) := by
  refine (permanent_requiredStr opp "close_date").bind fun closeDate => ?_
  split
  · exact permanent_ok _
  · exact permanent_error _ _

/-- An event that cannot be mapped raises a `PermanentError`. -/
theorem permanent_toOrder (rt : Runtime) (event : List (String × Obj)) :
    Permanent (toOrder rt event) := by
  refine (permanent_opportunityOf rt event).bind fun opp => ?_
  refine (permanent_requiredStr opp "id").bind fun _ => ?_
  refine (permanent_requiredStr event "event_key").bind fun _ => ?_
  refine (permanent_versionOf event).bind fun _ => ?_
  refine (permanent_totalOf opp).bind fun _ => ?_
  refine (permanent_closeDateOf opp).bind fun _ => ?_
  refine (permanent_requiredStr opp "account_id").bind fun _ => ?_
  refine (permanent_requiredStr opp "account_name").bind fun _ => ?_
  refine (permanent_requiredStr opp "system_modstamp").bind fun _ => ?_
  exact permanent_ok _

end Relay.Worker
