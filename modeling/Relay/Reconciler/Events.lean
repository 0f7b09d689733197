import Relay.Python.Datetime
import Relay.Salesforce.Org

/-!
The SQS message that the reconciler re-enqueues, built in Python.
-/

namespace Relay.Reconciler

open Relay.Json Relay.Python Relay.Calendar Relay.Salesforce

variable {N : Type}

def schema : String := "relay.opportunity.v1"

/-- `value.replace("Z", "+00:00")`. -/
def replaceZ (text : List Char) : List Char :=
  text.flatMap fun c => if c = 'Z' then "+00:00".toList else [c]

/-- Put a colon into an offset `+hhmm` at the end of a text. -/
def colonOffset (text : List Char) : List Char :=
  match text.reverse with
  | m' :: m :: h' :: h :: sign :: rest =>
      if (sign = '+' ∨ sign = '-') ∧ h' ≠ ':' then (m' :: m :: ':' :: h' :: h :: sign :: rest).reverse
      else text
  | _ => text

/-- Parse Salesforce's `2026-09-15T09:00:00.000+0000` (or `...Z`) into UTC. -/
def parseModstamp (value : String) : Except Exn Int :=
  fromisoformat (colonOffset (replaceZ value.toList))

/-- The normalised form of a stamp: UTC, milliseconds, `Z`. -/
def normalised (stamp : Int) : String :=
  String.ofList (strftime stamp ++ ('.' :: (fixed 3 (microsecond stamp / 1000) ++ ['Z'])))

/-- `int(stamp.timestamp() * 1000)`. -/
def version (stamp : Int) : Int := truncate (roundSigned (timestamp stamp * 1000))

/-- `value or ""`. -/
def orEmpty (value : Option String) : String := value.getD ""

/-- `account.get("Name") if isinstance(account, dict) else None`. -/
def accountName : Option (Option String) → Value N
  | some name => jsonText name
  | none => .null

theorem accountName_join (account : Option (Option String)) :
    (accountName account : Value N) = jsonText account.join := by
  rcases account with _ | _ | name <;> rfl

/-- The event of a row and its stamp. -/
def eventOf (row : Row N) (stamp publishedAt : Int) : List (String × Value N) :=
  [("schema", .str schema), ("event_key", .str (row.id ++ ":" ++ normalised stamp)),
    ("version", .int (version stamp)),
    ("opportunity", .obj
      [("id", .str row.id), ("name", .str (orEmpty row.name)),
        ("stage_name", .str (orEmpty row.stageName)), ("amount", jsonNumber row.amount),
        ("close_date", jsonText row.closeDate), ("account_id", jsonText row.accountId),
        ("account_name", accountName row.account),
        ("system_modstamp", .str (normalised stamp))]),
    ("published_at", .str (String.ofList (strftime publishedAt ++ ['Z'])))]

/-- The event of a Salesforce row. -/
def fromSalesforce (row : Row N) (publishedAt : Int) : Except Exn (List (String × Value N)) :=
  match parseModstamp row.systemModstamp with
  | .error exc => .error exc
  | .ok stamp => .ok (eventOf row stamp publishedAt)

end Relay.Reconciler
