import Relay.Calendar.DateTime
import Relay.Json.Value

/-!
The Salesforce org, as queries see it.

A `Deal` is one Opportunity. Salesforce stamps whole seconds, but nothing here
relies on it: `systemModstamp` counts milliseconds, the resolution of the wire
format. `Row` is one record of the WON query's answer, over any type of numbers,
and `Row.json` its JSON.
-/

namespace Relay.Salesforce

open Relay.Json Relay.Calendar

structure Deal where
  id : String
  name : Option String
  stageName : Option String
  isWon : Bool
  amount : Option NumText
  closeDate : Option String
  accountId : Option String
  /-- The name of the parent account, when there is one. -/
  account : Option (Option String)
  systemModstamp : Int
deriving DecidableEq

/-- A datetime as the REST API returns it: `2026-09-15T09:00:00.000+0000`. -/
def wireText (ms : Int) : String :=
  String.ofList ((DateTime.ofSeconds (ms / 1000)).text ++
    ('.' :: (fixed 3 (ms % 1000).toNat ++ "+0000".toList)))

/-- One record of `SELECT Id, Name, AccountId, Account.Name, Amount, CloseDate,
StageName, SystemModstamp FROM Opportunity`. -/
structure Row (N : Type) where
  id : String
  name : Option String
  stageName : Option String
  amount : Option (Number N)
  closeDate : Option String
  accountId : Option String
  account : Option (Option String)
  systemModstamp : String

def Deal.row (d : Deal) : Row Token where
  id := d.id
  name := d.name
  stageName := d.stageName
  amount := d.amount.map fun t => .num (.number t)
  closeDate := d.closeDate
  accountId := d.accountId
  account := d.account
  systemModstamp := wireText d.systemModstamp

variable {N M : Type}

/-- The row with another amount. -/
def Row.withAmount (row : Row N) (amount : Option (Number M)) : Row M :=
  ⟨row.id, row.name, row.stageName, amount, row.closeDate, row.accountId, row.account,
    row.systemModstamp⟩

/-- A text, or null. -/
def jsonText : Option String → Value N
  | some s => .str s
  | none => .null

/-- A number, or null. -/
def jsonNumber : Option (Number N) → Value N
  | some x => x.value
  | none => .null

/-- A parent record, or null. -/
def jsonAccount : Option (Option String) → Value N
  | some name => .obj [("Name", jsonText name)]
  | none => .null

def Row.json (r : Row N) : Value N :=
  .obj [("Id", .str r.id), ("Name", jsonText r.name), ("AccountId", jsonText r.accountId),
    ("Account", jsonAccount r.account), ("Amount", jsonNumber r.amount),
    ("CloseDate", jsonText r.closeDate), ("StageName", jsonText r.stageName),
    ("SystemModstamp", .str r.systemModstamp)]

end Relay.Salesforce
