import Relay.Platform.Interface

/-!
The Go client's view of the records of a query.

Decoding follows `json.Unmarshal` into a struct: each member sets the field of
its key, null leaves a text as it is and makes a pointer nil, and a value of
another type is an error.
-/

namespace Relay.Salesforce

open Relay.Json Relay.Effect Relay.Platform

variable {N : Type}

/-- The parent relationship selected as Account.Name. -/
structure Account where
  name : String
deriving DecidableEq

/-- One row of the ingest query. Nullable fields are pointers. -/
structure Opportunity (N : Type) where
  id : String
  name : String
  accountId : Option String
  account : Option Account
  amount : Option (Number N)
  closeDate : Option String
  stageName : String
  systemModstamp : String

namespace Opportunity

def zero : Opportunity N := ⟨"", "", none, none, none, none, "", ""⟩

def typeError : String := "json: cannot unmarshal value into Go value of another type"

/-- A `string`. -/
def setString (old : String) : Value N → Except String String
  | .null => .ok old
  | .str s => .ok s
  | _ => .error typeError

/-- A `*string`. -/
def setPointer : Value N → Except String (Option String)
  | .null => .ok none
  | .str s => .ok (some s)
  | _ => .error typeError

/-- A `*json.Number`. -/
def setNumber : Value N → Except String (Option (Number N))
  | .null => .ok none
  | .int i => .ok (some (.int i))
  | .num x => .ok (some (.num x))
  | _ => .error typeError

/-- The members of an `Account`. -/
def setAccountMembers (old : Account) : List (String × Value N) → Except String Account
  | [] => .ok old
  | (key, v) :: rest =>
      if key = "Name" then do
        let name ← setString old.name v
        setAccountMembers ⟨name⟩ rest
      else setAccountMembers old rest

/-- An `*Account`. -/
def setAccount (old : Option Account) : Value N → Except String (Option Account)
  | .null => .ok none
  | .obj members => (setAccountMembers (old.getD ⟨""⟩) members).map some
  | _ => .error typeError

/-- One member of a record; other keys are ignored. -/
def setField (o : Opportunity N) (key : String) (v : Value N) : Except String (Opportunity N) :=
  match key with
  | "Id" => (setString o.id v).map fun id => { o with id := id }
  | "Name" => (setString o.name v).map fun name => { o with name := name }
  | "AccountId" => (setPointer v).map fun accountId => { o with accountId := accountId }
  | "Account" => (setAccount o.account v).map fun account => { o with account := account }
  | "Amount" => (setNumber v).map fun amount => { o with amount := amount }
  | "CloseDate" => (setPointer v).map fun closeDate => { o with closeDate := closeDate }
  | "StageName" => (setString o.stageName v).map fun stageName => { o with stageName := stageName }
  | "SystemModstamp" =>
      (setString o.systemModstamp v).map fun systemModstamp => { o with systemModstamp := systemModstamp }
  | _ => .ok o

def setFields (o : Opportunity N) : List (String × Value N) → Except String (Opportunity N)
  | [] => .ok o
  | (key, v) :: rest => do
      let o ← o.setField key v
      setFields o rest

def unmarshal : Value N → Except String (Opportunity N)
  | .null => .ok zero
  | .obj members => setFields zero members
  | _ => .error typeError

end Opportunity

def unmarshalAll : List (Value N) → Except String (List (Opportunity N))
  | [] => .ok []
  | v :: rest => do
      let o ← Opportunity.unmarshal v
      let os ← unmarshalAll rest
      return o :: os

/-- Run a SOQL query to its last page. -/
def queryAll (soql : Soql) : Act (Except String (List (Opportunity Token))) := do
  match ← Act.queryAll soql with
  | .error err => return .error err
  | .ok records => return unmarshalAll records

/-! ### The records of a row -/

@[simp] theorem setString_str (old s : String) :
    Opportunity.setString old (.str s : Value N) = .ok s := rfl

theorem setString_jsonText (text : Option String) :
    Opportunity.setString "" (jsonText text : Value N) = .ok (text.getD "") := by
  cases text <;> rfl

theorem setPointer_jsonText (text : Option String) :
    Opportunity.setPointer (jsonText text : Value N) = .ok text := by
  cases text <;> rfl

theorem setNumber_jsonNumber (amount : Option (Number N)) :
    Opportunity.setNumber (jsonNumber amount) = .ok amount := by
  rcases amount with _ | _ | _ <;> rfl

theorem setAccount_jsonAccount (account : Option (Option String)) :
    Opportunity.setAccount none (jsonAccount account : Value N) =
      .ok (account.map fun name => ⟨name.getD ""⟩) := by
  rcases account with _ | _ | _ <;> rfl

/-- What Go decodes of a row: a null text is empty. -/
theorem unmarshal_row (row : Row N) :
    Opportunity.unmarshal row.json = .ok {
      id := row.id
      name := row.name.getD ""
      accountId := row.accountId
      account := row.account.map fun name => ⟨name.getD ""⟩
      amount := row.amount
      closeDate := row.closeDate
      stageName := row.stageName.getD ""
      systemModstamp := row.systemModstamp } := by
  simp only [Row.json, Opportunity.unmarshal, Opportunity.setFields, Opportunity.setField,
    Opportunity.zero, setString_jsonText, setPointer_jsonText, setNumber_jsonNumber,
    setAccount_jsonAccount, setString_str, Except.map, bind, Except.bind]

end Relay.Salesforce
