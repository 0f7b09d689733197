import Relay.Events.Shape
import Relay.Json.RoundTrip
import Relay.Platform.Interface
import Relay.Python.Json

/-!
The reconciler's Salesforce client.

`query_all` decodes the records of an answer with `json.loads`. `readRow` takes
the fields that the reconciler looks up from a decoded record of the WON query.
-/

namespace Relay.Reconciler

open Relay.Json Relay.Python Relay.Platform Relay.Effect Relay.Salesforce Relay.Events

/-- A record as `json.loads` decodes it. -/
def load (record : Json.Value Token) : Except Exn Obj :=
  record.decoded fun t => (loadNumber t).map Number.value

def loadAll : List (Json.Value Token) → Except Exn (List Obj)
  | [] => .ok []
  | record :: rest =>
      match load record with
      | .error exc => .error exc
      | .ok row => (loadAll rest).map (row :: ·)

/-- The records of every page of an answer. -/
def queryAll (soql : Soql) : Act (Except Exn (List Obj)) := do
  match ← Act.queryAll soql with
  | .error err => return .error (.other "SalesforceError" err)
  | .ok records => return loadAll records

/-! ### The fields of a record -/

/-- A text or null. -/
def readText : Obj → Option (Option String)
  | .null => some none
  | .str s => some (some s)
  | _ => none

/-- A number or null. -/
def readNumber : Obj → Option (Option (Number PyNum))
  | .null => some none
  | .int i => some (some (.int i))
  | .num x => some (some (.num x))
  | _ => none

/-- A dictionary's `Name`; whatever is no dictionary is no account. -/
def readAccount : Obj → Option (Option (Option String))
  | .obj members => (readText (dictGet "Name" members)).map some
  | _ => some none

/-- A record of the WON query; `none` is a record of another shape. -/
def rowOf (row : List (String × Obj)) : Option (Row PyNum) := do
  let id ← readText (dictGet "Id" row)
  let id ← id
  let name ← readText (dictGet "Name" row)
  let stageName ← readText (dictGet "StageName" row)
  let amount ← readNumber (dictGet "Amount" row)
  let closeDate ← readText (dictGet "CloseDate" row)
  let accountId ← readText (dictGet "AccountId" row)
  let account ← readAccount (dictGet "Account" row)
  let systemModstamp ← readText (dictGet "SystemModstamp" row)
  let systemModstamp ← systemModstamp
  return ⟨id, name, stageName, amount, closeDate, accountId, account, systemModstamp⟩

def readRow : Obj → Except Exn (Row PyNum)
  | .obj members =>
      match rowOf members with
      | some row => .ok row
      | none => .error (.other "KeyError" "record")
  | _ => .error (.other "TypeError" "record")

def readRows : List Obj → Except Exn (List (Row PyNum))
  | [] => .ok []
  | row :: rest =>
      match readRow row with
      | .error exc => .error exc
      | .ok row => (readRows rest).map (row :: ·)

/-! ### The rows of an answer -/

/-- A row whose amount `json.loads` decoded. -/
def loadRow (row : Row Token) : Except Exn (Row PyNum) :=
  match row.amount with
  | none => .ok (row.withAmount none)
  | some amount => (loadNumber amount.token).map fun amount => row.withAmount (some amount)

theorem decode_jsonAccount {E M N : Type} (g : Int → Except E (Json.Value M))
    (f : N → Except E (Json.Value M)) (account : Option (Option String)) :
    (jsonAccount account).decode g f = .ok (jsonAccount account) := by
  rcases account with _ | _ | name <;> rfl

theorem decode_jsonNumber (amount : Option (Number Token)) :
    (jsonNumber amount).decode (fun i => (loadNumber (.number (.ofInt i))).map Number.value)
        (fun t => (loadNumber t).map Number.value) =
      match amount with
      | none => .ok .null
      | some amount => (loadNumber amount.token).map Number.value := by
  rcases amount with _ | _ | _ <;> rfl

/-- Decoding a record decodes its amount. -/
theorem load_row (row : Row Token) : load row.json = (loadRow row).map Row.json := by
  simp only [load, Value.decoded, Row.json, Value.decode, decodeMembers, decode_jsonText,
    decode_jsonAccount, decode_jsonNumber, loadRow]
  rcases row.amount with _ | amount
  · simp only [Except.map]
    rw [dictOf_of_nodup (by simp)]
    rfl
  · cases loaded : loadNumber amount.token with
    | error exc => simp only [loaded, Except.map]
    | ok number =>
        simp only [loaded, Except.map]
        rw [dictOf_of_nodup (by simp)]
        rfl

theorem readText_jsonText (text : Option String) : readText (jsonText text) = some text := by
  cases text <;> rfl

theorem readNumber_jsonNumber (amount : Option (Number PyNum)) :
    readNumber (jsonNumber amount) = some amount := by
  rcases amount with _ | _ | _ <;> rfl

theorem readAccount_jsonAccount (account : Option (Option String)) :
    readAccount (jsonAccount account) = some account := by
  rcases account with _ | _ | _ <;> rfl

/-- The lookups in a record give back the row it shows. -/
theorem readRow_row (row : Row PyNum) : readRow row.json = .ok row := by
  have id : readText (.str row.id : Obj) = some (some row.id) := rfl
  have stamp : readText (.str row.systemModstamp : Obj) = some (some row.systemModstamp) := rfl
  have read : rowOf [("Id", .str row.id), ("Name", jsonText row.name), ("AccountId", jsonText row.accountId),
      ("Account", jsonAccount row.account), ("Amount", jsonNumber row.amount),
      ("CloseDate", jsonText row.closeDate), ("StageName", jsonText row.stageName),
      ("SystemModstamp", .str row.systemModstamp)] = some row := by
    simp [rowOf, dictGet, List.lookup_cons, readText_jsonText, readNumber_jsonNumber,
      readAccount_jsonAccount, id, stamp]
  rw [Row.json, readRow, read]

/-- The rows of an answer to the WON query are those of its deals. -/
theorem forall₂_readRows {deals : List Deal} {records : List Obj} {rows : List (Row PyNum)}
    (loaded : loadAll (deals.map fun d => d.row.json) = .ok records) (read : readRows records = .ok rows) :
    List.Forall₂ (fun d row => loadRow d.row = .ok row) deals rows := by
  induction deals generalizing records rows with
  | nil =>
      cases loaded
      cases read
      exact .nil
  | cons d rest ih =>
      rw [List.map_cons, loadAll, load_row] at loaded
      cases first : loadRow d.row with
      | error exc =>
          rw [first] at loaded
          cases loaded
      | ok row =>
          rw [first] at loaded
          cases others : loadAll (rest.map fun d => d.row.json) with
          | error exc =>
              rw [others] at loaded
              cases loaded
          | ok records' =>
              rw [others] at loaded
              cases loaded
              simp only [readRows, readRow_row] at read
              cases more : readRows records' with
              | error exc =>
                  rw [more] at read
                  cases read
              | ok rows' =>
                  rw [more] at read
                  cases read
                  exact .cons first (ih others more)

end Relay.Reconciler
