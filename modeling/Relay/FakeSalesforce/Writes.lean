import Relay.Data.Dict
import Relay.FakeSalesforce.Store

/-!
The writes of the fake Salesforce, as its admin API and its seed make them.

A write takes the clock's time and the store, and gives what it returns or raises,
and the store after it. The values of a payload have the types of their fields or
are null; a key that is missing is `none`. The dictionary of a record is one too,
so that an edit is the record's own values under the changes.
-/

namespace Relay.FakeSalesforce

open Relay.Python Relay.Calendar Relay.Data

/-! ### Payloads -/

/-- A number, finite if it is a `float`. -/
inductive AmountValue where
  | int (i : Int)
  | float (neg : Bool) (x : ℚ)
  | decimal (d : Dec)

inductive DateValue where
  | text (s : String)
  | date (d : Date)

inductive StampValue where
  | text (s : String)
  | datetime (us : Int)

structure AccountData where
  id : Option String
  name : Option (Option String)

structure OpportunityData where
  /-- Null is as good as missing, here and in `systemModstamp`. -/
  id : Option String
  name : Option (Option String)
  accountId : Option (Option String)
  amount : Option (Option AmountValue)
  closeDate : Option (Option DateValue)
  stageName : Option (Option String)
  systemModstamp : Option StampValue
  createdDate : Option (Option StampValue)

/-- No keys. -/
def OpportunityData.empty : OpportunityData := ⟨none, none, none, none, none, none, none, none⟩

/-- The dictionary of a record. -/
def OpportunityRecord.data (opp : OpportunityRecord) : OpportunityData where
  id := opp.id
  name := some opp.name
  accountId := some opp.accountId
  amount := some (opp.amount.map .decimal)
  closeDate := some (opp.closeDate.map .date)
  stageName := some opp.stageName
  systemModstamp := opp.systemModstamp.map .datetime
  createdDate := some (opp.createdDate.map .datetime)

/-- `{**self, **data}` -/
def OpportunityData.over (self data : OpportunityData) : OpportunityData where
  id := data.id <|> self.id
  name := data.name <|> self.name
  accountId := data.accountId <|> self.accountId
  amount := data.amount <|> self.amount
  closeDate := data.closeDate <|> self.closeDate
  stageName := data.stageName <|> self.stageName
  systemModstamp := data.systemModstamp <|> self.systemModstamp
  createdDate := data.createdDate <|> self.createdDate

/-! ### The values of a record -/

/-- `Decimal(str(value))` -/
def AmountValue.toDecimal : AmountValue → Dec
  | int i => .ofInt i
  | float neg x => .ofNumText (reprFinite neg x)
  | decimal d => d

def DateValue.toDate : DateValue → Except Exn Date
  | text s => dateFromIsoformat s.toList
  | date d => .ok d

def StampValue.toDatetime : StampValue → Except Exn Int
  | text s => parseDatetimeLiteral s.toList
  | datetime us => .ok us

/-- A value or null. -/
def orNull {α β : Type} (convert : α → Except Exn β) : Option α → Except Exn (Option β)
  | none => .ok none
  | some value => (convert value).map some

/-- `_stamp` -/
def stampOf (clock : Int) : Option StampValue → Except Exn Int
  | none => .ok clock
  | some value => value.toDatetime

/-- The record of merged values. -/
def OpportunityData.record (oppId : String) (stamp : Int) (opp : OpportunityData) : Except Exn OpportunityRecord := do
  let createdDate ← orNull StampValue.toDatetime (opp.createdDate.getD (some (.datetime stamp)))
  let closeDate ← orNull DateValue.toDate (opp.closeDate.getD none)
  return {
    id := some oppId
    name := opp.name.getD none
    accountId := opp.accountId.getD none
    amount := (opp.amount.getD none).map AmountValue.toDecimal
    closeDate := closeDate
    stageName := opp.stageName.getD none
    systemModstamp := some stamp
    lastModifiedDate := some stamp
    createdDate := createdDate }

/-! ### The store -/

namespace Store

def empty : Store := ⟨[], [], List.nodup_nil, List.nodup_nil⟩

/-- `self.accounts[account_id] = account` -/
def setAccount (store : Store) (accountId : String) (account : AccountRecord) : Store where
  accounts := put accountId account store.accounts
  opportunities := store.opportunities
  accounts_nodup := nodup_put _ _ store.accounts_nodup
  opportunities_nodup := store.opportunities_nodup

/-- `self.opportunities[opp_id] = opp` -/
def setOpportunity (store : Store) (oppId : String) (opp : OpportunityRecord) : Store where
  accounts := store.accounts
  opportunities := put oppId opp store.opportunities
  accounts_nodup := store.accounts_nodup
  opportunities_nodup := nodup_put _ _ store.opportunities_nodup

/-- `self.opportunities.pop(opp_id, None)` -/
def popOpportunity (store : Store) (oppId : String) : Store where
  accounts := store.accounts
  opportunities := remove oppId store.opportunities
  accounts_nodup := store.accounts_nodup
  opportunities_nodup := nodup_remove _ store.opportunities_nodup

/-- A record has this Id. -/
def taken (store : Store) (id : String) : Bool :=
  (store.accounts.lookup id).isSome || (store.opportunities.lookup id).isSome

end Store

/-- The records, and the next of `_ids`. -/
structure StoreState where
  store : Store
  ids : Nat

namespace StoreState

/-- `Store()` -/
def initial : StoreState := ⟨.empty, 1⟩

/-- An Id of 18 characters: a key prefix of 3 and 15 more. -/
def candidate (keyPrefix : String) (n : Nat) : String := keyPrefix ++ "FAKE" ++ String.ofList (padded 11 n)

/-- The first number from `n` on that makes an Id no record has, if there is one within `fuel`. -/
def firstFree (keyPrefix : String) (store : Store) : (fuel n : Nat) → Nat
  | 0, n => n
  | fuel + 1, n => if store.taken (candidate keyPrefix n) then firstFree keyPrefix store fuel (n + 1) else n

/-- `_new_id`: no more candidates are taken than there are records. -/
def newId (keyPrefix : String) (s : StoreState) : String × StoreState :=
  let n := firstFree keyPrefix s.store (s.store.accounts.length + s.store.opportunities.length) s.ids
  (candidate keyPrefix n, { s with ids := n + 1 })

/-- `data.get("Id") or self._new_id(prefix)` -/
def idFor (keyPrefix : String) (id : Option String) (s : StoreState) : String × StoreState :=
  match id with
  | none => s.newId keyPrefix
  | some id => if id = "" then s.newId keyPrefix else (id, s)

def upsertAccount (data : AccountData) (s : StoreState) : AccountRecord × StoreState :=
  let (accountId, s) := s.idFor "001" data.id
  let existing := s.store.accounts.lookup accountId
  let account : AccountRecord := ⟨some accountId, data.name.getD (existing.bind AccountRecord.name)⟩
  (account, { s with store := s.store.setAccount accountId account })

/-- Create or replace an Opportunity. What raises leaves the records as they are. -/
def upsertOpportunity (clock : Int) (data : OpportunityData) (s : StoreState) :
    Except Exn OpportunityRecord × StoreState :=
  let (oppId, s) := s.idFor "006" data.id
  let existing := (s.store.opportunities.lookup oppId).map OpportunityRecord.data
  let built := do
    let stamp ← stampOf clock data.systemModstamp
    ((existing.getD .empty).over data).record oppId stamp
  match built with
  | .error exc => (.error exc, s)
  | .ok opp => (.ok opp, { s with store := s.store.setOpportunity oppId opp })

/-- Apply a user edit: change fields and bump SystemModstamp. -/
def editOpportunity (clock : Int) (oppId : String) (changes : OpportunityData) (systemModstamp : Option StampValue)
    (s : StoreState) : Except Exn OpportunityRecord × StoreState :=
  match s.store.opportunities.lookup oppId with
  | none => (.error (.other "KeyError" oppId), s)
  | some opp =>
      s.upsertOpportunity clock
        { opp.data.over changes with id := some oppId, systemModstamp := systemModstamp }

def deleteOpportunity (oppId : String) (s : StoreState) : Bool × StoreState :=
  ((s.store.opportunities.lookup oppId).isSome, { s with store := s.store.popOpportunity oppId })

def reset (s : StoreState) : StoreState := { s with store := .empty }

/-- Upsert one after another; what raises ends it. -/
def upsertOpportunities (clock : Int) : List OpportunityData → StoreState →
    Except Exn (List OpportunityRecord) × StoreState
  | [], s => (.ok [], s)
  | data :: rest, s =>
      match s.upsertOpportunity clock data with
      | (.error exc, s) => (.error exc, s)
      | (.ok opp, s) =>
          let (result, s) := upsertOpportunities clock rest s
          (result.map (opp :: ·), s)

def upsertAccounts : List AccountData → StoreState → List AccountRecord × StoreState
  | [], s => ([], s)
  | data :: rest, s =>
      let (account, s) := s.upsertAccount data
      let (accounts, s) := upsertAccounts rest s
      (account :: accounts, s)

/-- Accounts, then Opportunities. -/
def load (clock : Int) (accounts : List AccountData) (opportunities : List OpportunityData) (s : StoreState) :
    Except Exn Unit × StoreState :=
  let (_, s) := s.upsertAccounts accounts
  let (result, s) := s.upsertOpportunities clock opportunities
  (result.map fun _ => (), s)

end StoreState

end Relay.FakeSalesforce
