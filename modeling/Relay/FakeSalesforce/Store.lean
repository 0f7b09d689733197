import Mathlib.Data.Prod.Lex
import Mathlib.Data.String.Basic
import Relay.Data.StableSort
import Relay.FakeSalesforce.Soql

/-!
The records of the fake Salesforce, and how it answers a query.

Every field of a record has a value of its type or null. Python compares two values
of a type in the order of their `key`: texts by code point, decimals by value, dates
by year, month and day.
-/

namespace Relay.FakeSalesforce

open Relay.Json Relay.Python Relay.Calendar Relay.Data

/-! ### Records -/

structure AccountRecord where
  id : Option String
  name : Option String
deriving DecidableEq

structure OpportunityRecord where
  id : Option String
  name : Option String
  accountId : Option String
  amount : Option Dec
  closeDate : Option Date
  stageName : Option String
  systemModstamp : Option Int
  lastModifiedDate : Option Int
  createdDate : Option Int
deriving DecidableEq

/-- The dictionaries of records, in the order of insertion. -/
structure Store where
  accounts : List (String × AccountRecord)
  opportunities : List (String × OpportunityRecord)
  accounts_nodup : (accounts.map Prod.fst).Nodup
  opportunities_nodup : (opportunities.map Prod.fst).Nodup

def wonStage : String := "Closed Won"

def closedStages : List String := ["Closed Won", "Closed Lost"]

namespace Store

variable (store : Store)

/-- `self.opportunities.values()`. -/
def records : List OpportunityRecord := store.opportunities.map Prod.snd

/-- `self.accounts.get(opp.get("AccountId") or "")`. -/
def accountOf (opp : OpportunityRecord) : Option AccountRecord := store.accounts.lookup (opp.accountId.getD "")

def fieldValue (opp : OpportunityRecord) : (f : Field) → Option f.ftype.Val
  | .id => opp.id
  | .name => opp.name
  | .accountId => opp.accountId
  | .amount => opp.amount
  | .closeDate => opp.closeDate
  | .stageName => opp.stageName
  | .isWon => some (decide (opp.stageName = some wonStage))
  | .isClosed => some (opp.stageName.any closedStages.contains)
  | .systemModstamp => opp.systemModstamp
  | .lastModifiedDate => opp.lastModifiedDate
  | .createdDate => opp.createdDate
  | .accountDotId => (store.accountOf opp).bind AccountRecord.id
  | .accountDotName => (store.accountOf opp).bind AccountRecord.name

end Store

/-! ### Comparing -/

/-- What the values of a type are compared by. -/
@[reducible] def FieldType.Key : FieldType → Type
  | .id => String
  | .string => String
  | .currency => ℚ
  | .date => ℤ ×ₗ ℕ ×ₗ ℕ
  | .picklist => String
  | .boolean => Bool
  | .datetime => ℤ

instance : (t : FieldType) → LinearOrder t.Key
  | .id => inferInstanceAs (LinearOrder String)
  | .string => inferInstanceAs (LinearOrder String)
  | .currency => Rat.linearOrder
  | .date =>
      @Prod.Lex.instLinearOrder ℤ (ℕ ×ₗ ℕ) Int.instLinearOrder
        (@Prod.Lex.instLinearOrder ℕ ℕ Nat.instLinearOrder Nat.instLinearOrder)
  | .picklist => inferInstanceAs (LinearOrder String)
  | .boolean => Bool.linearOrder
  | .datetime => Int.instLinearOrder

def key : (t : FieldType) → t.Val → t.Key
  | .id, text => text
  | .string, text => text
  | .currency, d => d.value
  | .date, d => toLex (d.year, toLex (d.month, d.day))
  | .picklist, text => text
  | .boolean, b => b
  | .datetime, us => us

/-- `value == target`. -/
def equal (t : FieldType) (value target : Option t.Val) : Bool := decide (value.map (key t) = target.map (key t))

/-- An ordering comparison, which never matches null. -/
def ordering {t : FieldType} (holds : t.Key → t.Key → Bool) : Option t.Val → Option t.Val → Bool
  | some value, some target => holds (key t value) (key t target)
  | _, _ => false

/-- `_matches` -/
def matchesTest {t : FieldType} (value : Option t.Val) : Test t → Bool
  | .isIn values => (asText t value).any values.contains
  | .compare .eq target => equal t value target
  | .compare .ne target => !equal t value target
  | .compare .ge target => ordering (fun a b => decide (b ≤ a)) value target
  | .compare .gt target => ordering (fun a b => decide (b < a)) value target
  | .compare .le target => ordering (fun a b => decide (a ≤ b)) value target
  | .compare .lt target => ordering (fun a b => decide (a < b)) value target

/-! ### Sorting -/

/-- `(value is not None, value if value is not None else 0)` in the order of tuples. -/
def sortKeyLe {t : FieldType} : Option t.Val → Option t.Val → Prop
  | none, _ => True
  | some _, none => False
  | some a, some b => key t a ≤ key t b

instance {t : FieldType} : DecidableRel (@sortKeyLe t)
  | none, _ => .isTrue trivial
  | some _, none => .isFalse not_false
  | some a, some b => inferInstanceAs (Decidable (key t a ≤ key t b))

theorem sortKeyLe_total {t : FieldType} (a b : Option t.Val) : sortKeyLe a b ∨ sortKeyLe b a := by
  cases a with
  | none => exact .inl trivial
  | some a =>
      cases b with
      | none => exact .inr trivial
      | some b => exact le_total (key t a) (key t b)

theorem sortKeyLe_trans {t : FieldType} {a b c : Option t.Val} (first : sortKeyLe a b) (second : sortKeyLe b c) :
    sortKeyLe a c := by
  cases a with
  | none => exact trivial
  | some a =>
      cases b with
      | none => exact absurd first not_false
      | some b =>
          cases c with
          | none => exact absurd second not_false
          | some c => exact le_trans (α := t.Key) first second

namespace Store

variable (store : Store)

/-- `result.sort(key=self._sort_key(key.field), reverse=key.descending)`: reversed or not, a sort
is stable. -/
def sortKey (orderBy : OrderBy) : Key OpportunityRecord where
  le a b :=
    if orderBy.descending then sortKeyLe (store.fieldValue b orderBy.field) (store.fieldValue a orderBy.field)
    else sortKeyLe (store.fieldValue a orderBy.field) (store.fieldValue b orderBy.field)
  dec a b := by infer_instance
  total a b := by
    split
    · exact sortKeyLe_total _ _
    · exact sortKeyLe_total _ _
  trans a b c first second := by
    split_ifs at first second ⊢
    · exact sortKeyLe_trans second first
    · exact sortKeyLe_trans first second

/-- `_sorted`: stable sorts by the keys from the last to the first. -/
def sorted (records : List OpportunityRecord) (orderBy : List OrderBy) : List OpportunityRecord :=
  sortAll (orderBy.map store.sortKey) records

end Store

/-! ### Answers -/

/-- Salesforce's wire format: `2026-09-22T10:00:00.000+0000`. -/
def formatDatetime (us : Int) : String :=
  String.ofList (strftime us ++ ('.' :: (fixed 3 (microsecond us / 1000) ++ "+0000".toList)))

/-- `d.isoformat()` of a date. -/
def isoformatDate (d : Date) : String :=
  String.ofList (fixed 4 d.year.toNat ++ ('-' :: (fixed 2 d.month ++ ('-' :: fixed 2 d.day))))

/-- `_to_json` -/
def toJson : (t : FieldType) → Option t.Val → Obj
  | _, none => .null
  | .id, some text => .str text
  | .string, some text => .str text
  | .currency, some d => .num (.float (.ofRat d.neg |d.value|))
  | .date, some d => .str (isoformatDate d)
  | .picklist, some text => .str text
  | .boolean, some b => .bool b
  | .datetime, some us => .str (formatDatetime us)

/-- `str(text)` in a formatted string. -/
def formatted (text : Option String) : String := text.getD "None"

def attributes (typeName apiVersion : String) (id : Option String) : Obj :=
  .obj [("type", .str typeName),
    ("url", .str ("/services/data/" ++ apiVersion ++ "/sobjects/" ++ typeName ++ "/" ++ formatted id))]

/-- The name of a field of the account: what follows `Account.`. -/
def accountField : Field → Option String
  | .accountDotId => some "Id"
  | .accountDotName => some "Name"
  | _ => none

namespace Store

variable (store : Store)

/-- One field of the answer; a field of the account is only announced. -/
def projectField (opp : OpportunityRecord) (out : List (String × Obj)) (f : Field) : List (String × Obj) :=
  match accountField f with
  | some _ => if out.any fun entry => entry.1 = "Account" then out else dictInsert "Account" .null out
  | none => dictInsert f.apiName (toJson f.ftype (store.fieldValue opp f)) out

/-- One field of the nested account. -/
def projectAccount (account : AccountRecord) (nested : List (String × Obj)) (name : String) : List (String × Obj) :=
  dictInsert name (toJson .string (if name = "Id" then account.id else account.name)) nested

/-- `project`: one record in the shape of the REST API's answer. -/
def project (opp : OpportunityRecord) (fields : List Field) (apiVersion : String) : List (String × Obj) :=
  let out := fields.foldl (store.projectField opp) [("attributes", attributes "Opportunity" apiVersion opp.id)]
  let accountFields := fields.filterMap accountField
  match store.accountOf opp with
  | none => out
  | some account =>
      if accountFields = [] then out
      else
        dictInsert "Account"
          (.obj (accountFields.foldl (projectAccount account)
            [("attributes", attributes "Account" apiVersion account.id)])) out

def satisfies (conditions : List Condition) (opp : OpportunityRecord) : Bool :=
  conditions.all fun c => matchesTest (store.fieldValue opp c.field) c.test

def runQuery (query : Query) (apiVersion : String) : List (List (String × Obj)) :=
  let rows := store.sorted (store.records.filter (store.satisfies query.conditions)) query.orderBy
  let rows := match query.limit with
    | none => rows
    | some limit => rows.take limit
  rows.map fun opp => store.project opp query.fields apiVersion

end Store

end Relay.FakeSalesforce
