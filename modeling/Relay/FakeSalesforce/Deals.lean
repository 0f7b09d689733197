import Relay.FakeSalesforce.Site
import Relay.Ingest.WindowQuery
import Relay.Reconciler.StageQueries

/-!
The deals that the fake Salesforce shows.

An answer of the fake server has more members than the rows that Salesforce's
answers are modelled by, and another order of them. Both clients read the two alike
(`alike_won`, `alike_stage`), and the rows of a query are those that it selects from
the deals of the store (`answer_selects`).
-/

namespace Relay.FakeSalesforce

open Relay.Json Relay.Python Relay.Numeric Relay.Calendar Relay.Salesforce Relay.Reconciler

/-! ### Deals -/

/-- What `json.dumps(float(d))` writes. -/
def amountText (d : Dec) : NumText := reprFinite d.neg (round64 |d.value|)

namespace Store

def dealOf (store : Store) (opp : OpportunityRecord) : Deal where
  id := opp.id.getD ""
  name := opp.name
  stageName := opp.stageName
  isWon := decide (opp.stageName = some wonStage)
  amount := opp.amount.map amountText
  closeDate := opp.closeDate.map isoformatDate
  accountId := opp.accountId
  account := (store.accountOf opp).map AccountRecord.name
  systemModstamp := opp.systemModstamp.getD 0 / 1000

/-- The org that queries show. -/
def deals (store : Store) : List Deal := store.records.map store.dealOf

/-- A tidy store that the wire format shows as it is: stamps are of whole milliseconds, and amounts
within the doubles. -/
structure Shown (store : Store) : Prop where
  tidy : store.Tidy
  whole : ∀ opp ∈ store.records, ∀ us, opp.systemModstamp = some us → us % 1000 = 0
  finite : ∀ opp ∈ store.records, ∀ d, opp.amount = some d → |d.value| < halfway

end Store

/-! ### Documents -/

section Values

variable {N : Type}

def attributesValue (typeName apiVersion : String) (id : Option String) : Value N :=
  .obj [("type", .str typeName),
    ("url", .str ("/services/data/" ++ apiVersion ++ "/sobjects/" ++ typeName ++ "/" ++ formatted id))]

def accountValue (apiVersion : String) : Option AccountRecord → Value N
  | none => .null
  | some account => .obj [("attributes", attributesValue "Account" apiVersion account.id), ("Name", jsonText account.name)]

/-- One record of a WON query, with an amount. -/
def wonMembers (apiVersion : String) (store : Store) (opp : OpportunityRecord) (amount : Value N) :
    List (String × Value N) :=
  [("attributes", attributesValue "Opportunity" apiVersion opp.id), ("Id", jsonText opp.id),
    ("Name", jsonText opp.name), ("AccountId", jsonText opp.accountId),
    ("Account", accountValue apiVersion (store.accountOf opp)), ("Amount", amount),
    ("CloseDate", jsonText (opp.closeDate.map isoformatDate)), ("StageName", jsonText opp.stageName),
    ("SystemModstamp", jsonText (opp.systemModstamp.map formatDatetime))]

/-- One record of the lookup by Id. -/
def stageMembers (apiVersion : String) (opp : OpportunityRecord) : List (String × Value N) :=
  [("attributes", attributesValue "Opportunity" apiVersion opp.id), ("Id", jsonText opp.id),
    ("StageName", jsonText opp.stageName), ("IsWon", .bool (decide (opp.stageName = some wonStage)))]

end Values

theorem toJson_string (text : Option String) : toJson .string text = jsonText text := by
  cases text <;> rfl

theorem toJson_id (text : Option String) : toJson .id text = jsonText text := by
  cases text <;> rfl

theorem toJson_picklist (text : Option String) : toJson .picklist text = jsonText text := by
  cases text <;> rfl

theorem toJson_date (d : Option Date) : toJson .date d = jsonText (d.map isoformatDate) := by
  cases d <;> rfl

theorem toJson_datetime (us : Option Int) : toJson .datetime us = jsonText (us.map formatDatetime) := by
  cases us <;> rfl

section Members

variable (store : Store) (opp : OpportunityRecord) (apiVersion : String)

/-- The members of a record of a WON query. -/
theorem project_won (low high : Int) :
    store.project opp (windowQuery low high).fields apiVersion =
      wonMembers apiVersion store opp (toJson .currency opp.amount) := by
  have names : (windowQuery low high).fields.filterMap accountField = ["Name"] := rfl
  have members : (windowQuery low high).fields.foldl (store.projectField opp)
      [("attributes", attributes "Opportunity" apiVersion opp.id)] =
        [("attributes", attributes "Opportunity" apiVersion opp.id), ("Id", jsonText opp.id),
          ("Name", jsonText opp.name), ("AccountId", jsonText opp.accountId), ("Account", .null),
          ("Amount", toJson .currency opp.amount), ("CloseDate", jsonText (opp.closeDate.map isoformatDate)),
          ("StageName", jsonText opp.stageName), ("SystemModstamp", jsonText (opp.systemModstamp.map formatDatetime))] := by
    simp [windowQuery, Store.projectField, accountField, Field.apiName, dictInsert, Store.fieldValue, toJson_string,
      toJson_id, toJson_picklist, toJson_date, toJson_datetime]
  rw [Store.project, members, names]
  cases found : store.accountOf opp with
  | none =>
      rw [wonMembers, found]
      rfl
  | some account =>
      simp [wonMembers, found, dictInsert, Store.projectAccount, toJson_string, accountValue, attributesValue, attributes]

/-- The members of a record of the lookup by Id. -/
theorem project_stages (ids : List String) :
    store.project opp (stagesQuery ids).fields apiVersion = stageMembers apiVersion opp := by
  have names : (stagesQuery ids).fields.filterMap accountField = [] := rfl
  have members : (stagesQuery ids).fields.foldl (store.projectField opp)
      [("attributes", attributes "Opportunity" apiVersion opp.id)] = stageMembers apiVersion opp := by
    simp [stagesQuery, stageMembers, Store.projectField, accountField, Field.apiName, dictInsert, Store.fieldValue,
      toJson_id, toJson_picklist, attributesValue, attributes]
    rfl
  rw [Store.project, members, names]
  cases store.accountOf opp with
  | none => rfl
  | some account => exact if_pos rfl

end Members

theorem jsonText_some {N : Type} (text : String) : (jsonText (some text) : Value N) = .str text := rfl

/-! ### Encoding and decoding -/

section Decoding

variable {E N M : Type} (g : Int → Except E (Value M)) (f : N → Except E (Value M)) (apiVersion : String)
  (store : Store) (opp : OpportunityRecord)

theorem decode_attributes (typeName : String) (id : Option String) :
    (attributesValue typeName apiVersion id : Value N).decode g f = .ok (attributesValue typeName apiVersion id) := by
  simp [attributesValue, Value.decode, decodeMembers, Except.map, dictOf, dictInsert]

theorem decode_account (account : Option AccountRecord) :
    (accountValue apiVersion account : Value N).decode g f = .ok (accountValue apiVersion account) := by
  cases account with
  | none => rfl
  | some account =>
      simp [accountValue, Value.decode, decodeMembers, decode_attributes, Events.decode_jsonText, Except.map, dictOf,
        dictInsert]

/-- Only the amount of a record has numbers. -/
theorem decode_won {amount : Value N} {amount' : Value M} (converted : amount.decode g f = .ok amount') :
    (Value.obj (wonMembers apiVersion store opp amount)).decode g f =
      .ok (.obj (wonMembers apiVersion store opp amount')) := by
  simp only [wonMembers, Value.decode, decodeMembers, decode_attributes, decode_account, Events.decode_jsonText,
    converted, Except.map]
  rw [dictOf_of_nodup (by simp)]

theorem decode_stage :
    (Value.obj (stageMembers apiVersion opp) : Value N).decode g f = .ok (.obj (stageMembers apiVersion opp)) := by
  simp only [stageMembers, Value.decode, decodeMembers, decode_attributes, Events.decode_jsonText, Except.map]
  rw [dictOf_of_nodup (by simp)]

end Decoding

/-! ### What the clients read -/

/-- A stamp in whole milliseconds. -/
theorem formatDatetime_eq (us : Int) : formatDatetime us = wireText (us / 1000) := by
  have second : us / 1000 / 1000 = us / 1000000 := by omega
  have millis : microsecond us / 1000 = (us / 1000 % 1000).toNat := by
    unfold microsecond
    omega
  rw [formatDatetime, wireText, second, millis, strftime]

section Reading

variable {store : Store} {opp : OpportunityRecord} {oppId : String}

/-- The document of a record of a WON query. -/
def wonDocument (apiVersion : String) (store : Store) (opp : OpportunityRecord) : Document :=
  .obj (wonMembers apiVersion store opp (jsonNumber (store.dealOf opp).row.amount))

theorem dumps_won (apiVersion : String) (finite : ∀ d, opp.amount = some d → |d.value| < halfway) :
    dumps (.obj (wonMembers apiVersion store opp (toJson .currency opp.amount))) =
      .ok (wonDocument apiVersion store opp) := by
  refine decode_won _ _ apiVersion store opp ?_
  cases stored : opp.amount with
  | none =>
      simp only [Store.dealOf, Deal.row, stored]
      rfl
  | some d =>
      have small : round64 |d.value| < overflow := (round64_lt_overflow_iff (abs_nonneg _)).mpr (finite d stored)
      simp only [Store.dealOf, Deal.row, stored]
      simp [toJson, Value.decode, dumpNumber, Binary64.ofRat, small, dumpFloat, amountText, jsonNumber, Number.value]

theorem dumps_stage (apiVersion : String) : dumps (.obj (stageMembers apiVersion opp)) = .ok (.obj (stageMembers apiVersion opp)) :=
  decode_stage _ _ apiVersion opp

/-- Go reads the row of the deal. -/
theorem unmarshal_won (apiVersion : String) (tidy : opp.Tidy oppId) :
    Opportunity.unmarshal (wonDocument apiVersion store opp) = Opportunity.unmarshal (store.dealOf opp).row.json := by
  obtain ⟨us, stamped, -, -⟩ := tidy.stamped
  have named : (store.dealOf opp).row.id = oppId := by rw [Deal.row, Store.dealOf, tidy.named, Option.getD_some]
  have stamp : (store.dealOf opp).row.systemModstamp = formatDatetime us := by
    rw [formatDatetime_eq, Deal.row, Store.dealOf, stamped, Option.getD_some]
  have account : Opportunity.setAccount none (accountValue apiVersion (store.accountOf opp) : Document) =
      .ok ((store.accountOf opp).map fun account => ⟨account.name.getD ""⟩) := by
    cases store.accountOf opp with
    | none => rfl
    | some account =>
        simp [accountValue, Opportunity.setAccount, Opportunity.setAccountMembers, setString_jsonText, Except.map, bind,
          Except.bind]
  have skipped : ∀ (v : Document) (rest : List (String × Document)),
      Opportunity.setFields Opportunity.zero (("attributes", v) :: rest) = Opportunity.setFields Opportunity.zero rest :=
    fun _ _ => rfl
  rw [unmarshal_row, named, stamp, wonDocument, Opportunity.unmarshal, wonMembers, skipped, tidy.named, stamped]
  simp only [Opportunity.setFields, Opportunity.setField, Opportunity.zero, Option.map_some, jsonText_some,
    setString_str, setString_jsonText, setPointer_jsonText, setNumber_jsonNumber, account, Except.map, bind, Except.bind]
  simp [Deal.row, Store.dealOf, Function.comp_def]

/-- Python reads the row of the deal, with whatever amount it decodes. -/
theorem readRow_won (apiVersion : String) (tidy : opp.Tidy oppId) (amount : Option (Number PyNum)) :
    readRow (.obj (wonMembers apiVersion store opp (jsonNumber amount))) =
      .ok ((store.dealOf opp).row.withAmount amount) := by
  obtain ⟨us, stamped, -, -⟩ := tidy.stamped
  have account : readAccount (accountValue apiVersion (store.accountOf opp)) =
      some ((store.accountOf opp).map AccountRecord.name) := by
    cases store.accountOf opp with
    | none => rfl
    | some account => simp [accountValue, readAccount, dictGet, List.lookup_cons, readText_jsonText]
  have text : ∀ text : String, readText (.str text : Obj) = some (some text) := fun _ => rfl
  have read : rowOf (wonMembers apiVersion store opp (jsonNumber amount)) =
      some ((store.dealOf opp).row.withAmount amount) := by
    simp [rowOf, wonMembers, dictGet, List.lookup_cons, readText_jsonText, readNumber_jsonNumber, account, tidy.named,
      stamped, jsonText_some, text, formatDatetime_eq, Store.dealOf, Deal.row, Row.withAmount]
  rw [readRow, read]

/-- What the lookup by Id keeps of a record: its Id and its stage. -/
def readStage : Obj → Option (String × Obj)
  | .obj row =>
      match dictGet "Id" row with
      | .str id => some (id, dictGet "StageName" row)
      | _ => none
  | _ => none

/-- Two decoded records of which the reconciler reads the same. -/
structure ReadAlike (obj obj' : Obj) : Prop where
  row : readRow obj = readRow obj'
  stage : readStage obj = readStage obj'

theorem readAlike_won (apiVersion : String) (tidy : opp.Tidy oppId) (amount : Option (Number PyNum)) :
    ReadAlike (.obj (wonMembers apiVersion store opp (jsonNumber amount)))
      ((store.dealOf opp).row.withAmount amount).json where
  row := by rw [readRow_won apiVersion tidy, readRow_row]
  stage := by
    simp [readStage, wonMembers, Row.json, dictGet, List.lookup_cons, tidy.named, jsonText_some, Store.dealOf, Deal.row,
      Row.withAmount]

/-- The amount of a deal is null or the text of a double. -/
theorem amount_deal (store : Store) (opp : OpportunityRecord) :
    (store.dealOf opp).row.amount = none ∨
      ∃ text, (store.dealOf opp).row.amount = some (.num (.number text)) ∧
        loadNumber (.number text) = .ok (.num (.float (float text))) := by
  cases stored : opp.amount with
  | none =>
      left
      rw [Deal.row, Store.dealOf, stored]
      rfl
  | some d =>
      refine .inr ⟨amountText d, ?_, if_neg ?_⟩
      · rw [Deal.row, Store.dealOf, stored]
        rfl
      · rw [amountText, isInt_reprFinite]
        exact Bool.false_ne_true

/-- `json.loads` of the record of a WON query, and of the row of its deal. -/
theorem load_won (apiVersion : String) (tidy : opp.Tidy oppId) :
    ∃ obj obj', load (wonDocument apiVersion store opp) = .ok obj ∧ load (store.dealOf opp).row.json = .ok obj' ∧
      ReadAlike obj obj' := by
  have decoded := decode_jsonNumber (store.dealOf opp).row.amount
  have loads : ∀ amount : Option (Number PyNum), loadRow (store.dealOf opp).row = .ok ((store.dealOf opp).row.withAmount amount) →
      load (store.dealOf opp).row.json = .ok ((store.dealOf opp).row.withAmount amount).json := by
    intro amount read
    rw [load_row, read]
    rfl
  rcases amount_deal store opp with null | ⟨text, number, loaded⟩
  · rw [null] at decoded
    refine ⟨_, _, ?_, loads none ?_, readAlike_won apiVersion tidy none⟩
    · rw [wonDocument, null]
      exact decode_won _ _ apiVersion store opp decoded
    · rw [loadRow, null]
  · rw [number] at decoded
    simp only [Number.token, loaded] at decoded
    refine ⟨_, _, ?_, loads (some (.num (.float (float text)))) ?_, readAlike_won apiVersion tidy _⟩
    · rw [wonDocument, number]
      exact decode_won _ _ apiVersion store opp decoded
    · rw [loadRow, number]
      simp only [Number.token, loaded]
      rfl

/-- `json.loads` of a record of the lookup by Id, and of the record of its deal. -/
theorem load_stage (apiVersion : String) (tidy : opp.Tidy oppId) :
    ∃ obj obj', load (.obj (stageMembers apiVersion opp)) = .ok obj ∧ load (stageRecord (store.dealOf opp)) = .ok obj' ∧
      ReadAlike obj obj' := by
  have record : load (stageRecord (store.dealOf opp)) =
      .ok (.obj [("Id", .str oppId), ("StageName", jsonText opp.stageName),
        ("IsWon", .bool (decide (opp.stageName = some wonStage)))]) := by
    simp only [load, Value.decoded, stageRecord, Value.decode, decodeMembers, Events.decode_jsonText, Except.map,
      Store.dealOf, tidy.named, Option.getD_some]
    rw [dictOf_of_nodup (by simp)]
  have noStamp : readText (.null : Obj) = some none := rfl
  refine ⟨_, _, decode_stage _ _ apiVersion opp, record, ⟨?_, ?_⟩⟩
  · simp [readRow, rowOf, stageMembers, dictGet, List.lookup_cons, tidy.named, jsonText_some, readText_jsonText, noStamp,
      readAccount, readNumber]
  · simp [readStage, stageMembers, dictGet, List.lookup_cons, tidy.named, jsonText_some]

end Reading

/-! ### Alike -/

/-- Two records of which both clients read the same. -/
structure Alike (document record : Document) : Prop where
  unmarshalled : Opportunity.unmarshal document = Opportunity.unmarshal record
  loaded : ∃ obj obj', load document = .ok obj ∧ load record = .ok obj' ∧ ReadAlike obj obj'

section Records

variable {store : Store} {opp : OpportunityRecord} {oppId : String}

theorem alike_won (apiVersion : String) (tidy : opp.Tidy oppId) :
    Alike (wonDocument apiVersion store opp) (store.dealOf opp).row.json :=
  ⟨unmarshal_won apiVersion tidy, load_won apiVersion tidy⟩

/-- Go reads the Id and the stage. -/
theorem unmarshal_stage (apiVersion : String) (tidy : opp.Tidy oppId) :
    Opportunity.unmarshal (.obj (stageMembers apiVersion opp) : Document) =
      Opportunity.unmarshal (stageRecord (store.dealOf opp)) := by
  have skipped : ∀ (v : Document) (rest : List (String × Document)),
      Opportunity.setFields Opportunity.zero (("attributes", v) :: rest) = Opportunity.setFields Opportunity.zero rest :=
    fun _ _ => rfl
  rw [Opportunity.unmarshal, stageMembers, skipped, tidy.named, jsonText_some, stageRecord, Opportunity.unmarshal,
    Store.dealOf, tidy.named]
  rfl

theorem alike_stage (apiVersion : String) (tidy : opp.Tidy oppId) :
    Alike (.obj (stageMembers apiVersion opp)) (stageRecord (store.dealOf opp)) :=
  ⟨unmarshal_stage apiVersion tidy, load_stage apiVersion tidy⟩

end Records

end Relay.FakeSalesforce
