import Mathlib.Data.List.Sort
import Relay.Data.Batches
import Relay.Erp.Writer
import Relay.Reconciler.Events
import Relay.Reconciler.Salesforce
import Relay.Worker.Mapping

/-!
Nightly reconciliation: compare Salesforce with the ERP and repair drift.

`compare` walks the won deals (`checkDeals`), then looks up the orders whose deal
is not won any more (`orphans`). A missing or stale order is re-enqueued; what is
invalid, ahead, reverted or deleted is only reported.
-/

namespace Relay.Reconciler

open Relay.Json Relay.Python Relay.Platform Relay.Effect Relay.Salesforce Relay.Worker Relay.Data

inductive DriftKind where
  | missingOrder
  | invalidInSource
  | staleOrder
  | erpAhead
  | notFound
  | notWon
deriving DecidableEq, Repr

def DriftKind.name : DriftKind → String
  | missingOrder => "missing_order"
  | invalidInSource => "invalid_in_source"
  | staleOrder => "stale_order"
  | erpAhead => "erp_ahead"
  | notFound => "not_found"
  | notWon => "not_won"

structure Drift where
  kind : DriftKind
  opportunityId : String
  detail : String
deriving DecidableEq

structure Report where
  drift : List Drift
  toEnqueue : List (List (String × Obj))
  checkedDeals : Nat
  checkedOrders : Nat

/-- The stored versions, by order id. -/
abbrev Versions := List (String × Int)

/-- Synthetic deals created by the smoke test. -/
def smokePrefix : String := "006SMOKE"

/-- `[A-Za-z0-9]{15}(?:[A-Za-z0-9]{3})?` -/
def isSfId (id : String) : Bool :=
  id.toList.all Char.isAlphanum && (id.length == 15 || id.length == 18)

/-! ### The won deals -/

/-- `event["version"]`. -/
def eventVersion (event : List (String × Obj)) : Int :=
  match dictGet "version" event with
  | .int version => version
  | _ => 0

def Report.add (report : Report) (drift : Drift) : Report :=
  { report with drift := report.drift ++ [drift] }

def Report.enqueue (report : Report) (event : List (String × Obj)) : Report :=
  { report with toEnqueue := report.toEnqueue ++ [event] }

/-- `f"{a} < {b}"`. -/
def versionsText (a : Int) (relation : String) (b : Int) : String :=
  toString a ++ " " ++ relation ++ " " ++ toString b

/-- A deal out of grace, with its event. -/
def checkEvent (rt : Runtime) (orderVersions : Versions) (report : Report) (oppId : String)
    (event : List (String × Obj)) : Except Exn Report :=
  match orderVersions.lookup oppId with
  | none =>
      match toOrder rt event with
      | .error (.permanentError reason _) => .ok (report.add ⟨.invalidInSource, oppId, reason⟩)
      | .error exc => .error exc
      | .ok _ => .ok ((report.add ⟨.missingOrder, oppId, ""⟩).enqueue event)
  | some stored =>
      if stored < eventVersion event then
        .ok ((report.add ⟨.staleOrder, oppId, versionsText stored "<" (eventVersion event)⟩).enqueue event)
      else if eventVersion event < stored then
        .ok (report.add ⟨.erpAhead, oppId, versionsText stored ">" (eventVersion event)⟩)
      else .ok report

/-- One won deal. -/
def checkDeal (rt : Runtime) (orderVersions : Versions) (now grace : Int) (report : Report)
    (row : Row PyNum) : Except Exn Report :=
  match parseModstamp row.systemModstamp with
  | .error exc => .error exc
  | .ok stamp =>
      -- Still in flight.
      if now - grace < stamp then .ok report
      else
        match fromSalesforce row now with
        | .error exc => .error exc
        | .ok event =>
            checkEvent rt orderVersions { report with checkedDeals := report.checkedDeals + 1 } row.id event

/-- The report with one deal more that was out of grace. -/
def Report.counted (report : Report) : Report := { report with checkedDeals := report.checkedDeals + 1 }

/-- All that the check of a deal can do. -/
inductive Checks (rt : Runtime) (orderVersions : Versions) (now grace : Int) (report : Report)
    (row : Row PyNum) : Report → Prop where
  | inFlight {stamp : Int} : parseModstamp row.systemModstamp = .ok stamp → now - grace < stamp →
      Checks rt orderVersions now grace report row report
  | invalid {stamp : Int} {reason detail : String} : parseModstamp row.systemModstamp = .ok stamp →
      stamp ≤ now - grace → orderVersions.lookup row.id = none →
      toOrder rt (eventOf row stamp now) = .error (.permanentError reason detail) →
      Checks rt orderVersions now grace report row
        (report.counted.add ⟨.invalidInSource, row.id, reason⟩)
  | missing {stamp : Int} {order : Erp.Order} : parseModstamp row.systemModstamp = .ok stamp →
      stamp ≤ now - grace → orderVersions.lookup row.id = none →
      toOrder rt (eventOf row stamp now) = .ok order →
      Checks rt orderVersions now grace report row
        ((report.counted.add ⟨.missingOrder, row.id, ""⟩).enqueue (eventOf row stamp now))
  | stale {stamp stored : Int} : parseModstamp row.systemModstamp = .ok stamp →
      stamp ≤ now - grace → orderVersions.lookup row.id = some stored → stored < version stamp →
      Checks rt orderVersions now grace report row
        ((report.counted.add ⟨.staleOrder, row.id, versionsText stored "<" (version stamp)⟩).enqueue
          (eventOf row stamp now))
  | ahead {stamp stored : Int} : parseModstamp row.systemModstamp = .ok stamp →
      stamp ≤ now - grace → orderVersions.lookup row.id = some stored → version stamp < stored →
      Checks rt orderVersions now grace report row
        (report.counted.add ⟨.erpAhead, row.id, versionsText stored ">" (version stamp)⟩)
  | agrees {stamp : Int} : parseModstamp row.systemModstamp = .ok stamp → stamp ≤ now - grace →
      orderVersions.lookup row.id = some (version stamp) →
      Checks rt orderVersions now grace report row report.counted

theorem checks_of_checkDeal {rt : Runtime} {orderVersions : Versions} {now grace : Int}
    {report report' : Report} {row : Row PyNum}
    (checked : checkDeal rt orderVersions now grace report row = .ok report') :
    Checks rt orderVersions now grace report row report' := by
  unfold checkDeal at checked
  split at checked
  · cases checked
  · rename_i stamp parsed
    split at checked
    · rename_i inGrace
      cases checked
      exact .inFlight parsed inGrace
    · rename_i outOfGrace
      have outOfGrace : stamp ≤ now - grace := not_lt.mp outOfGrace
      rw [fromSalesforce, parsed] at checked
      have versions : eventVersion (eventOf row stamp now) = version stamp := rfl
      simp only [checkEvent, versions] at checked
      cases stored : orderVersions.lookup row.id with
      | none =>
          simp only [stored] at checked
          cases mapped : toOrder rt (eventOf row stamp now) with
          | error exc =>
              obtain ⟨reason, detail, rfl⟩ := permanent_toOrder rt _ exc mapped
              simp only [mapped] at checked
              cases checked
              exact .invalid parsed outOfGrace stored mapped
          | ok order =>
              simp only [mapped] at checked
              cases checked
              exact .missing parsed outOfGrace stored mapped
      | some current =>
          simp only [stored] at checked
          split at checked
          · rename_i older
            cases checked
            exact .stale parsed outOfGrace stored older
          · rename_i notOlder
            split at checked
            · rename_i newer
              cases checked
              exact .ahead parsed outOfGrace stored newer
            · rename_i notNewer
              cases checked
              obtain rfl : current = version stamp := le_antisymm (not_lt.mp notNewer) (not_lt.mp notOlder)
              exact .agrees parsed outOfGrace stored

def checkDeals (rt : Runtime) (orderVersions : Versions) (now grace : Int) :
    Report → List (Row PyNum) → Except Exn Report
  | report, [] => .ok report
  | report, row :: rest =>
      match checkDeal rt orderVersions now grace report row with
      | .error exc => .error exc
      | .ok report => checkDeals rt orderVersions now grace report rest

/-- The report before the first deal. -/
def emptyReport (orderVersions : Versions) : Report := ⟨[], [], 0, orderVersions.length⟩

/-! ### The orders of other deals -/

def isSmoke (id : String) : Bool := smokePrefix.toList.isPrefixOf id.toList

/-- The orders whose deal is not among the won ones, sorted. -/
def orphans (orderVersions : Versions) (wonIds : List String) : List String :=
  ((orderVersions.map Prod.fst).filter fun id => id ∉ wonIds && !isSmoke id).insertionSort (· ≤ ·)

/-- The rows found, by id; of two rows with one id the one found last. -/
abbrev Found := List (String × List (String × Obj))

/-- Report each orphan. -/
def reportOrphans (rt : Runtime) (found : Found) : Report → List String → Report
  | report, [] => report
  | report, id :: rest =>
      match found.lookup id with
      | none => reportOrphans rt found (report.add ⟨.notFound, id, "deleted in Salesforce"⟩) rest
      | some current =>
          reportOrphans rt found
            (report.add ⟨.notWon, id, "stage is " ++ str rt.printable (dictGet "StageName" current)⟩) rest

/-- Compare the won deals with the stored versions. `lookupStages` returns the
rows of the ids that exist. -/
def compare (rt : Runtime) (wonDeals : List (Row PyNum)) (orderVersions : Versions)
    (lookupStages : List String → Act (Except Exn Found)) (now grace : Int) : Act (Except Exn Report) :=
  match checkDeals rt orderVersions now grace (emptyReport orderVersions) wonDeals with
  | .error exc => pure (.error exc)
  | .ok report =>
      match orphans orderVersions (wonDeals.map Row.id) with
      | [] => pure (.ok report)
      | id :: rest => do
          match ← lookupStages (id :: rest) with
          | .error exc => return .error exc
          | .ok found => return .ok (reportOrphans rt found report (id :: rest))

/-! ### The reads -/

/-- `found[row["Id"]] = row` for each row. -/
def keyed (found : Found) : List Obj → Except Exn Found
  | [] => .ok found
  | .obj row :: rest =>
      match dictGet "Id" row with
      | .str id => keyed ((id, row) :: found) rest
      | _ => .error (.other "KeyError" "'Id'")
  | _ :: _ => .error (.other "TypeError" "record")

def lookupBatches (found : Found) : List (List String) → Act (Except Exn Found)
  | [] => pure (.ok found)
  | ids :: rest => do
      match ← queryAll (.stages ids) with
      | .error exc => return .error exc
      | .ok rows =>
          match keyed found rows with
          | .error exc => return .error exc
          | .ok found => lookupBatches found rest

/-- Look up deals by id. Only well-formed Salesforce ids go into the query. -/
def stageLookup (ids : List String) : Act (Except Exn Found) :=
  lookupBatches [] (batches 100 (ids.filter isSfId))

/-- `versions[key] = version`. -/
def setVersion (key : String) (version : Int) : Versions → Versions
  | [] => [(key, version)]
  | (k, v) :: rest =>
      if k = key then (k, version) :: rest else (k, v) :: setVersion key version rest

/-- The items of one page. -/
def addItems (versions : Versions) : List Dynamo.Item → Except Exn Versions
  | [] => .ok versions
  | item :: rest =>
      match item "order_id" with
      | some (.s id) =>
          match Erp.storedVersion (some item) with
          | .error exc => .error exc
          | .ok version => addItems (setVersion id version versions) rest
      | _ => .error (.other "KeyError" "'order_id'")

/-- The pages from a key on; `none` is a scan that has not ended yet. -/
def scanPages : (fuel : Nat) → (start : Option String) → Versions → Act (Option (Except Exn Versions))
  | 0, _, _ => pure none
  | fuel + 1, start, versions => do
      match ← Act.scan .orders start with
      | .error fault => return some (.error (Erp.raised fault))
      | .ok page =>
          match addItems versions page.items with
          | .error exc => return some (.error exc)
          | .ok versions =>
              match page.lastEvaluatedKey with
              | none => return some (.ok versions)
              | some last => scanPages fuel (some last) versions

def scanOrderVersions (fuel : Nat) : Act (Option (Except Exn Versions)) := scanPages fuel none []

end Relay.Reconciler
