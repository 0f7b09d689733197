import Relay.Delivery.SafetyNet
import Relay.Reconciler.Classification

/-!
A report is bracketed by its run.

The ERP is written to while its orders are scanned, page by page, so the versions
of a scan need not be those of any one moment. They are not below those of its start
(`scanPages_passes`) and not above those of its end (`scanPages_backs`). So what a
report misses was not there when the run started, what it names is stored or overtaken
when the run ends, and nothing is re-sent that the ERP had before the run.
-/

namespace Relay.Delivery

open Relay.Effect Relay.Platform Relay.Python Relay.Salesforce Relay.Worker Relay.Erp Relay.Sqs
  Relay.Reconciler

/-! ### The scan -/

section Scan

variable {S : Services} {answers : (request : Request) → World → request.Answer → World → Prop}
  {rt : Runtime} {deals : Deal → Prop} {w : World} {before : Dynamo.State Table}

end Scan

/-! ### The report -/

/-- What an entry misses is not in the tables before the run, and the versions that it names are, or
newer ones, in those after it. -/
inductive Justified (before after : Dynamo.State Table) : Drift → Prop where
  | missing {id : String} : before.db .orders id = none → Justified before after ⟨.missingOrder, id, ""⟩
  | invalid {id reason : String} : before.db .orders id = none →
      Justified before after ⟨.invalidInSource, id, reason⟩
  | stale {id : String} {stored version : Int} : stored < version → ¬ StoredFrom before id version →
      StoredFrom after id stored →
      Justified before after ⟨.staleOrder, id, versionsText stored "<" version⟩
  | ahead {id : String} {stored version : Int} : version < stored → StoredFrom after id stored →
      Justified before after ⟨.erpAhead, id, versionsText stored ">" version⟩
  | orphan {drift : Drift} {v : Int} : Accuses drift → StoredFrom after drift.opportunityId v →
      Justified before after drift

section Report

variable {rt : Runtime} {before before' after after' : Dynamo.State Table} {versions : Versions}
  {now grace : Int} {rows : List (Row PyNum)} {row : Row PyNum} {stamp : Int} {drift : Drift}
  {found : Found} {report : Report}

section Bounds

variable (kept : Kept before)
  (passed : ∀ id v, StoredFrom before id v → ∃ v', versions.lookup id = some v' ∧ v ≤ v')
  (backed : ∀ id v, versions.lookup id = some v → StoredFrom after id v)
include kept passed backed

end Bounds

end Report

/-! ### The run -/

section Programs

variable {S : Services} {answers : (request : Request) → World → request.Answer → World → Prop}
  {rt : Runtime} {deals : Deal → Prop} {w : World}

end Programs

end Relay.Delivery
