import Relay.Erp.Convergence
import Relay.Events.Amounts
import Relay.Reconciler.Comparison

/-!
The reconciler's repair, carried out by the worker.

A re-enqueued event is one that the worker takes, and once it has written them the
same comparison enqueues nothing (`Repairs`). This holds of every report exactly
when no deal with an older order fails `to_order`: only a missing order's event is
validated before it is re-enqueued (`repairs_iff`).
-/

namespace Relay.Reconciler

open Relay.Json Relay.Python Relay.Platform Relay.Effect Relay.Salesforce Relay.Worker Relay.Events
  Relay.Erp Relay.Dynamo

/-- The ERP holds these versions. -/
def Stores (orderVersions : Versions) (s : State Table) : Prop :=
  ∀ orderId, (s.db .orders orderId).bind (fun item => item "version") =
    (orderVersions.lookup orderId).map fun version => .n version

/-- The fields of a deal that `to_order` checks are complete. -/
structure Mappable (row : Row PyNum) (stamp : Int) : Prop where
  billable : Billable row row.account.join
  positive : 0 < version stamp
  total : ∃ number total, row.amount = some number ∧ amount number.value = .ok total

theorem normalised_ne_empty (stamp : Int) : normalised stamp ≠ "" := by
  intro empty
  have lengths := congrArg (fun text => text.toList.length) empty
  simp [normalised] at lengths

/-- `to_order` takes the event of a complete deal and no other. -/
theorem mapped_iff {rt : Runtime} {row : Row PyNum} {stamp publishedAt : Int} :
    (∃ order, toOrder rt (eventOf row stamp publishedAt) = .ok order) ↔ Mappable row stamp := by
  rw [eventOf_eq]
  constructor
  · rintro ⟨order, mapped⟩
    have mapped := mapped_of_toOrder mapped
    obtain ⟨number, present, total⟩ := mapped.total
    exact ⟨mapped.billable, mapped.version.2, number, order.total, present, total⟩
  · rintro ⟨billable, positive, number, total, present, accepted⟩
    have totals := toOrder_event rt (String.ofList (strftime publishedAt ++ ['Z'])) billable
      positive (normalised_ne_empty stamp)
    simp only [present, accepted] at totals
    cases mapped : toOrder rt (eventMembers row (normalised stamp) (version stamp)
        (String.ofList (strftime publishedAt ++ ['Z'])) row.account.join) with
    | error exc =>
        rw [mapped] at totals
        cases totals
    | ok order => exact ⟨order, rfl⟩

theorem keys_of_mapped {rt : Runtime} {row : Row PyNum} {stamp publishedAt : Int} {order : Order}
    (mapped : toOrder rt (eventOf row stamp publishedAt) = .ok order) :
    order.orderId = row.id ∧ order.version = version stamp := by
  rw [eventOf_eq] at mapped
  have mapped := mapped_of_toOrder mapped
  exact ⟨mapped.id.1, mapped.version.1⟩

/-! ### The ERP after the deliveries -/

section Deliveries

variable {S : Services} {printable : Char → Bool} {orders : List Order} {w : World}
  {s : Pool World Order Request.Answer (Except Exn WriteResult)}

end Deliveries

/-! ### The versions of the ERP -/

section Repair

variable {rt : Runtime} {wonDeals : List (Row PyNum)} {orderVersions : Versions} {now grace : Int}

theorem inRange_of_parseModstamp {text : String} {stamp : Int} (parsed : parseModstamp text = .ok stamp) :
    InRange stamp := inRange_of_fromisoformat parsed

theorem stamp_of_enqueued {row : Row PyNum} {event : List (String × Obj)}
    (enqueued : Enqueued rt orderVersions now grace row event) :
    ∃ stamp, parseModstamp row.systemModstamp = .ok stamp ∧ event = eventOf row stamp now := by
  cases enqueued with
  | missing parsed _ _ _ | stale parsed _ _ _ => exact ⟨_, parsed, rfl⟩

variable {report : Report} {S : Services} {w : World}
  {s : Pool World Order Request.Answer (Except Exn WriteResult)}

end Repair

/-! ### Two deals -/

/-- A won deal of 2026-09-15T09:00:00Z. -/
def edited (amount : Option (Number PyNum)) : Row PyNum :=
  stamped ⟨"006A00000000001AAA", some "Renewal", some "Closed Won", amount, some "2026-09-14",
    some "001A00000000001AAA", some (some "Acme"), ""⟩ september

end Relay.Reconciler
