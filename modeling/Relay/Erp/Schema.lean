/-!
The tables of the mock ERP. Every key is derived from a Salesforce ID.
-/

namespace Relay.Erp

inductive Table where
  | customers
  | orders
  | invoices
deriving DecidableEq, Repr

def invoiceIdFor (opportunityId : String) : String := "INV-" ++ opportunityId

theorem invoiceIdFor_injective {a b : String} (same : invoiceIdFor a = invoiceIdFor b) : a = b := by
  have lists := congrArg String.toList same
  simp only [invoiceIdFor, String.toList_append] at lists
  exact String.toList_injective (List.append_cancel_left lists)

end Relay.Erp
