import Mathlib.Data.List.Sort
import Mathlib.Data.String.Basic
import Relay.Salesforce.Datetime
import Relay.Salesforce.Org

/-!
The three SOQL queries, and what Salesforce answers.

A query is kept as what was put into its text; `Soql.text` is the text. Answers
hold the deals of one state of the org, the WON queries in the order of
SystemModstamp and Id, the lookup by Id in any order.
-/

namespace Relay.Salesforce

open Relay.Json

inductive Soql where
  /-- Every won deal. -/
  | won
  /-- The won deals of one poll window, between two datetime literals. -/
  | wonBetween (from_ upper : String)
  /-- The stages of some deals. -/
  | stages (ids : List String)
deriving DecidableEq

def wonFields : String :=
  "SELECT Id, Name, AccountId, Account.Name, Amount, CloseDate, StageName, SystemModstamp " ++
    "FROM Opportunity WHERE IsWon = true"

def Soql.text : Soql → String
  | won => wonFields ++ " ORDER BY SystemModstamp ASC, Id ASC"
  | wonBetween from_ upper =>
      wonFields ++ " AND SystemModstamp >= " ++ from_ ++ " AND SystemModstamp < " ++ upper ++
        " ORDER BY SystemModstamp ASC, Id ASC"
  | stages ids =>
      "SELECT Id, StageName, IsWon FROM Opportunity WHERE Id IN (" ++
        ", ".intercalate (ids.map fun id => "'" ++ id ++ "'") ++ ")"

/-- The order of the WON queries. -/
def Deal.Before (a b : Deal) : Prop :=
  a.systemModstamp < b.systemModstamp ∨ (a.systemModstamp = b.systemModstamp ∧ a.id ≤ b.id)

instance : DecidableRel Deal.Before := fun a b => by
  unfold Deal.Before
  infer_instance

/-- The deals that a condition selects, in order. -/
def selected (condition : Deal → Bool) (org : List Deal) : List Deal :=
  (org.filter condition).insertionSort Deal.Before

/-- A deal's stamp in nanoseconds. -/
def Deal.stamp (d : Deal) : Int := 1000000 * d.systemModstamp

/-- A won deal of the window from `low` up to `high`. -/
def inWindow (low high : Int) (d : Deal) : Bool :=
  d.isWon && decide (low ≤ d.stamp) && decide (d.stamp < high)

/-- One record of the lookup by Id. -/
def stageRecord (d : Deal) : Value Token :=
  .obj [("Id", .str d.id), ("StageName", jsonText d.stageName), ("IsWon", .bool d.isWon)]

/-- What a query may answer from a state of the org. A window whose literals are
no datetimes has no answer. -/
def Soql.Selects : Soql → List Deal → List (Value Token) → Prop
  | won, org, records => records = (selected (fun d => d.isWon) org).map fun d => d.row.json
  | wonBetween from_ upper, org, records =>
      ∃ low high, parseDateTime from_ = some low ∧ parseDateTime upper = some high ∧
        records = (selected (inWindow low high) org).map fun d => d.row.json
  | stages ids, org, records => records.Perm ((org.filter fun d => d.id ∈ ids).map stageRecord)

theorem mem_selected {condition : Deal → Bool} {org : List Deal} {d : Deal} :
    d ∈ selected condition org ↔ d ∈ org ∧ condition d = true := by
  rw [selected, List.mem_insertionSort, List.mem_filter]

/-- A query gives each deal once. -/
theorem selected_nodup (condition : Deal → Bool) {org : List Deal} (distinct : (org.map Deal.id).Nodup) :
    ((selected condition org).map Deal.id).Nodup :=
  ((List.perm_insertionSort _ _).map Deal.id).nodup_iff.mpr
    (distinct.sublist (List.filter_sublist.map Deal.id))

instance : Std.Total Deal.Before where
  total := by
    intro a b
    unfold Deal.Before
    rcases lt_trichotomy a.systemModstamp b.systemModstamp with lt | same | lt
    · exact .inl (.inl lt)
    · rcases le_total a.id b.id with le | le
      · exact .inl (.inr ⟨same, le⟩)
      · exact .inr (.inr ⟨same.symm, le⟩)
    · exact .inr (.inl lt)

instance : IsTrans Deal Deal.Before where
  trans := by
    rintro a b c (first | ⟨same, first⟩) (second | ⟨same', second⟩)
    · exact .inl (first.trans second)
    · exact .inl (same' ▸ first)
    · exact .inl (same ▸ second)
    · exact .inr ⟨same.trans same', first.trans second⟩

/-- Selected deals come in the order of their stamps. -/
theorem selected_sorted (condition : Deal → Bool) (org : List Deal) :
    (selected condition org).Pairwise Deal.Before := List.pairwise_insertionSort _ _

theorem selected_stamps (condition : Deal → Bool) (org : List Deal) :
    (selected condition org).Pairwise fun a b => a.systemModstamp ≤ b.systemModstamp := by
  refine (selected_sorted condition org).imp ?_
  rintro a b (lt | ⟨same, -⟩)
  · exact lt.le
  · exact same.le

end Relay.Salesforce
