import Relay.FakeSalesforce.Queries
import Relay.FakeSalesforce.Semantics
import Relay.Ingest.Poller

/-!
What the fake Salesforce answers to a window's query.

The two literals hold whole seconds, so the window is that of the instants rounded
down to their seconds.
-/

namespace Relay.Ingest

open Relay.Python Relay.Calendar Relay.Salesforce Relay.FakeSalesforce

/-- The second of an instant, in microseconds. -/
def floorSecond (t : Int) : Int := 1000000 * (t / nanosPerSecond)

/-- A closed-won opportunity of a window of microseconds. -/
def InsideWindow (low high : Int) (opp : OpportunityRecord) : Prop :=
  opp.stageName = some "Closed Won" ∧ opp.systemModstamp.any (fun s => low ≤ s ∧ s < high) = true

instance (low high : Int) : DecidablePred (InsideWindow low high) := fun opp => by
  unfold InsideWindow
  infer_instance

/-- Ascending by SystemModstamp, then by Id; no Id comes before any Id. -/
def Ascending (a b : OpportunityRecord) : Prop :=
  ∃ s s', a.systemModstamp = some s ∧ b.systemModstamp = some s' ∧
    (s < s' ∨ s = s' ∧ ∀ i, a.id = some i → ∃ j, b.id = some j ∧ i ≤ j)

theorem insideWindow_stamp {low high : Int} {opp : OpportunityRecord} (inside : InsideWindow low high opp) :
    ∃ s, opp.systemModstamp = some s ∧ low ≤ s ∧ s < high := by
  have stamp := inside.2
  cases there : opp.systemModstamp with
  | none =>
      rw [there] at stamp
      cases stamp
  | some s =>
      rw [there, Option.any_some, decide_eq_true_eq] at stamp
      exact ⟨s, rfl, stamp⟩

/-- The conditions of the query are the window. -/
theorem satisfies_windowQuery (store : Store) (low high : Int) (opp : OpportunityRecord) :
    store.Satisfies (windowQuery low high).conditions opp ↔ InsideWindow low high opp := by
  have won : Comparison.eq.Holds (compared .boolean (store.fieldValue opp .isWon)) (compared .boolean (some true)) ↔
      opp.stageName = some "Closed Won" := by
    exact Option.some_inj.trans decide_eq_true_iff
  have from_ : Comparison.ge.Holds (compared .datetime (store.fieldValue opp .systemModstamp))
      (compared .datetime (some low)) ↔ opp.systemModstamp.any (fun s => low ≤ s) = true := by
    cases there : opp.systemModstamp with
    | none => simp [Comparison.Holds, compared, Store.fieldValue, there]
    | some s => simp [Comparison.Holds, compared, key, Store.fieldValue, there]
  have upper : Comparison.lt.Holds (compared .datetime (store.fieldValue opp .systemModstamp))
      (compared .datetime (some high)) ↔ opp.systemModstamp.any (fun s => s < high) = true := by
    cases there : opp.systemModstamp with
    | none => simp [Comparison.Holds, compared, Store.fieldValue, there]
    | some s => simp [Comparison.Holds, compared, key, Store.fieldValue, there]
  have both : opp.systemModstamp.any (fun s => low ≤ s ∧ s < high) = true ↔
      opp.systemModstamp.any (fun s => low ≤ s) = true ∧ opp.systemModstamp.any (fun s => s < high) = true := by
    cases opp.systemModstamp with
    | none => simp
    | some s => simp
  simp only [Store.Satisfies, windowQuery, List.forall_mem_cons, List.not_mem_nil, false_imp_iff, implies_true,
    and_true]
  rw [InsideWindow, both, ← won, ← from_, ← upper]
  rfl

theorem ascending_of_ordered {store : Store} {low high : Int} {a b : OpportunityRecord}
    (insideA : InsideWindow low high a) (insideB : InsideWindow low high b)
    (ordered : store.Ordered (windowQuery low high).orderBy a b) : Ascending a b := by
  obtain ⟨s, stampA, -⟩ := insideWindow_stamp insideA
  obtain ⟨s', stampB, -⟩ := insideWindow_stamp insideB
  have valueA : store.orderValue ⟨.systemModstamp, false⟩ a = some s := by
    rw [Store.orderValue, compared, Store.fieldValue, stampA]
    rfl
  have valueB : store.orderValue ⟨.systemModstamp, false⟩ b = some s' := by
    rw [Store.orderValue, compared, Store.fieldValue, stampB]
    rfl
  refine ⟨s, s', stampA, stampB, ?_⟩
  rcases ordered with before | ⟨tied, rest⟩
  · rw [valueA, valueB] at before
    exact .inl before
  · rw [valueA, valueB] at tied
    refine .inr ⟨Option.some.inj tied, fun i idA => ?_⟩
    have first : store.orderValue ⟨.id, false⟩ a = some i := by
      rw [Store.orderValue, compared, Store.fieldValue, idA]
      rfl
    have second : store.orderValue ⟨.id, false⟩ b = b.id := congrFun Option.map_id b.id
    rcases rest with before | ⟨same, -⟩
    · rw [first, second] at before
      cases idB : b.id with
      | none =>
          rw [idB] at before
          cases before
      | some j =>
          rw [idB] at before
          exact ⟨j, rfl, le_of_lt (show i < j from before)⟩
    · rw [first, second] at same
      exact ⟨i, same.symm, le_refl i⟩

/-- A literal's second is a datetime in milliseconds. -/
theorem floorSecond_hasLiteral {t : Int} (low : 1 ≤ yearOf (t / nanosPerSecond))
    (high : yearOf (t / nanosPerSecond) ≤ 9999) : InRange (floorSecond t) ∧ floorSecond t % 1000 = 0 := by
  have whole : floorSecond t / 1000000 = t / nanosPerSecond := by
    unfold floorSecond
    omega
  have millis : floorSecond t % 1000 = 0 := by
    unfold floorSecond
    omega
  refine ⟨?_, millis⟩
  rw [InRange, whole]
  exact ⟨low, high⟩

/-- **A window's query means its window**: the closed-won opportunities stamped from the second of
`from_` up to the second of `upper`, each once, by SystemModstamp and Id. -/
theorem query_selects_window (printable : Char → Bool) (store : Store) (apiVersion : String) {from_ upper : Int}
    (fromYear : 1 ≤ yearOf (from_ / nanosPerSecond) ∧ yearOf (from_ / nanosPerSecond) ≤ 9999)
    (upperYear : 1 ≤ yearOf (upper / nanosPerSecond) ∧ yearOf (upper / nanosPerSecond) ≤ 9999) :
    ∃ (q : Query) (rows : List OpportunityRecord), parse printable (query from_ upper).text = .ok q ∧
      store.runQuery q apiVersion = rows.map (fun opp => store.project opp q.fields apiVersion) ∧
      rows.Perm (store.records.filter (InsideWindow (floorSecond from_) (floorSecond upper))) ∧
      rows.Pairwise Ascending := by
  have has := windowQuery_hasText (floorSecond_hasLiteral fromYear.1 fromYear.2)
    (floorSecond_hasLiteral upperYear.1 upperYear.2)
  have read := parse_print_plain printable has (fun text mem => by cases mem) rfl
  have text : print (windowQuery (floorSecond from_) (floorSecond upper)) = (query from_ upper).text :=
    print_windowQuery fromYear.1 fromYear.2 upperYear.1 upperYear.2
  have same : store.records.filter (store.Satisfies (windowQuery (floorSecond from_) (floorSecond upper)).conditions) =
      store.records.filter (InsideWindow (floorSecond from_) (floorSecond upper)) :=
    List.filter_congr fun opp _ => decide_eq_decide.mpr (satisfies_windowQuery store _ _ opp)
  have perm := store.perm_chosen (windowQuery (floorSecond from_) (floorSecond upper))
  rw [same] at perm
  refine ⟨windowQuery (floorSecond from_) (floorSecond upper), store.chosen _, text ▸ read, ?_, perm, ?_⟩
  · rw [store.runQuery_eq]
    exact congrArg (List.map _) (List.take_of_length_le (le_refl _))
  · refine (store.pairwise_chosen (windowQuery (floorSecond from_) (floorSecond upper))).imp_of_mem ?_
    intro a b memA memB ordered
    have insideA := of_decide_eq_true (List.mem_filter.mp (perm.subset memA)).2
    have insideB := of_decide_eq_true (List.mem_filter.mp (perm.subset memB)).2
    exact ascending_of_ordered insideA insideB ordered

/-- A deal won in the first second of 1970. -/
def epochDeal : OpportunityRecord where
  id := some "006000000000001AAA"
  name := none
  accountId := none
  amount := none
  closeDate := none
  stageName := some "Closed Won"
  systemModstamp := some 0
  lastModifiedDate := some 0
  createdDate := some 0

def epochStore : Store where
  accounts := []
  opportunities := [("006000000000001AAA", epochDeal)]
  accounts_nodup := List.nodup_nil
  opportunities_nodup := List.nodup_singleton _

/-- The window of that second has the deal. -/
theorem query_selects_epoch :
    ∃ (q : Query) (rows : List OpportunityRecord), parse (fun _ => true) (query 0 1000000000).text = .ok q ∧
      epochStore.runQuery q "v60.0" = rows.map (fun opp => epochStore.project opp q.fields "v60.0") ∧
      rows = [epochDeal] := by
  have first : 1 ≤ yearOf (0 / nanosPerSecond) ∧ yearOf (0 / nanosPerSecond) ≤ 9999 := by decide
  have second : 1 ≤ yearOf (1000000000 / nanosPerSecond) ∧ yearOf (1000000000 / nanosPerSecond) ≤ 9999 := by decide
  obtain ⟨q, rows, read, answered, perm, -⟩ := query_selects_window (fun _ => true) epochStore "v60.0" first second
  have inside : epochStore.records.filter (InsideWindow (floorSecond 0) (floorSecond 1000000000)) = [epochDeal] := by
    with_unfolding_all rfl
  rw [inside] at perm
  exact ⟨q, rows, read, answered, List.perm_singleton.mp perm⟩

end Relay.Ingest
