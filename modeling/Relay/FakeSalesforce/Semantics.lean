import Relay.FakeSalesforce.Store

/-!
What a query means.

`Test.Holds` and `Ordered` say it on the values of a field and null, without the
store's dictionaries and sorts: a comparison of order needs two values, and null
comes first in an ascending order and last in a descending one. `runQuery_spec` is
what the store makes of it.
-/

namespace Relay.FakeSalesforce

open Relay.Python Relay.Data

/-! ### Conditions -/

section Values

variable {K : Type} [LinearOrder K]

def Comparison.Holds : Comparison → Option K → Option K → Prop
  | .eq, value, target => value = target
  | .ne, value, target => value ≠ target
  | .lt, value, target => ∃ a b, value = some a ∧ target = some b ∧ a < b
  | .le, value, target => ∃ a b, value = some a ∧ target = some b ∧ a ≤ b
  | .gt, value, target => ∃ a b, value = some a ∧ target = some b ∧ b < a
  | .ge, value, target => ∃ a b, value = some a ∧ target = some b ∧ b ≤ a

/-- The first value comes before the second one in an order. -/
def KeyBefore : (descending : Bool) → Option K → Option K → Prop
  | false, none, some _ => True
  | false, some a, some b => a < b
  | true, some _, none => True
  | true, some a, some b => b < a
  | _, _, _ => False

end Values

/-- A field's value, as far as comparisons see it. -/
def compared (t : FieldType) (value : Option t.Val) : Option t.Key := value.map (key t)

def Test.Holds {t : FieldType} (value : Option t.Val) : Test t → Prop
  | .compare op target => op.Holds (compared t value) (compared t target)
  | .isIn values => ∃ text ∈ values, asText t value = some text

theorem ordering_iff {t : FieldType} {holds : t.Key → t.Key → Bool} {value target : Option t.Val} :
    ordering holds value target = true ↔
      ∃ a b, compared t value = some a ∧ compared t target = some b ∧ holds a b = true := by
  cases value with
  | none => simp [ordering, compared]
  | some a =>
      cases target with
      | none => simp [ordering, compared]
      | some b => simp [ordering, compared]

theorem matchesTest_iff {t : FieldType} (value : Option t.Val) (test : Test t) :
    matchesTest value test = true ↔ test.Holds value := by
  cases test with
  | isIn values =>
      cases text : asText t value with
      | none => simp [matchesTest, Test.Holds, text]
      | some text' => simp [matchesTest, Test.Holds, text]
  | compare op target =>
      cases op with
      | eq => simp [matchesTest, equal, Test.Holds, Comparison.Holds, compared]
      | ne => simp [matchesTest, equal, Test.Holds, Comparison.Holds, compared]
      | lt => simp [matchesTest, ordering_iff, Test.Holds, Comparison.Holds]
      | le => simp [matchesTest, ordering_iff, Test.Holds, Comparison.Holds]
      | gt => simp [matchesTest, ordering_iff, Test.Holds, Comparison.Holds]
      | ge => simp [matchesTest, ordering_iff, Test.Holds, Comparison.Holds]

namespace Store

variable (store : Store)

/-- The opportunity meets every condition. -/
def Satisfies (conditions : List Condition) (opp : OpportunityRecord) : Prop :=
  ∀ c ∈ conditions, c.test.Holds (store.fieldValue opp c.field)

theorem satisfies_iff (conditions : List Condition) (opp : OpportunityRecord) :
    store.satisfies conditions opp = true ↔ store.Satisfies conditions opp := by
  rw [satisfies, List.all_eq_true]
  exact forall₂_congr fun c _ => matchesTest_iff _ _

instance (conditions : List Condition) : DecidablePred (store.Satisfies conditions) := fun opp =>
  decidable_of_iff _ (store.satisfies_iff conditions opp)

/-! ### Order -/

/-- What an opportunity is ordered by. -/
def orderValue (orderBy : OrderBy) (opp : OpportunityRecord) : Option orderBy.field.ftype.Key :=
  compared orderBy.field.ftype (store.fieldValue opp orderBy.field)

/-- The first opportunity may come before the second one: the first key that tells them apart
says so. -/
def Ordered : List OrderBy → OpportunityRecord → OpportunityRecord → Prop
  | [], _, _ => True
  | orderBy :: rest, a, b =>
      KeyBefore orderBy.descending (store.orderValue orderBy a) (store.orderValue orderBy b) ∨
        (store.orderValue orderBy a = store.orderValue orderBy b ∧ Ordered rest a b)

/-- No key tells two opportunities apart. -/
def Tied (orderBy : List OrderBy) (a b : OpportunityRecord) : Prop :=
  ∀ key ∈ orderBy, store.orderValue key a = store.orderValue key b

instance (orderBy : List OrderBy) (a b : OpportunityRecord) : Decidable (store.Tied orderBy a b) := by
  unfold Tied
  infer_instance

end Store

theorem sortKeyLe_iff {t : FieldType} (a b : Option t.Val) :
    sortKeyLe a b ↔ KeyBefore false (compared t a) (compared t b) ∨ compared t a = compared t b := by
  cases a with
  | none => cases b <;> simp [sortKeyLe, KeyBefore, compared]
  | some a =>
      cases b with
      | none => simp [sortKeyLe, KeyBefore, compared]
      | some b => simp [sortKeyLe, KeyBefore, compared, le_iff_lt_or_eq]

theorem keyBefore_flip {K : Type} [LinearOrder K] (value target : Option K) :
    KeyBefore true value target ↔ KeyBefore false target value := by
  cases value <;> cases target <;> rfl

namespace Store

variable (store : Store)

/-- One key's relation: before or tied. -/
theorem sortKey_le_iff (key : OrderBy) (a b : OpportunityRecord) :
    (store.sortKey key).le a b ↔ KeyBefore key.descending (store.orderValue key a) (store.orderValue key b) ∨
      store.orderValue key a = store.orderValue key b := by
  obtain ⟨f, descending⟩ := key
  cases descending with
  | true =>
      rw [keyBefore_flip, eq_comm]
      exact sortKeyLe_iff _ _
  | false => exact sortKeyLe_iff _ _

theorem ordered_of_lexicographic {orderBy : List OrderBy} {a b : OpportunityRecord}
    (lexicographic : Lexicographic (orderBy.map store.sortKey) a b) : store.Ordered orderBy a b := by
  induction orderBy with
  | nil => exact trivial
  | cons key rest ih =>
      obtain ⟨le, later⟩ := lexicographic
      rcases (store.sortKey_le_iff key a b).mp le with before | tied
      · exact .inl before
      · exact .inr ⟨tied, ih (later ((store.sortKey_le_iff key b a).mpr (.inr tied.symm)))⟩

/-- The opportunities that satisfy every condition, sorted. -/
def chosen (query : Query) : List OpportunityRecord :=
  store.sorted (store.records.filter (store.Satisfies query.conditions)) query.orderBy

theorem runQuery_eq (query : Query) (apiVersion : String) :
    store.runQuery query apiVersion =
      ((store.chosen query).take
        ((query.limit.map fun limit => min limit (store.chosen query).length).getD (store.chosen query).length)).map
          fun opp => store.project opp query.fields apiVersion := by
  have same : store.records.filter (store.satisfies query.conditions) =
      store.records.filter (store.Satisfies query.conditions) := by
    refine List.filter_congr fun opp _ => ?_
    rw [Bool.eq_iff_iff, decide_eq_true_eq]
    exact store.satisfies_iff query.conditions opp
  rw [runQuery, same]
  cases query.limit with
  | none => simp [chosen]
  | some limit => simp [chosen, List.take_eq_take_min]

theorem perm_chosen (query : Query) :
    (store.chosen query).Perm (store.records.filter (store.Satisfies query.conditions)) := perm_sortAll _ _

theorem pairwise_chosen (query : Query) : (store.chosen query).Pairwise (store.Ordered query.orderBy) :=
  (pairwise_sortAll _ _).imp fun lexicographic => store.ordered_of_lexicographic lexicographic

theorem filter_chosen (query : Query) (opp : OpportunityRecord) :
    (store.chosen query).filter (store.Tied query.orderBy opp) =
      (store.records.filter (store.Satisfies query.conditions)).filter (store.Tied query.orderBy opp) := by
  refine filter_sortAll fun key mem a b tied tied' => ?_
  obtain ⟨orderBy, among, rfl⟩ := List.mem_map.mp mem
  have first := of_decide_eq_true tied orderBy among
  have second := of_decide_eq_true tied' orderBy among
  exact (store.sortKey_le_iff orderBy a b).mpr (.inr (first.symm.trans second))

/-- **A query's rows**: a prefix of the opportunities that satisfy every condition, in the order of
the keys, those that no key tells apart in the store's order. -/
theorem runQuery_spec (query : Query) (apiVersion : String) :
    ∃ rows : List OpportunityRecord,
      store.runQuery query apiVersion =
        (rows.take ((query.limit.map fun limit => min limit rows.length).getD rows.length)).map
          (fun opp => store.project opp query.fields apiVersion) ∧
      rows.Perm (store.records.filter (store.Satisfies query.conditions)) ∧
      rows.Pairwise (store.Ordered query.orderBy) ∧
      ∀ opp, rows.filter (store.Tied query.orderBy opp) =
        (store.records.filter (store.Satisfies query.conditions)).filter (store.Tied query.orderBy opp) :=
  ⟨store.chosen query, store.runQuery_eq query apiVersion, store.perm_chosen query, store.pairwise_chosen query,
    store.filter_chosen query⟩

end Store

end Relay.FakeSalesforce
