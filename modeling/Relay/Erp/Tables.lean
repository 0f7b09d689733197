import Relay.Effect.Pool
import Relay.Erp.Ledger
import Relay.Platform.World

/-!
The three ERP tables, in every reachable state.

`Kept` is the invariant: the tables record the ledger of the transactions that
DynamoDB committed, whatever their callers saw. `Hosts` says what a system has to
promise for `write_order` to run in it, and `writeOrder_keeps` what the call then
does: it commits at most its own transaction, and when it returns a result the
order is stored at its version or a newer one.

`tables_agree` reads the agreement of the three tables off the ledger.
-/

namespace Relay.Erp

open Relay.Effect Relay.Platform Relay.Dynamo Relay.Python Ledger

/-! ### The ledger of a state -/

/-- The ledger behind the committed transactions of a state. -/
structure IsLedger (ledger : Ledger) (s : State Table) : Prop where
  log : s.log = ledger.map Write.updates
  records : Records ledger s.db

/-- The tables record a ledger. -/
def Kept (s : State Table) : Prop := ∃ ledger, IsLedger ledger s

/-- Writes were only added. -/
def Extends (s t : State Table) : Prop :=
  ∀ ledger, IsLedger ledger s → ∃ more, IsLedger (ledger ++ more) t

theorem kept_empty : Kept State.empty := ⟨[], rfl, records_empty⟩

theorem Extends.refl (s : State Table) : Extends s s :=
  fun ledger is => ⟨[], by rwa [List.append_nil]⟩

theorem Extends.trans {s t u : State Table} (first : Extends s t) (second : Extends t u) :
    Extends s u := by
  intro ledger is
  obtain ⟨more, is⟩ := first ledger is
  obtain ⟨more', is⟩ := second _ is
  exact ⟨more ++ more', by rwa [← List.append_assoc]⟩

theorem Kept.extends {s t : State Table} (kept : Kept s) (more : Extends s t) : Kept t := by
  obtain ⟨ledger, is⟩ := kept
  obtain ⟨more, is⟩ := more ledger is
  exact ⟨_, is⟩

theorem extends_of_committed {s t : State Table} {order : Order} {now : String}
    (committed : Committed (transaction order now) s t) : Extends s t := by
  intro ledger is
  refine ⟨[⟨order, now⟩], ?_, is.records.commit committed.1⟩
  rw [committed.2, is.log, List.map_append]
  rfl

/-! ### The stored version of an order -/

/-- The order is stored at this version or a newer one. -/
def StoredFrom (s : State Table) (orderId : String) (version : Int) : Prop :=
  ∃ (item : Item) (stored : Int), s.db .orders orderId = some item ∧
    item "version" = some (.n stored) ∧ version ≤ stored

theorem IsLedger.stored {ledger : Ledger} {s : State Table} (is : IsLedger ledger s)
    {orderId : String} {last : Write} (ends : (ledger.ofOrder orderId).getLast? = some last) :
    ∃ item, s.db .orders orderId = some item ∧ item "version" = some (.n last.order.version) := by
  obtain ⟨first, head⟩ : ∃ first, (ledger.ofOrder orderId).head? = some first := by
    cases split : ledger.ofOrder orderId with
    | nil =>
        rw [split] at ends
        cases ends
    | cons first rest => exact ⟨first, rfl⟩
  exact ⟨_, by rw [is.records.orders, Ledger.orderRow, row_of_ends _ _ head ends], rfl⟩

/-- An order's item is that of its last write. -/
theorem IsLedger.last {ledger : Ledger} {s : State Table} (is : IsLedger ledger s)
    {orderId : String} {item : Item} (stored : s.db .orders orderId = some item) :
    ∃ first last, (ledger.ofOrder orderId).head? = some first ∧
      (ledger.ofOrder orderId).getLast? = some last ∧
      item = ofFields (orderShape.fields first last (ledger.ofOrder orderId).length ++
        [("order_id", .s orderId)]) := by
  rw [is.records.orders, Ledger.orderRow] at stored
  cases split : ledger.ofOrder orderId with
  | nil =>
      rw [split] at stored
      cases stored
  | cons first rest =>
      rw [split] at stored
      rw [row_of_ends _ _ List.head?_cons List.getLast?_cons] at stored
      exact ⟨first, _, rfl, List.getLast?_cons, (Option.some.inj stored).symm⟩

/-- The last of rising versions is the largest. -/
theorem Ledger.Rising.le_last {ledger : Ledger} (rising : ledger.Rising) {orderId : String}
    {last v : Write} (ends : (ledger.ofOrder orderId).getLast? = some last)
    (mem : v ∈ ledger.ofOrder orderId) : v.order.version ≤ last.order.version := by
  rcases List.eq_nil_or_concat (ledger.ofOrder orderId) with none | ⟨init, top, split⟩
  · rw [none] at mem
    cases mem
  · have before := rising orderId
    rw [List.concat_eq_append] at split
    rw [split, List.getLast?_concat] at ends
    obtain rfl := Option.some.inj ends
    rw [split, List.map_append, List.pairwise_append] at before
    rw [split, List.mem_append] at mem
    rcases mem with mem | mem
    · exact (before.2.2 _ (List.mem_map_of_mem mem) _ (by simp)).le
    · obtain rfl : v = top := by simpa using mem
      exact le_refl _

theorem ofOrder_append (ledger more : Ledger) (orderId : String) :
    (ledger ++ more).ofOrder orderId = ledger.ofOrder orderId ++ more.ofOrder orderId :=
  List.filter_append ..

/-- Versions never decrease, and an order once stored stays. -/
theorem StoredFrom.extends {s t : State Table} {orderId : String} {version : Int}
    (stored : StoredFrom s orderId version) (kept : Kept s) (more : Extends s t) :
    StoredFrom t orderId version := by
  obtain ⟨item, at_, here, value, le⟩ := stored
  obtain ⟨ledger, is⟩ := kept
  obtain ⟨more, is'⟩ := more ledger is
  obtain ⟨first, last, -, ends, rfl⟩ := is.last here
  obtain rfl : last.order.version = at_ := by
    have same : some (AttrVal.n last.order.version) = some (.n at_) := value
    exact_mod_cast AttrVal.n.inj (Option.some.inj same)
  have mem : last ∈ (ledger ++ more).ofOrder orderId := by
    rw [ofOrder_append]
    exact List.mem_append_left _ (List.mem_of_getLast? ends)
  obtain ⟨last', ends'⟩ : ∃ last', ((ledger ++ more).ofOrder orderId).getLast? = some last' := by
    cases split : (ledger ++ more).ofOrder orderId with
    | nil =>
        rw [split] at mem
        cases mem
    | cons first rest => exact ⟨_, List.getLast?_cons⟩
  obtain ⟨item', here', value'⟩ := is'.stored ends'
  exact ⟨item', _, here', value', le.trans (is'.records.rising.le_last ends' mem)⟩

/-- A commit stores the order at its version. -/
theorem storedFrom_of_committed {s t : State Table} {order : Order} {now : String} (kept : Kept s)
    (committed : Committed (transaction order now) s t) : StoredFrom t order.orderId order.version := by
  obtain ⟨ledger, is⟩ := kept
  obtain ⟨w, write⟩ : ∃ w : Write, w = ⟨order, now⟩ := ⟨_, rfl⟩
  have is' : IsLedger (ledger ++ [w]) t := by
    refine ⟨by rw [committed.2, is.log, List.map_append, write]; rfl, is.records.commit ?_⟩
    rw [write]
    exact committed.1
  have ends : ((ledger ++ [w]).ofOrder order.orderId).getLast? = some w := by
    rw [ofOrder_concat, if_pos (by rw [write]), List.getLast?_concat]
  obtain ⟨item, here, value⟩ := is'.stored ends
  rw [write] at value
  exact ⟨item, _, here, value, le_refl _⟩

/-! ### One call of `write_order` -/

/-- What a system promises to a `write_order` that runs in it: its calls are
answered by the platform, its ERP tables record a ledger and are only added to,
and it takes any write of an allowed order. -/
structure Hosts (S : Services) (C : Contract World Request.Answer) (allowed : Order → Prop) :
    Prop where
  answers : C.answers = S.Answers
  kept : ∀ w, C.inv w → Kept w.erp
  extends_ : ∀ w w', C.rely w w' → Extends w.erp w'.erp
  guar_refl : ∀ w, C.inv w → C.guar w w
  takes : ∀ w erp order now, allowed order → C.inv w →
    Committed (transaction order now) w.erp erp → C.inv { w with erp := erp } ∧ C.guar w { w with erp := erp }

/-- Returned with a result: the order is stored at its version or a newer one. -/
def Settled (order : Order) (result : Except Exn WriteResult) (w : World) : Prop :=
  ∀ value, result = .ok value → StoredFrom w.erp order.orderId order.version

theorem settled_error (order : Order) (exc : Exn) (w : World) : Settled order (.error exc) w :=
  fun _ ok => nomatch ok

/-- A condition that failed is that of a stored order, at the incoming version or
above. -/
theorem stored_of_condition {s : State Table} (kept : Kept s) {order : Order} {now : String}
    (failed : (orderUpdate order now).conditionHolds (s.db .orders order.orderId) = false) :
    StoredFrom s order.orderId order.version := by
  cases here : s.db .orders order.orderId with
  | none =>
      rw [here] at failed
      cases failed
  | some item =>
      obtain ⟨ledger, is⟩ := kept
      obtain ⟨first, last, -, -, rfl⟩ := is.last here
      refine ⟨_, last.order.version, here, rfl, ?_⟩
      have present : ofFields (orderShape.fields first last (ledger.ofOrder order.orderId).length ++
          [("order_id", .s order.orderId)]) "order_id" = some (.s order.orderId) := rfl
      have version : ofFields (orderShape.fields first last (ledger.ofOrder order.orderId).length ++
          [("order_id", .s order.orderId)]) "version" = some (.n last.order.version) := rfl
      rw [here] at failed
      simpa only [Update.conditionHolds, orderUpdate, Condition.holds, attr_some, present, version,
        Option.isNone_some, Bool.false_or, decide_eq_false_iff_not, Int.cast_lt, not_lt] using failed

/-- In the tables of a ledger, the condition alone decides whether a write commits. -/
theorem transact_isSome_of_kept {erp : State Table} (kept : Kept erp) (order : Order)
    (now : String) : (erp.db.transact (transaction order now)).isSome = true ↔
      (orderUpdate order now).conditionHolds (erp.db .orders order.orderId) = true := by
  obtain ⟨ledger, is⟩ := kept
  have applied := orderUpdate_apply ⟨order, now⟩ (ledger.ofOrder order.orderId)
  rw [Ledger.row_concat] at applied
  rw [transact_isSome_iff, is.records.orders, Ledger.orderRow, applied]
  exact and_iff_left rfl

/-- The verdict on the order that is stored. -/
theorem verdict_of_stored {order : Order} {item : Item} {version : Int}
    (value : item "version" = some (.n version)) :
    verdict order (some item) =
      if version = order.version then .ok .duplicate
      else if order.version < version then .ok .stale
      else .error (.erpUnavailable "order changed during the write; retrying") := by
  simp [verdict, storedVersion, value]

/-- The verdict on the stored item is a result only at a version that is stored. -/
theorem verdict_ok {s : State Table} {order : Order} {stored : Option Item} {result : WriteResult}
    (here : s.db .orders order.orderId = stored) (exists_ : stored.isSome = true)
    (ok : verdict order stored = .ok result) : StoredFrom s order.orderId order.version := by
  cases stored with
  | none => cases exists_
  | some item =>
      unfold verdict at ok
      cases version : storedVersion (some item) with
      | error exc =>
          rw [version] at ok
          cases ok
      | ok v =>
          rw [version] at ok
          have value : item "version" = some (.n v) := by
            unfold storedVersion at version
            split at version
            · cases ‹some item = none›
            · rename_i item' same
              obtain rfl := Option.some.inj same
              split at version
              · rename_i q read
                split at version
                · rename_i whole
                  obtain rfl := Except.ok.inj version
                  rw [read, Rat.coe_int_num_of_den_eq_one whole]
                · cases version
              · cases version
              · cases version
          refine ⟨item, v, here, value, ?_⟩
          by_cases same : v = order.version
          · exact same.ge
          · by_cases newer : order.version < v
            · exact newer.le
            · simp only [if_neg same, if_neg newer] at ok
              cases ok

/-- A transaction commits on the tables of a ledger whose writes of the order are all older. -/
theorem IsLedger.commits {ledger : Ledger} {s : State Table} (is : IsLedger ledger s) {order : Order}
    (newer : ∀ v ∈ ledger.ofOrder order.orderId, v.order.version < order.version) (now : String) :
    ∃ t, Committed (transaction order now) s t ∧ IsLedger (ledger ++ [⟨order, now⟩]) t := by
  have holds : (orderUpdate order now).conditionHolds (s.db .orders order.orderId) = true := by
    by_contra failed
    obtain ⟨item, stored, here, value, le⟩ := stored_of_condition ⟨ledger, is⟩ (eq_false_of_ne_true failed)
    obtain ⟨first, last, -, ends, rfl⟩ := is.last here
    have same : some (AttrVal.n last.order.version) = some (.n stored) := value
    have at_ : last.order.version = stored := by exact_mod_cast AttrVal.n.inj (Option.some.inj same)
    have below := newer last (List.mem_of_getLast? ends)
    omega
  obtain ⟨db, written⟩ := Option.isSome_iff_exists.mp
    ((transact_isSome_of_kept ⟨ledger, is⟩ order now).mpr holds)
  refine ⟨⟨db, s.log ++ [transaction order now]⟩, ⟨written, rfl⟩, ?_, is.records.commit written⟩
  rw [is.log, List.map_append]
  rfl

/-- Where the last write of the order is as new or newer, the condition is false, and the stored
item comes with that write's version. -/
theorem IsLedger.refuses {ledger : Ledger} {s : State Table} (is : IsLedger ledger s) {order : Order}
    {last : Write} (ends : (ledger.ofOrder order.orderId).getLast? = some last)
    (le : order.version ≤ last.order.version) (now : String) :
    ∃ item, s.db .orders order.orderId = some item ∧ item "version" = some (.n last.order.version) ∧
      (orderUpdate order now).conditionHolds (some item) = false := by
  obtain ⟨item, here, value⟩ := is.stored ends
  obtain ⟨first, last', -, -, same⟩ := is.last here
  have key : item "order_id" = some (.s order.orderId) := by
    rw [same]
    rfl
  refine ⟨item, here, value, ?_⟩
  simp [Update.conditionHolds, orderUpdate, Condition.holds, key, value, le]

section WriteOrder

variable {S : Services} {C : Contract World Request.Answer} {allowed : Order → Prop}
  {printable : Char → Bool}

/-- What `_classify` makes of an error that is true of the tables. -/
theorem classify_keeps (hosts : Hosts S C allowed) {response : ErrorResponse} {order : Order} {now : String}
    {w : World} (inv : C.inv w) (truthful : Truthful (transaction order now) response w.erp.db) :
    Keeps C (Settled order) (classify printable response order) w := by
  have kept := hosts.kept w inv
  unfold classify
  split
  · split
    · rename_i first rest reasons
      split
      · rename_i code
        have failed : first.code = some "ConditionalCheckFailed" := by
          unfold Erp.code at code
          cases named : first.code with
          | none =>
              rw [named] at code
              exact absurd code (by decide)
          | some text =>
              rw [named] at code
              exact congrArg some code
        obtain ⟨condition, item⟩ := truthful 0 (orderUpdate order now) first rfl
          (by rw [reasons]; rfl) failed
        have stored := stored_of_condition kept condition
        split
        · rename_i item' returned
          intro value ok
          exact verdict_ok (item item' returned) rfl ok
        · -- The order that failed the condition is still there when it is read.
          refine Keeps.perform_bind fun w₁ moved inv₁ reply w₂ answered => ?_
          rw [hosts.answers] at answered
          obtain ⟨rfl, read⟩ := answered
          refine ⟨inv₁, hosts.guar_refl _ inv₁, ?_⟩
          cases reply with
          | error fault => exact settled_error _ _ _
          | ok stored' =>
              intro value ok
              have later := stored.extends kept (hosts.extends_ _ _ moved)
              have here := read stored' rfl
              obtain ⟨item, _, present, -⟩ := later
              refine verdict_ok here.symm ?_ ok
              rw [here]
              exact Option.isSome_iff_exists.mpr ⟨item, present⟩
      · exact settled_error _ _ _
    · exact settled_error _ _ _
  · split
    · exact settled_error _ _ _
    · split
      · exact settled_error _ _ _
      · exact settled_error _ _ _

/-- `write_order` commits at most its own transaction, and returns a result only
when the order is stored at its version or a newer one. -/
theorem writeOrder_keeps (hosts : Hosts S C allowed) {order : Order} (may : allowed order)
    (now : String) (w : World) :
    Keeps C (Settled order) (writeOrder printable order now) w := by
  refine Keeps.perform_bind fun w₁ _ inv₁ reply w₂ answered => ?_
  rw [hosts.answers] at answered
  obtain ⟨erp, seen, rfl⟩ := answered
  have step : C.inv { w₁ with erp := erp } ∧ C.guar w₁ { w₁ with erp := erp } := by
    rcases seen.cases with rfl | committed
    · exact ⟨inv₁, hosts.guar_refl _ inv₁⟩
    · exact hosts.takes w₁ erp order now may inv₁ committed
  refine ⟨step.1, step.2, ?_⟩
  cases reply with
  | ok value =>
      exact fun _ _ => storedFrom_of_committed (hosts.kept _ inv₁) seen.2
  | error fault =>
      cases fault with
      | client response => exact classify_keeps hosts step.1 seen.2
      | other typeName message => exact settled_error _ _ _

end WriteOrder

end Relay.Erp
