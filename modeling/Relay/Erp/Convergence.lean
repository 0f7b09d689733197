import Relay.Erp.Agreement
import Mathlib.Data.Finset.Max

/-!
Delivery order, duplication and crashes do not matter.

The orders of a list are delivered any number of times, in any order, to any
number of workers, which may crash or see an error for a write that committed. As
soon as every order was returned a result at least once, the orders and invoices
hold the newest version of each order (`Holds`), so that two such runs end in
tables that differ at most in the attributes that record when and how often an
item was written.
-/

namespace Relay.Erp

open Relay.Effect Relay.Platform Relay.Dynamo Relay.Python Ledger

/-- The attributes that depend on when and how often an item was written. -/
def volatile : List String := ["created_at", "updated_at", "revision"]

/-- An order's item, its volatile attributes apart. -/
def orderContent (order : Order) : Item :=
  ofFields
    [("customer_id", .s order.customerId), ("customer_name", .s order.customerName),
      ("opportunity_name", .s order.opportunityName), ("total", .n order.total.value),
      ("order_date", .s order.orderDate), ("version", .n order.version),
      ("source_modstamp", .s order.sourceModstamp), ("event_key", .s order.eventKey),
      ("order_id", .s order.orderId)]

/-- Its invoice's item. -/
def invoiceContent (order : Order) : Item :=
  ofFields
    [("order_id", .s order.orderId), ("customer_id", .s order.customerId),
      ("amount", .n order.total.value), ("issue_date", .s order.orderDate),
      ("status", .s "ISSUED"), ("version", .n order.version), ("event_key", .s order.eventKey),
      ("invoice_id", .s (invoiceIdFor order.orderId))]

/-- The order and its one invoice are stored with these fields. -/
def Holds (db : Db Table) (order : Order) : Prop :=
  ∃ item invoice, db .orders order.orderId = some item ∧
    db .invoices (invoiceIdFor order.orderId) = some invoice ∧
    ∀ name ∉ volatile, item name = orderContent order name ∧ invoice name = invoiceContent order name

/-- Nothing is stored for an order. -/
def HoldsNone (db : Db Table) (orderId : String) : Prop :=
  db .orders orderId = none ∧ db .invoices (invoiceIdFor orderId) = none

/-- Two orders carry the same fields. -/
def SameFields (a b : Order) : Prop := orderContent a = orderContent b ∧ invoiceContent a = invoiceContent b

/-- Orders of one version carry the same fields. -/
def Consistent (orders : List Order) : Prop :=
  ∀ a ∈ orders, ∀ b ∈ orders, a.orderId = b.orderId → a.version = b.version → SameFields a b

/-- `m` is a newest order of its id. -/
def Newest (orders : List Order) (m : Order) : Prop :=
  m ∈ orders ∧ ∀ a ∈ orders, a.orderId = m.orderId → a.version ≤ m.version

/-- Equal tables, the volatile attributes apart. -/
def SameTable (db db' : Db Table) (table : Table) : Prop :=
  ∀ key, (db table key).isSome = (db' table key).isSome ∧
    ∀ name ∉ volatile, attr (db table key) name = attr (db' table key) name

theorem exists_newest {orders : List Order} {a : Order} (mem : a ∈ orders) :
    ∃ m, Newest orders m ∧ m.orderId = a.orderId := by
  obtain ⟨m, mem', top⟩ := Finset.exists_max_image
    (orders.filter fun o => o.orderId = a.orderId).toFinset (fun o => o.version)
    ⟨a, by simp [mem]⟩
  simp only [List.mem_toFinset, List.mem_filter, decide_eq_true_eq] at mem' top
  exact ⟨m, ⟨mem'.1, fun b memB same => top b ⟨memB, same.trans mem'.2⟩⟩, mem'.2⟩

/-! ### What a ledger of such orders stores -/

theorem lookup_orderShape {first last : Write} {count : Nat} {name : String} (stable : name ∉ volatile) :
    ofFields (orderShape.fields first last count ++ [("order_id", .s last.order.orderId)]) name =
      orderContent last.order name := by
  simp only [volatile, List.mem_cons, List.not_mem_nil, or_false, not_or] at stable
  obtain ⟨created, updated, revision⟩ := stable
  have created : (name == "created_at") = false := by simpa using created
  have updated : (name == "updated_at") = false := by simpa using updated
  have revision : (name == "revision") = false := by simpa using revision
  simp only [ofFields, orderShape, orderContent, List.cons_append, List.nil_append, List.lookup_cons,
    created, updated, revision]

theorem lookup_invoiceShape {first last : Write} {count : Nat} {name : String}
    (stable : name ∉ volatile) :
    ofFields (invoiceShape.fields first last count ++
        [("invoice_id", .s (invoiceIdFor last.order.orderId))]) name =
      invoiceContent last.order name := by
  simp only [volatile, List.mem_cons, List.not_mem_nil, or_false, not_or] at stable
  obtain ⟨created, updated, -⟩ := stable
  have created : (name == "created_at") = false := by simpa using created
  have updated : (name == "updated_at") = false := by simpa using updated
  simp only [ofFields, invoiceShape, invoiceContent, List.cons_append, List.nil_append,
    List.lookup_cons, created, updated]

/-- The tables hold the last write of each order. -/
theorem IsLedger.holds {ledger : Ledger} {s : State Table} (is : IsLedger ledger s) {orderId : String}
    {last : Write} (ends : (ledger.ofOrder orderId).getLast? = some last) : Holds s.db last.order := by
  have own := (mem_of_ofOrder (List.mem_of_getLast? ends)).2
  subst own
  obtain ⟨first, head⟩ : ∃ first, (ledger.ofOrder last.order.orderId).head? = some first := by
    cases split : ledger.ofOrder last.order.orderId with
    | nil =>
        rw [split] at ends
        cases ends
    | cons first rest => exact ⟨first, rfl⟩
  refine ⟨_, _, by rw [is.records.orders, Ledger.orderRow, row_of_ends _ _ head ends],
    by rw [is.records.invoices, Ledger.invoiceRow, row_of_ends _ _ head ends], fun name stable => ?_⟩
  exact ⟨lookup_orderShape stable, lookup_invoiceShape stable⟩

theorem IsLedger.holdsNone {ledger : Ledger} {s : State Table} (is : IsLedger ledger s)
    {orderId : String} (none : ledger.ofOrder orderId = []) : HoldsNone s.db orderId :=
  ⟨by rw [is.records.orders, Ledger.orderRow, none, row_nil],
    by rw [is.records.invoices, Ledger.invoiceRow, none, row_nil]⟩

theorem Holds.sameFields {db : Db Table} {a b : Order} (same : SameFields a b)
    (sameId : a.orderId = b.orderId) (holds : Holds db a) : Holds db b := by
  obtain ⟨item, invoice, here, here', fields⟩ := holds
  rw [sameId] at here here'
  exact ⟨item, invoice, here, here', same.1 ▸ same.2 ▸ fields⟩

/-! ### Runs -/

/-- A delivery of one of the orders. -/
inductive Delivers (printable : Char → Bool) (orders : List Order) :
    Order → Act (Except Exn WriteResult) → Prop where
  | deliver {order : Order} (now : String) : order ∈ orders →
      Delivers printable orders order (writeOrder printable order now)

/-- The ledger holds writes of the orders only. -/
def KeptOf (orders : List Order) (s : State Table) : Prop :=
  ∃ ledger, IsLedger ledger s ∧ ∀ w ∈ ledger, w.order ∈ orders

/-- A system of deliveries. -/
def deliveries (S : Services) (orders : List Order) : Contract World Request.Answer :=
  { writers S with inv := fun w => KeptOf orders w.erp }

theorem KeptOf.kept {orders : List Order} {s : State Table} (kept : KeptOf orders s) : Kept s := by
  obtain ⟨ledger, is, -⟩ := kept
  exact ⟨ledger, is⟩

theorem deliveries_host (S : Services) (orders : List Order) :
    Hosts S (deliveries S orders) fun order => order ∈ orders where
  answers := rfl
  kept := fun _ inv => inv.kept
  extends_ := fun _ _ moved => moved
  guar_refl := fun w _ => Extends.refl w.erp
  takes := by
    intro w erp order now mem inv committed
    obtain ⟨ledger, is, only⟩ := inv
    refine ⟨⟨ledger ++ [⟨order, now⟩], ?_, ?_⟩, extends_of_committed committed⟩
    · refine ⟨?_, is.records.commit committed.1⟩
      rw [committed.2, is.log, List.map_append]
      rfl
    · intro v memV
      rcases List.mem_append.mp memV with memV | memV
      · exact only v memV
      · obtain rfl : v = ⟨order, now⟩ := by simpa using memV
        exact mem

section Runs

variable {S : Services} {printable : Char → Bool} {orders : List Order}
  {s t : Pool World Order Request.Answer (Except Exn WriteResult)} {w : World}

theorem delivers_keeps {allowed : List Order} (sub : orders ⊆ allowed) (order : Order)
    (program : Act (Except Exn WriteResult)) (v : World) (starts : Delivers printable orders order program)
    (inv : (deliveries S allowed).inv v) : Keeps (deliveries S allowed) (Done order) program v := by
  cases starts with
  | deliver now mem =>
      exact Keeps.mono (fun result w' inv' settled => ⟨inv'.kept, settled⟩) inv
        (writeOrder_keeps (deliveries_host S allowed) (sub mem) now v)

/-- Deliveries of some of the orders, from tables that hold writes of orders only. -/
theorem deliveries_sound {allowed : List Order} (start : KeptOf allowed w.erp) (sub : orders ⊆ allowed)
    (reached : Pool.Reaches S.Answers OutsideErp (Delivers printable orders) (Pool.idle w) s) :
    Pool.Sound (deliveries S allowed) Done s :=
  (Pool.sound_idle (C := deliveries S allowed) start).reaches
    (fun _ _ _ _ moved _ done => done.stays moved) (fun _ _ inv moved => moved.keeps (P := KeptOf allowed) inv)
    (fun _ _ guar => guar) (delivers_keeps sub) reached

theorem keptOf_empty (orders : List Order) : KeptOf orders State.empty :=
  ⟨[], ⟨rfl, records_empty⟩, by simp⟩

theorem deliveries_sound_empty (empty : w.erp = State.empty)
    (reached : Pool.Reaches S.Answers OutsideErp (Delivers printable orders) (Pool.idle w) s) :
    Pool.Sound (deliveries S orders) Done s :=
  deliveries_sound (by rw [empty]; exact keptOf_empty orders) (List.Subset.refl orders) reached

/-- Every order was delivered until `write_order` returned a result. -/
def AllReturned (orders : List Order)
    (s : Pool World Order Request.Answer (Except Exn WriteResult)) : Prop :=
  ∀ order ∈ orders, ∃ result, (order, .ok result) ∈ s.finished

/-- Once every order was returned a result, each is stored at its newest version. -/
theorem holds_newest (empty : w.erp = State.empty) (consistent : Consistent orders)
    (reached : Pool.Reaches S.Answers OutsideErp (Delivers printable orders) (Pool.idle w) s)
    (returned : AllReturned orders s) {m : Order} (newest : Newest orders m) :
    Holds s.world.erp.db m := by
  have sound := deliveries_sound_empty empty reached
  obtain ⟨ledger, is, only⟩ := sound.inv
  obtain ⟨result, finished⟩ := returned m newest.1
  obtain ⟨item, stored, here, version, le⟩ := (sound.finished _ finished).2 result rfl
  obtain ⟨first, last, -, ends, rfl⟩ := is.last here
  obtain ⟨mem, own⟩ := mem_of_ofOrder (List.mem_of_getLast? ends)
  have at_ : last.order.version = stored := by
    have same : some (AttrVal.n last.order.version) = some (.n stored) := version
    exact_mod_cast AttrVal.n.inj (Option.some.inj same)
  have top := newest.2 last.order (only last mem) own
  have above : m.version ≤ stored := le
  have same := consistent last.order (only last mem) m newest.1 own (by omega)
  exact (is.holds ends).sameFields same own

theorem holds_none (empty : w.erp = State.empty)
    (reached : Pool.Reaches S.Answers OutsideErp (Delivers printable orders) (Pool.idle w) s)
    {orderId : String} (absent : ∀ a ∈ orders, a.orderId ≠ orderId) :
    HoldsNone s.world.erp.db orderId := by
  obtain ⟨ledger, is, only⟩ := (deliveries_sound_empty empty reached).inv
  refine is.holdsNone (List.filter_eq_nil_iff.mpr fun v mem => ?_)
  simpa using absent v.order (only v mem)

theorem invoices_keyed (empty : w.erp = State.empty)
    (reached : Pool.Reaches S.Answers OutsideErp (Delivers printable orders) (Pool.idle w) s)
    {key : String} (other : ∀ orderId, key ≠ invoiceIdFor orderId) :
    s.world.erp.db .invoices key = none := by
  obtain ⟨ledger, is, -⟩ := (deliveries_sound_empty empty reached).inv
  exact is.records.noOther key other

/-- Two tables that hold the same orders are the same. -/
theorem sameTable_of_holds {db db' : Db Table}
    (stored : ∀ orderId, (∃ order, order.orderId = orderId ∧ Holds db order ∧ Holds db' order) ∨
      (HoldsNone db orderId ∧ HoldsNone db' orderId))
    (keyed : ∀ key, (∀ orderId, key ≠ invoiceIdFor orderId) →
      db .invoices key = none ∧ db' .invoices key = none) :
    SameTable db db' .orders ∧ SameTable db db' .invoices := by
  constructor
  · intro key
    rcases stored key with ⟨order, rfl, ⟨item, _, here, _, fields⟩, item', _, here', _, fields'⟩ |
      ⟨none, none'⟩
    · rw [here, here']
      exact ⟨rfl, fun name stable => (fields name stable).1.trans (fields' name stable).1.symm⟩
    · rw [none.1, none'.1]
      exact ⟨rfl, fun _ _ => rfl⟩
  · intro key
    by_cases invoice : ∃ orderId, key = invoiceIdFor orderId
    · obtain ⟨orderId, rfl⟩ := invoice
      rcases stored orderId with
        ⟨order, rfl, ⟨_, item, _, here, fields⟩, _, item', _, here', fields'⟩ | ⟨none, none'⟩
      · rw [here, here']
        exact ⟨rfl, fun name stable => (fields name stable).2.trans (fields' name stable).2.symm⟩
      · rw [none.2, none'.2]
        exact ⟨rfl, fun _ _ => rfl⟩
    · obtain ⟨none, none'⟩ := keyed key fun orderId same => invoice ⟨orderId, same⟩
      rw [none, none']
      exact ⟨rfl, fun _ _ => rfl⟩

/-- Any two ways to deliver the same orders, each until `write_order` returned a
result, end in the same orders and invoices but for when and how often they were
written: those of each order's newest version. -/
theorem deliveries_converge {w' : World} (empty : w.erp = State.empty) (empty' : w'.erp = State.empty)
    (consistent : Consistent orders)
    (reached : Pool.Reaches S.Answers OutsideErp (Delivers printable orders) (Pool.idle w) s)
    (reached' : Pool.Reaches S.Answers OutsideErp (Delivers printable orders) (Pool.idle w') t)
    (returned : AllReturned orders s) (returned' : AllReturned orders t) :
    SameTable s.world.erp.db t.world.erp.db .orders ∧
      SameTable s.world.erp.db t.world.erp.db .invoices ∧
      (∀ m, Newest orders m → Holds s.world.erp.db m) ∧
      ∀ orderId, (∀ a ∈ orders, a.orderId ≠ orderId) → HoldsNone s.world.erp.db orderId := by
  have same : SameTable s.world.erp.db t.world.erp.db .orders ∧
      SameTable s.world.erp.db t.world.erp.db .invoices := by
    refine sameTable_of_holds (fun orderId => ?_) fun key other =>
      ⟨invoices_keyed empty reached other, invoices_keyed empty' reached' other⟩
    by_cases present : ∃ a ∈ orders, a.orderId = orderId
    · obtain ⟨a, mem, rfl⟩ := present
      obtain ⟨m, newest, own⟩ := exists_newest mem
      exact .inl ⟨m, own, holds_newest empty consistent reached returned newest,
        holds_newest empty' consistent reached' returned' newest⟩
    · have absent : ∀ a ∈ orders, a.orderId ≠ orderId := fun a mem same => present ⟨a, mem, same⟩
      exact .inr ⟨holds_none empty reached absent, holds_none empty' reached' absent⟩
  exact ⟨same.1, same.2, fun m newest => holds_newest empty consistent reached returned newest,
    fun orderId absent => holds_none empty reached absent⟩

end Runs

/-! ### Two versions, in two orders -/

/-- The older version first, then the newer one, and the older one again. -/
theorem delivered_in_order (S : Services) :
    ∃ s, Pool.Reaches S.Answers OutsideErp (Delivers (fun _ => true) [firstOrder, movedOrder])
        (Pool.idle .empty) s ∧
      s.finished = [(firstOrder, .ok .stale), (movedOrder, .ok .written), (firstOrder, .ok .written)] := by
  have older : firstOrder ∈ [firstOrder, movedOrder] := by simp
  have newer : movedOrder ∈ [firstOrder, movedOrder] := by simp
  obtain ⟨erp, is, first, -⟩ := @writeOrder_commits S OutsideErp (fun _ => true) [] .empty firstOrder
    ⟨rfl, records_empty⟩ (by simp [ofOrder]) "09:00"
  let w₁ : World := { World.empty with erp := erp }
  obtain ⟨erp', is', second, -⟩ := @writeOrder_commits S OutsideErp (fun _ => true) _ w₁ movedOrder is
    (by simp [ofOrder, firstOrder, movedOrder]) "09:01"
  let w₂ : World := { w₁ with erp := erp' }
  have late : Exec S.Answers OutsideErp (writeOrder (fun _ => true) firstOrder "09:02") w₂ (.ok .stale) w₂ :=
    writeOrder_refused is' ⟨movedOrder, "09:01"⟩ rfl (by decide) "09:02"
  have reached := (Pool.reaches_exec (Delivers.deliver "09:00" older) first [] []).trans <|
    (Pool.reaches_exec (Delivers.deliver "09:01" newer) second [] _).trans
      (Pool.reaches_exec (Delivers.deliver "09:02" older) late [] _)
  exact ⟨_, reached, rfl⟩

/-- The newer version first, in a write that its caller sees fail, its retry, and then the older
one. -/
theorem delivered_newest_first (S : Services) :
    ∃ s, Pool.Reaches S.Answers OutsideErp (Delivers (fun _ => true) [firstOrder, movedOrder])
        (Pool.idle .empty) s ∧
      s.finished = [(firstOrder, .ok .stale), (movedOrder, .ok .duplicate),
        (movedOrder, .error (.other "ReadTimeoutError" "timed out"))] := by
  have older : firstOrder ∈ [firstOrder, movedOrder] := by simp
  have newer : movedOrder ∈ [firstOrder, movedOrder] := by simp
  obtain ⟨erp, is, -, lost⟩ := @writeOrder_commits S OutsideErp (fun _ => true) [] .empty movedOrder
    ⟨rfl, records_empty⟩ (by simp [ofOrder]) "09:00"
  let w : World := { World.empty with erp := erp }
  have retried : Exec S.Answers OutsideErp (writeOrder (fun _ => true) movedOrder "09:01") w (.ok .duplicate) w :=
    writeOrder_refused is ⟨movedOrder, "09:00"⟩ rfl le_rfl "09:01"
  have late : Exec S.Answers OutsideErp (writeOrder (fun _ => true) firstOrder "09:02") w (.ok .stale) w :=
    writeOrder_refused is ⟨movedOrder, "09:00"⟩ rfl (by decide) "09:02"
  have reached := (Pool.reaches_exec (Delivers.deliver "09:00" newer) lost [] []).trans <|
    (Pool.reaches_exec (Delivers.deliver "09:01" newer) retried [] _).trans
      (Pool.reaches_exec (Delivers.deliver "09:02" older) late [] _)
  exact ⟨_, reached, rfl⟩

/-- Both ways end in the same orders and invoices, those of the newer version. -/
theorem deliveries_converge_moved :
    ∃ s t : Pool World Order Request.Answer (Except Exn WriteResult),
      Pool.Reaches (Services.Answers ⟨fun _ => 0⟩) OutsideErp
        (Delivers (fun _ => true) [firstOrder, movedOrder]) (Pool.idle .empty) s ∧
      Pool.Reaches (Services.Answers ⟨fun _ => 0⟩) OutsideErp
        (Delivers (fun _ => true) [firstOrder, movedOrder]) (Pool.idle .empty) t ∧
      s.finished = [(firstOrder, .ok .stale), (movedOrder, .ok .written), (firstOrder, .ok .written)] ∧
      t.finished = [(firstOrder, .ok .stale), (movedOrder, .ok .duplicate),
        (movedOrder, .error (.other "ReadTimeoutError" "timed out"))] ∧
      SameTable s.world.erp.db t.world.erp.db .orders ∧ SameTable s.world.erp.db t.world.erp.db .invoices ∧
      Holds s.world.erp.db movedOrder := by
  obtain ⟨s, reached, finished⟩ := delivered_in_order ⟨fun _ => 0⟩
  obtain ⟨t, reached', finished'⟩ := delivered_newest_first ⟨fun _ => 0⟩
  have consistent : Consistent [firstOrder, movedOrder] := by
    intro a memA b memB _ same
    rcases List.mem_pair.mp memA with rfl | rfl <;> rcases List.mem_pair.mp memB with rfl | rfl
    · exact ⟨rfl, rfl⟩
    · exact absurd same (by decide)
    · exact absurd same (by decide)
    · exact ⟨rfl, rfl⟩
  have newest : Newest [firstOrder, movedOrder] movedOrder := by
    refine ⟨by simp, fun a mem _ => ?_⟩
    rcases List.mem_pair.mp mem with rfl | rfl <;> decide
  have returned : AllReturned [firstOrder, movedOrder] s := by
    intro order mem
    rcases List.mem_pair.mp mem with rfl | rfl
    · exact ⟨.stale, by simp [finished]⟩
    · exact ⟨.written, by simp [finished]⟩
  have returned' : AllReturned [firstOrder, movedOrder] t := by
    intro order mem
    rcases List.mem_pair.mp mem with rfl | rfl
    · exact ⟨.stale, by simp [finished']⟩
    · exact ⟨.duplicate, by simp [finished']⟩
  obtain ⟨orders, invoices, holds, -⟩ :=
    deliveries_converge rfl rfl consistent reached reached' returned returned'
  exact ⟨s, t, reached, reached', finished, finished', orders, invoices, holds movedOrder newest⟩

end Relay.Erp
