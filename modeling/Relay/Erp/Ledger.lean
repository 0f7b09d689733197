import Relay.Erp.Writer

/-!
The tables as a function of the committed writes.

A ledger is the list of writes committed so far, oldest first. `orderRow`,
`invoiceRow` and `customerRow` say what the writes of one key make of its item:
the fields of the last write, the creation time of the first, and for an order
how many there were. `Records` relates a database to a ledger, and
`Records.commit` carries it over one committed transaction.
-/

namespace Relay.Erp

open Relay.Dynamo

/-- One committed write: the order and the writer's clock. -/
structure Write where
  order : Order
  now : String

def Write.updates (w : Write) : List (Update Table) := transaction w.order w.now

abbrev Ledger := List Write

namespace Ledger

/-- The writes of one order. -/
def ofOrder (ledger : Ledger) (orderId : String) : Ledger :=
  ledger.filter fun w => w.order.orderId = orderId

/-- The writes of one customer. -/
def ofCustomer (ledger : Ledger) (customerId : String) : Ledger :=
  ledger.filter fun w => w.order.customerId = customerId

/-- What the writes of one key make of its item: fields of the first and the
last of them and of their number, and the key. -/
structure Shape where
  keyAttr : String
  fields : (first last : Write) → (count : Nat) → List (String × AttrVal)

/-- An order's fields. -/
def orderShape : Shape where
  keyAttr := "order_id"
  fields first last count :=
    [("customer_id", .s last.order.customerId), ("customer_name", .s last.order.customerName),
      ("opportunity_name", .s last.order.opportunityName), ("total", .n last.order.total.value),
      ("order_date", .s last.order.orderDate), ("version", .n last.order.version),
      ("source_modstamp", .s last.order.sourceModstamp), ("event_key", .s last.order.eventKey),
      ("updated_at", .s last.now), ("created_at", .s first.now), ("revision", .n count)]

def invoiceShape : Shape where
  keyAttr := "invoice_id"
  fields first last _ :=
    [("order_id", .s last.order.orderId), ("customer_id", .s last.order.customerId),
      ("amount", .n last.order.total.value), ("issue_date", .s last.order.orderDate),
      ("status", .s "ISSUED"), ("version", .n last.order.version),
      ("event_key", .s last.order.eventKey), ("updated_at", .s last.now),
      ("created_at", .s first.now)]

def customerShape : Shape where
  keyAttr := "customer_id"
  fields first last _ :=
    [("name", .s last.order.customerName), ("last_event_key", .s last.order.eventKey),
      ("updated_at", .s last.now), ("created_at", .s first.now)]

/-- The item of a key after the writes of it, if there are any. -/
def Shape.row (shape : Shape) (key : String) (writes : Ledger) : Option Item :=
  match writes.head?, writes.getLast? with
  | some first, some last =>
      some (ofFields (shape.fields first last writes.length ++ [(shape.keyAttr, .s key)]))
  | _, _ => none

def orderRow (ledger : Ledger) (orderId : String) : Option Item :=
  orderShape.row orderId (ledger.ofOrder orderId)

def invoiceRow (ledger : Ledger) (orderId : String) : Option Item :=
  invoiceShape.row (invoiceIdFor orderId) (ledger.ofOrder orderId)

def customerRow (ledger : Ledger) (customerId : String) : Option Item :=
  customerShape.row customerId (ledger.ofCustomer customerId)

@[simp] theorem row_nil (shape : Shape) (key : String) : shape.row key [] = none := rfl

theorem row_of_ends (shape : Shape) (key : String) {writes : Ledger} {first last : Write}
    (head : writes.head? = some first) (ends : writes.getLast? = some last) :
    shape.row key writes =
      some (ofFields (shape.fields first last writes.length ++ [(shape.keyAttr, .s key)])) := by
  simp only [Shape.row, head, ends]

/-- One more write: the first one stays. -/
theorem row_concat (shape : Shape) (key : String) (writes : Ledger) (w : Write) :
    shape.row key (writes ++ [w]) =
      some (ofFields (shape.fields (writes.head?.getD w) w (writes.length + 1) ++
        [(shape.keyAttr, .s key)])) := by
  have head : (writes ++ [w]).head? = some (writes.head?.getD w) := by
    cases writes <;> rfl
  rw [row_of_ends shape key head List.getLast?_concat, List.length_append, List.length_singleton]

/-- The versions committed for each order rise strictly. -/
def Rising (ledger : Ledger) : Prop :=
  ∀ orderId, ((ledger.ofOrder orderId).map fun w => w.order.version).Pairwise (· < ·)

end Ledger

open Ledger

/-- The database holds what the ledger's writes make of each key, and the
versions in the ledger rise. -/
structure Records (ledger : Ledger) (db : Db Table) : Prop where
  orders : ∀ orderId, db .orders orderId = ledger.orderRow orderId
  invoices : ∀ orderId, db .invoices (invoiceIdFor orderId) = ledger.invoiceRow orderId
  noOther : ∀ key, (∀ orderId, key ≠ invoiceIdFor orderId) → db .invoices key = none
  customers : ∀ customerId, db .customers customerId = ledger.customerRow customerId
  rising : ledger.Rising

/-! ### One transaction -/

/-- An update whose values over a key's item are those of a shape carries the
item over one more write. -/
theorem apply_row {u : Update Table} {shape : Shape} {writes : Ledger} {w : Write}
    (keyed : u.keyAttr = shape.keyAttr)
    (names : ∀ first last count first' last' count',
      (shape.fields first last count).map Prod.fst = (shape.fields first' last' count').map Prod.fst)
    (distinct : ((shape.fields w w 0).map Prod.fst).Nodup)
    (evaluated : u.set.map (fun action => (action.1, action.2.eval (shape.row u.key writes))) =
      (shape.fields (writes.head?.getD w) w (writes.length + 1)).map
        fun field => (field.1, some field.2)) :
    u.apply (shape.row u.key writes) = shape.row u.key (writes ++ [w]) := by
  rw [row_concat, ← keyed]
  refine Update.apply_fields evaluated (names w w 0 _ _ _ ▸ distinct) fun item mem => ?_
  cases writes with
  | nil => cases mem
  | cons first rest =>
      rw [row_of_ends shape u.key List.head?_cons List.getLast?_cons] at mem
      obtain rfl := Option.some.inj mem
      exact ⟨_, names _ _ _ _ _ _, by rw [keyed]⟩

/-- Every shape keeps the first write's time. -/
theorem created_row (shape : Shape) (created : ∀ first last count key,
      ofFields (shape.fields first last count ++ [(shape.keyAttr, .s key)]) "created_at" =
        some (.s first.now)) (key : String) (writes : Ledger) (w : Write) :
    (attr (shape.row key writes) "created_at").getD (.s w.now) = .s (writes.head?.getD w).now := by
  cases writes with
  | nil => rfl
  | cons first rest =>
      rw [row_of_ends shape key List.head?_cons List.getLast?_cons, attr_some, created]
      rfl

theorem revision_row (key : String) (writes : Ledger) :
    (attr (orderShape.row key writes) "revision").getD (.n 0) = .n writes.length := by
  cases writes with
  | nil => rfl
  | cons first rest =>
      rw [row_of_ends orderShape key List.head?_cons List.getLast?_cons, attr_some]
      rfl

theorem orderUpdate_apply (w : Write) (writes : Ledger) :
    (orderUpdate w.order w.now).apply (orderShape.row w.order.orderId writes) =
      orderShape.row w.order.orderId (writes ++ [w]) := by
  have created := created_row orderShape (fun _ _ _ _ => rfl) w.order.orderId writes w
  have revision := revision_row w.order.orderId writes
  refine apply_row (u := orderUpdate w.order w.now) rfl (fun _ _ _ _ _ _ => rfl)
    (by simp [orderShape]) ?_
  simp only [orderUpdate, List.map_cons, List.map_nil, Operand.eval, s, n, created, revision]
  simp [orderShape]

theorem invoiceUpdate_apply (w : Write) (writes : Ledger) :
    (invoiceUpdate w.order w.now).apply (invoiceShape.row (invoiceIdFor w.order.orderId) writes) =
      invoiceShape.row (invoiceIdFor w.order.orderId) (writes ++ [w]) := by
  have created := created_row invoiceShape (fun _ _ _ _ => rfl) (invoiceIdFor w.order.orderId)
    writes w
  refine apply_row (u := invoiceUpdate w.order w.now) rfl (fun _ _ _ _ _ _ => rfl)
    (by simp [invoiceShape]) ?_
  simp only [invoiceUpdate, List.map_cons, List.map_nil, Operand.eval, s, n, created]
  simp [invoiceShape]

theorem customerUpdate_apply (w : Write) (writes : Ledger) :
    (customerUpdate w.order w.now).apply (customerShape.row w.order.customerId writes) =
      customerShape.row w.order.customerId (writes ++ [w]) := by
  have created := created_row customerShape (fun _ _ _ _ => rfl) w.order.customerId writes w
  refine apply_row (u := customerUpdate w.order w.now) rfl (fun _ _ _ _ _ _ => rfl)
    (by simp [customerShape]) ?_
  simp only [customerUpdate, List.map_cons, List.map_nil, Operand.eval, s, created]
  simp [customerShape]

/-- An order's write commits only above the last version written. -/
theorem condition_row {w : Write} {writes : Ledger} {last : Write} (ends : writes.getLast? = some last)
    (holds : (orderUpdate w.order w.now).conditionHolds (orderShape.row w.order.orderId writes) = true) :
    last.order.version < w.order.version := by
  cases writes with
  | nil => cases ends
  | cons first rest =>
      rw [row_of_ends orderShape _ List.head?_cons ends] at holds
      have present : ofFields (orderShape.fields first last (first :: rest).length ++
          [(orderShape.keyAttr, .s w.order.orderId)]) "order_id" = some (.s w.order.orderId) := rfl
      have version : ofFields (orderShape.fields first last (first :: rest).length ++
          [(orderShape.keyAttr, .s w.order.orderId)]) "version" = some (.n last.order.version) := rfl
      simpa only [Update.conditionHolds, orderUpdate, Condition.holds, attr_some, present, version,
        Option.isNone_some, Bool.false_or, decide_eq_true_eq, Int.cast_lt] using holds

theorem ofOrder_concat (ledger : Ledger) (w : Write) (orderId : String) :
    (ledger ++ [w]).ofOrder orderId =
      if w.order.orderId = orderId then ledger.ofOrder orderId ++ [w] else ledger.ofOrder orderId := by
  by_cases same : w.order.orderId = orderId
  · simp [ofOrder, same]
  · simp [ofOrder, same]

theorem ofCustomer_concat (ledger : Ledger) (w : Write) (customerId : String) :
    (ledger ++ [w]).ofCustomer customerId =
      if w.order.customerId = customerId then ledger.ofCustomer customerId ++ [w]
      else ledger.ofCustomer customerId := by
  by_cases same : w.order.customerId = customerId
  · simp [ofCustomer, same]
  · simp [ofCustomer, same]

/-- A strictly larger version keeps the versions rising. -/
theorem Ledger.Rising.concat {ledger : Ledger} (rising : ledger.Rising) {w : Write}
    (above : ∀ last, (ledger.ofOrder w.order.orderId).getLast? = some last →
      last.order.version < w.order.version) : Ledger.Rising (ledger ++ [w]) := by
  intro orderId
  have before := rising orderId
  rw [ofOrder_concat]
  split
  · rename_i same
    subst same
    rcases List.eq_nil_or_concat (ledger.ofOrder w.order.orderId) with none | ⟨init, last, split⟩
    · simp [none]
    · rw [List.concat_eq_append] at split
      have top := above last (by rw [split, List.getLast?_concat])
      rw [split, List.map_append, List.pairwise_append] at before
      rw [split, List.map_append, List.pairwise_append]
      refine ⟨?_, by simp, ?_⟩
      · rw [List.map_append, List.pairwise_append]
        exact before
      · intro v mem v' mem'
        obtain rfl : v' = w.order.version := by simpa using mem'
        rw [List.map_append, List.mem_append] at mem
        rcases mem with mem | mem
        · exact lt_trans (before.2.2 v mem last.order.version (by simp)) top
        · obtain rfl : v = last.order.version := by simpa using mem
          exact top
  · exact before

theorem records_empty : Records [] (fun _ _ => none) where
  orders := fun _ => rfl
  invoices := fun _ => rfl
  noOther := fun _ _ => rfl
  customers := fun _ => rfl
  rising := fun _ => List.Pairwise.nil

/-- A committed transaction appends its write to the ledger. -/
theorem Records.commit {ledger : Ledger} {db db' : Db Table} (records : Records ledger db) {w : Write}
    (committed : db.transact w.updates = some db') : Records (ledger ++ [w]) db' where
  orders := by
    intro orderId
    rw [Ledger.orderRow, ofOrder_concat]
    split
    · rename_i same
      subst same
      have written := (Db.transact_target committed (u := orderUpdate w.order w.now)
        (by simp [Write.updates, transaction])).1
      have before := records.orders w.order.orderId
      simp only [orderUpdate] at written
      rw [← written, before]
      exact orderUpdate_apply w _
    · rename_i other
      rw [← Ledger.orderRow, ← records.orders]
      refine Db.transact_frame committed fun u mem => ?_
      simp only [Write.updates, transaction, List.mem_cons, List.not_mem_nil, or_false] at mem
      rcases mem with rfl | rfl | rfl <;> simp [Update.target, orderUpdate, invoiceUpdate,
        customerUpdate, other]
  invoices := by
    intro orderId
    rw [Ledger.invoiceRow, ofOrder_concat]
    split
    · rename_i same
      subst same
      have written := (Db.transact_target committed (u := invoiceUpdate w.order w.now)
        (by simp [Write.updates, transaction])).1
      have before := records.invoices w.order.orderId
      simp only [invoiceUpdate] at written
      rw [← written, before]
      exact invoiceUpdate_apply w _
    · rename_i other
      rw [← Ledger.invoiceRow, ← records.invoices]
      refine Db.transact_frame committed fun u mem => ?_
      have apart : invoiceIdFor w.order.orderId ≠ invoiceIdFor orderId :=
        fun same => other (invoiceIdFor_injective same)
      simp only [Write.updates, transaction, List.mem_cons, List.not_mem_nil, or_false] at mem
      rcases mem with rfl | rfl | rfl <;> simp [Update.target, orderUpdate, invoiceUpdate,
        customerUpdate, apart]
  noOther := by
    intro key other
    rw [← records.noOther key other]
    refine Db.transact_frame committed fun u mem => ?_
    have apart : invoiceIdFor w.order.orderId ≠ key := (other w.order.orderId).symm
    simp only [Write.updates, transaction, List.mem_cons, List.not_mem_nil, or_false] at mem
    rcases mem with rfl | rfl | rfl <;> simp [Update.target, orderUpdate, invoiceUpdate,
      customerUpdate, apart]
  customers := by
    intro customerId
    rw [Ledger.customerRow, ofCustomer_concat]
    split
    · rename_i same
      subst same
      have written := (Db.transact_target committed (u := customerUpdate w.order w.now)
        (by simp [Write.updates, transaction])).1
      have before := records.customers w.order.customerId
      simp only [customerUpdate] at written
      rw [← written, before]
      exact customerUpdate_apply w _
    · rename_i other
      rw [← Ledger.customerRow, ← records.customers]
      refine Db.transact_frame committed fun u mem => ?_
      simp only [Write.updates, transaction, List.mem_cons, List.not_mem_nil, or_false] at mem
      rcases mem with rfl | rfl | rfl <;> simp [Update.target, orderUpdate, invoiceUpdate,
        customerUpdate, other]
  rising := by
    refine records.rising.concat fun last ends => condition_row ends ?_
    have holds := Db.transact_condition committed (u := orderUpdate w.order w.now)
      (by simp [Write.updates, transaction])
    have before := records.orders w.order.orderId
    simp only [Ledger.orderRow] at before
    rw [← before]
    exact holds

/-! ### When a transaction commits -/

theorem invoiceUpdate_isSome (order : Order) (now : String) (old : Option Item) :
    ((invoiceUpdate order now).apply old).isSome = true := by
  apply assign_isSome
  simp [invoiceUpdate, s, n, Operand.eval]

theorem customerUpdate_isSome (order : Order) (now : String) (old : Option Item) :
    ((customerUpdate order now).apply old).isSome = true := by
  apply assign_isSome
  simp [customerUpdate, s, Operand.eval]

/-- Whether a transaction commits is decided by the stored order alone. -/
theorem transact_isSome_iff (db : Db Table) (order : Order) (now : String) :
    (db.transact (transaction order now)).isSome = true ↔
      (orderUpdate order now).conditionHolds (db .orders order.orderId) = true ∧
        ((orderUpdate order now).apply (db .orders order.orderId)).isSome = true := by
  have distinct : ((transaction order now).map Update.target).Nodup := by
    simp [transaction, Update.target, orderUpdate, invoiceUpdate, customerUpdate]
  have conditions : (∀ u ∈ transaction order now, u.conditionHolds (db u.table u.key) = true) ↔
      (orderUpdate order now).conditionHolds (db .orders order.orderId) = true := by
    constructor
    · exact fun all => all (orderUpdate order now) (by simp [transaction])
    · intro own u mem
      simp only [transaction, List.mem_cons, List.not_mem_nil, or_false] at mem
      rcases mem with rfl | rfl | rfl
      · exact own
      · rfl
      · rfl
  have written : (db.writeAll (transaction order now)).isSome = true ↔
      ((orderUpdate order now).apply (db .orders order.orderId)).isSome = true := by
    have head : db (orderUpdate order now).table (orderUpdate order now).key = db .orders order.orderId :=
      rfl
    simp only [transaction, Db.writeAll, head]
    cases applied : (orderUpdate order now).apply (db .orders order.orderId) with
    | none => rfl
    | some item =>
        obtain ⟨invoice, invoiced⟩ :=
          Option.isSome_iff_exists.mp (invoiceUpdate_isSome order now
            ((db.put (orderUpdate order now).table (orderUpdate order now).key item)
              (invoiceUpdate order now).table (invoiceUpdate order now).key))
        simp only [invoiced]
        obtain ⟨customer, upserted⟩ :=
          Option.isSome_iff_exists.mp (customerUpdate_isSome order now
            (((db.put (orderUpdate order now).table (orderUpdate order now).key item).put
              (invoiceUpdate order now).table (invoiceUpdate order now).key invoice)
              (customerUpdate order now).table (customerUpdate order now).key))
        simp only [upserted]
        rfl
  rw [Db.transact]
  by_cases own : (orderUpdate order now).conditionHolds (db .orders order.orderId) = true
  · rw [if_pos ⟨distinct, conditions.mpr own⟩, written]
    exact (and_iff_right own).symm
  · rw [if_neg fun both => own (conditions.mp both.2)]
    constructor
    · rintro ⟨⟩
    · exact fun both => absurd both.1 own

end Relay.Erp
