import Relay.Erp.Tables

/-!
The three tables never disagree.

Any number of `write_order` calls run interleaved, and crash, in a world whose
other parts change freely. In every state reached from empty tables there is a
ledger of the committed transactions such that the tables agree with it and with
each other (`Agree`), and every later state's ledger continues this one.
-/

namespace Relay.Erp

open Relay.Effect Relay.Platform Relay.Dynamo Relay.Python Ledger

/-- What the tables hold, against each other and against the committed
transactions. -/
structure Agree (ledger : Ledger) (db : Db Table) : Prop where
  /-- Every order has its invoice, with the order's fields. -/
  invoice : ∀ orderId order, db .orders orderId = some order →
    order "order_id" = some (.s orderId) ∧
    ∃ invoice, db .invoices (invoiceIdFor orderId) = some invoice ∧
      invoice "invoice_id" = some (.s (invoiceIdFor orderId)) ∧
      invoice "order_id" = order "order_id" ∧ invoice "customer_id" = order "customer_id" ∧
      invoice "amount" = order "total" ∧ invoice "issue_date" = order "order_date" ∧
      invoice "version" = order "version" ∧ invoice "event_key" = order "event_key"
  /-- An invoice is that of the order it names, which exists. -/
  invoiceOnly : ∀ key invoice, db .invoices key = some invoice →
    ∃ orderId order, invoice "order_id" = some (.s orderId) ∧ key = invoiceIdFor orderId ∧
      db .orders orderId = some order
  customer : ∀ orderId order, db .orders orderId = some order →
    ∃ customerId customer, order "customer_id" = some (.s customerId) ∧
      db .customers customerId = some customer
  /-- A customer is as the latest transaction for it left it. -/
  customerLatest : ∀ customerId customer, db .customers customerId = some customer →
    ∃ last, (ledger.ofCustomer customerId).getLast? = some last ∧
      customer "name" = some (.s last.order.customerName) ∧
      customer "last_event_key" = some (.s last.order.eventKey)
  /-- The versions committed for an order rise strictly. -/
  rising : ∀ orderId, ((ledger.ofOrder orderId).map fun w => w.order.version).Pairwise (· < ·)
  /-- Every transaction's order is stored. -/
  stored : ∀ orderId, ledger.ofOrder orderId ≠ [] → ∃ order, db .orders orderId = some order
  /-- An order has the version of the last transaction for it, the time of the
  first, and their number. -/
  counted : ∀ orderId order, db .orders orderId = some order →
    ∃ first last, (ledger.ofOrder orderId).head? = some first ∧
      (ledger.ofOrder orderId).getLast? = some last ∧
      order "version" = some (.n last.order.version) ∧
      order "created_at" = some (.s first.now) ∧
      order "revision" = some (.n (ledger.ofOrder orderId).length)

/-- Versions do not decrease and creation times do not change. -/
def Later (old new : Db Table) : Prop :=
  ∀ orderId order, old .orders orderId = some order →
    ∃ (order' : Item) (v v' : Int), new .orders orderId = some order' ∧
      order "version" = some (.n v) ∧ order' "version" = some (.n v') ∧ v ≤ v' ∧
      order' "created_at" = order "created_at"

/-- The customer of an order's last write has a write. -/
theorem IsLedger.customer {ledger : Ledger} {s : State Table} (is : IsLedger ledger s) {w : Write}
    (mem : w ∈ ledger) : ∃ customer, s.db .customers w.order.customerId = some customer := by
  have mem' : w ∈ ledger.ofCustomer w.order.customerId := by simp [ofCustomer, mem]
  rw [is.records.customers, Ledger.customerRow]
  cases split : ledger.ofCustomer w.order.customerId with
  | nil =>
      rw [split] at mem'
      cases mem'
  | cons first rest => exact ⟨_, row_of_ends _ _ List.head?_cons List.getLast?_cons⟩

theorem mem_of_ofOrder {ledger : Ledger} {orderId : String} {w : Write}
    (mem : w ∈ ledger.ofOrder orderId) : w ∈ ledger ∧ w.order.orderId = orderId := by
  simpa [ofOrder] using mem

/-- A ledger's tables agree. -/
theorem IsLedger.agree {ledger : Ledger} {s : State Table} (is : IsLedger ledger s) :
    Agree ledger s.db where
  invoice := by
    intro orderId order here
    obtain ⟨first, last, head, ends, rfl⟩ := is.last here
    have own := (mem_of_ofOrder (List.mem_of_getLast? ends)).2
    have invoice : s.db .invoices (invoiceIdFor orderId) = some (ofFields
        (invoiceShape.fields first last (ledger.ofOrder orderId).length ++
          [("invoice_id", .s (invoiceIdFor orderId))])) := by
      rw [is.records.invoices, Ledger.invoiceRow, row_of_ends _ _ head ends]
      rfl
    refine ⟨rfl, _, invoice, rfl, ?_, rfl, rfl, rfl, rfl, rfl⟩
    exact congrArg (fun id => some (AttrVal.s id)) own
  invoiceOnly := by
    intro key invoice here
    by_cases keyed : ∃ orderId, key = invoiceIdFor orderId
    · obtain ⟨orderId, rfl⟩ := keyed
      rw [is.records.invoices, Ledger.invoiceRow] at here
      cases split : ledger.ofOrder orderId with
      | nil =>
          rw [split] at here
          cases here
      | cons first rest =>
          have ends : (ledger.ofOrder orderId).getLast? = some (rest.getLast?.getD first) := by
            rw [split, List.getLast?_cons]
          have own := (mem_of_ofOrder (List.mem_of_getLast? ends)).2
          rw [split, row_of_ends _ _ List.head?_cons List.getLast?_cons] at here
          obtain rfl := Option.some.inj here
          obtain ⟨order, present, -⟩ := is.stored ends
          exact ⟨orderId, order, congrArg (fun id => some (AttrVal.s id)) own, rfl, present⟩
    · rw [is.records.noOther key fun orderId same => keyed ⟨orderId, same⟩] at here
      cases here
  customer := by
    intro orderId order here
    obtain ⟨first, last, -, ends, rfl⟩ := is.last here
    obtain ⟨customer, present⟩ := is.customer (mem_of_ofOrder (List.mem_of_getLast? ends)).1
    exact ⟨last.order.customerId, customer, rfl, present⟩
  customerLatest := by
    intro customerId customer here
    rw [is.records.customers, Ledger.customerRow] at here
    cases split : ledger.ofCustomer customerId with
    | nil =>
        rw [split] at here
        cases here
    | cons first rest =>
        rw [split, row_of_ends _ _ List.head?_cons List.getLast?_cons] at here
        obtain rfl := Option.some.inj here
        exact ⟨_, List.getLast?_cons, rfl, rfl⟩
  rising := is.records.rising
  stored := by
    intro orderId some
    obtain ⟨last, ends⟩ : ∃ last, (ledger.ofOrder orderId).getLast? = Option.some last := by
      cases split : ledger.ofOrder orderId with
      | nil => exact absurd split some
      | cons first rest => exact ⟨_, List.getLast?_cons⟩
    obtain ⟨order, present, -⟩ := is.stored ends
    exact ⟨order, present⟩
  counted := by
    intro orderId order here
    obtain ⟨first, last, head, ends, rfl⟩ := is.last here
    exact ⟨first, last, head, ends, rfl, rfl, rfl⟩

theorem IsLedger.later {ledger more : Ledger} {s t : State Table} (is : IsLedger ledger s)
    (is' : IsLedger (ledger ++ more) t) : Later s.db t.db := by
  intro orderId order here
  obtain ⟨first, last, head, ends, rfl⟩ := is.last here
  have mem : last ∈ (ledger ++ more).ofOrder orderId := by
    rw [ofOrder_append]
    exact List.mem_append_left _ (List.mem_of_getLast? ends)
  obtain ⟨order', here'⟩ := is'.agree.stored orderId (List.ne_nil_of_mem mem)
  obtain ⟨first', last', head', ends', rfl⟩ := is'.last here'
  have same : first' = first := by
    rw [ofOrder_append, List.head?_append, head] at head'
    exact (Option.some.inj head').symm
  subst same
  exact ⟨_, last.order.version, last'.order.version, here', rfl, rfl,
    is'.records.rising.le_last ends' mem, rfl⟩

/-! ### Every interleaving of `write_order` calls -/

/-- The write of an order. -/
inductive Writes (printable : Char → Bool) : Order → Act (Except Exn WriteResult) → Prop where
  | write {order : Order} (now : String) :
      Writes printable order (writeOrder printable order now)

/-- Everything but the ERP may change. -/
def OutsideErp (w w' : World) : Prop := w'.erp = w.erp

/-- It leaves what holds of the tables, and all that they record. -/
theorem OutsideErp.keeps {P : State Table → Prop} {w w' : World} (moved : OutsideErp w w')
    (inv : P w.erp) : P w'.erp ∧ Extends w.erp w'.erp := by
  have same : w'.erp = w.erp := moved
  rw [same]
  exact ⟨inv, Extends.refl w.erp⟩

/-- A system of `write_order` calls only. -/
def writers (S : Services) : Contract World Request.Answer where
  answers := S.Answers
  inv w := Kept w.erp
  rely w w' := Extends w.erp w'.erp
  guar w w' := Extends w.erp w'.erp
  rely_refl w := Extends.refl w.erp
  rely_trans := Extends.trans

theorem writers_host (S : Services) : Hosts S (writers S) fun _ => True where
  answers := rfl
  kept := fun _ inv => inv
  extends_ := fun _ _ moved => moved
  guar_refl := fun w _ => Extends.refl w.erp
  takes := fun _ _ _ _ _ inv committed =>
    ⟨inv.extends (extends_of_committed committed), extends_of_committed committed⟩

/-- `Settled`, with the invariant that keeps it. -/
def Done (order : Order) (result : Except Exn WriteResult) (w : World) : Prop :=
  Kept w.erp ∧ Settled order result w

theorem Done.stays {order : Order} {result : Except Exn WriteResult} {w w' : World}
    (moved : Extends w.erp w'.erp) (done : Done order result w) : Done order result w' :=
  ⟨done.1.extends moved, fun value ok => (done.2 value ok).extends done.1 moved⟩

section Runs

variable {S : Services} {printable : Char → Bool}
  {s t : Pool World Order Request.Answer (Except Exn WriteResult)}

theorem writes_keeps (order : Order) (program : Act (Except Exn WriteResult)) (w : World)
    (starts : Writes printable order program) (inv : (writers S).inv w) :
    Keeps (writers S) (Done order) program w := by
  cases starts with
  | write now =>
      exact Keeps.mono (fun result w' inv' settled => ⟨inv', settled⟩) inv
        (writeOrder_keeps (writers_host S) trivial now w)

/-- Every call that runs meets its obligation, and every call that returned a
result left the order stored at its version or a newer one. -/
theorem writers_sound {w : World} (empty : w.erp = State.empty)
    (reached : Pool.Reaches S.Answers OutsideErp (Writes printable) (Pool.idle w) s) :
    Pool.Sound (writers S) Done s := by
  have start : (writers S).inv w := by
    show Kept w.erp
    rw [empty]
    exact kept_empty
  exact (Pool.sound_idle start).reaches (fun _ _ _ _ moved _ done => done.stays moved)
    (fun _ _ inv moved => moved.keeps (P := Kept) inv) (fun _ _ guar => guar) writes_keeps reached

theorem writers_extend (sound : Pool.Sound (writers S) Done s)
    (steps : Pool.Reaches S.Answers OutsideErp (Writes printable) s t) :
    Extends s.world.erp t.world.erp :=
  sound.reaches_rely (fun _ _ _ _ moved _ done => done.stays moved)
    (fun _ _ inv moved => moved.keeps (P := Kept) inv) (fun _ _ guar => guar) writes_keeps steps

/-- In every state that interleaved, crashing and retried `write_order` calls
reach from empty tables, the three tables agree with each other and with the
ledger of the committed transactions; and every later state continues that
ledger, never with an older version or another creation time. -/
theorem tables_never_disagree {w : World} (empty : w.erp = State.empty)
    (reached : Pool.Reaches S.Answers OutsideErp (Writes printable) (Pool.idle w) s) :
    ∃ ledger : Ledger, s.world.erp.log = ledger.map Write.updates ∧ Agree ledger s.world.erp.db ∧
      ∀ t, Pool.Reaches S.Answers OutsideErp (Writes printable) s t →
        ∃ more : Ledger, t.world.erp.log = (ledger ++ more).map Write.updates ∧
          Agree (ledger ++ more) t.world.erp.db ∧ Later s.world.erp.db t.world.erp.db := by
  have sound := writers_sound empty reached
  obtain ⟨ledger, is⟩ := sound.inv
  refine ⟨ledger, is.log, is.agree, fun t steps => ?_⟩
  obtain ⟨more, is'⟩ := writers_extend sound steps ledger is
  exact ⟨more, is'.log, is'.agree, is.later is'⟩

end Runs

/-! ### Two versions of one order -/

section Deliveries

variable {S : Services} {env : World → World → Prop} {printable : Char → Bool} {ledger : Ledger}
  {w : World} {order : Order}

/-- A write of a version newer than all that were written commits, whether or not the caller
sees it. -/
theorem writeOrder_commits (is : IsLedger ledger w.erp)
    (newer : ∀ v ∈ ledger.ofOrder order.orderId, v.order.version < order.version) (now : String) :
    ∃ erp, IsLedger (ledger ++ [⟨order, now⟩]) erp ∧
      Exec S.Answers env (writeOrder printable order now) w (.ok .written) { w with erp := erp } ∧
      Exec S.Answers env (writeOrder printable order now) w (.error (.other "ReadTimeoutError" "timed out"))
        { w with erp := erp } := by
  obtain ⟨erp, committed, is'⟩ := is.commits newer now
  have answered : S.Answers (.transactWriteItems (transaction order now)) w (.ok ()) { w with erp := erp } :=
    ⟨erp, ⟨.inr committed, committed⟩, rfl⟩
  have timedOut : S.Answers (.transactWriteItems (transaction order now)) w
      (.error (.other "ReadTimeoutError" "timed out")) { w with erp := erp } :=
    ⟨erp, ⟨.inr committed, trivial⟩, rfl⟩
  exact ⟨erp, is', .call .refl answered .ret, .call .refl timedOut .ret⟩

/-- A write of a version that is not newer than the last one changes nothing. -/
theorem writeOrder_refused (is : IsLedger ledger w.erp) (last : Write)
    (ends : (ledger.ofOrder order.orderId).getLast? = some last)
    (le : order.version ≤ last.order.version) (now : String) :
    Exec S.Answers env (writeOrder printable order now) w
      (.ok (if last.order.version = order.version then .duplicate else .stale)) w := by
  obtain ⟨item, here, value, failed⟩ := is.refuses ends le now
  let response : ErrorResponse :=
    ⟨some "TransactionCanceledException", none, [⟨some "ConditionalCheckFailed", some item⟩]⟩
  have truthful : Truthful (transaction order now) response w.erp.db := by
    intro i u reason own named _
    cases i with
    | zero =>
        obtain rfl := Option.some.inj own
        obtain rfl := Option.some.inj named
        refine ⟨here ▸ failed, ?_⟩
        rintro item' ⟨⟩
        exact here
    | succ i => cases named
  have answered : S.Answers (.transactWriteItems (transaction order now)) w (.error (.client response)) w :=
    ⟨w.erp, ⟨.inl rfl, truthful⟩, rfl⟩
  have settled : verdict order (some item) =
      .ok (if last.order.version = order.version then .duplicate else .stale) := by
    rw [verdict_of_stored value]
    by_cases same : last.order.version = order.version
    · rw [if_pos same, if_pos same]
    · rw [if_neg same, if_neg same, if_pos (lt_of_le_of_ne le (Ne.symm same))]
  rw [← settled]
  exact .call .refl answered .ret

end Deliveries

def firstOrder : Order :=
  ⟨"006A", "001A", "Acme", "Renewal", ⟨false, 5000, 0⟩, "2026-09-14", 1789462800000,
    "2026-09-15T09:00:00.000Z", "006A:2026-09-15T09:00:00.000Z"⟩

/-- The same deal a minute later, on another account. -/
def movedOrder : Order :=
  ⟨"006A", "001B", "Acme Europe", "Renewal", ⟨false, 5000, 0⟩, "2026-09-14", 1789462860000,
    "2026-09-15T09:01:00.000Z", "006A:2026-09-15T09:01:00.000Z"⟩

/-- The order moves to another customer in a write that its caller sees fail; the retry is a
duplicate, and the first version comes again. -/
theorem tables_never_disagree_moved :
    ∃ (s t : Pool World Order Request.Answer (Except Exn WriteResult)),
      Pool.Reaches (Services.Answers ⟨fun _ => 0⟩) OutsideErp (Writes fun _ => true) (Pool.idle .empty) s ∧
      Pool.Reaches (Services.Answers ⟨fun _ => 0⟩) OutsideErp (Writes fun _ => true) s t ∧
      s.world.erp.log = [transaction firstOrder "09:00"] ∧
      t.world.erp.log = [transaction firstOrder "09:00", transaction movedOrder "09:01"] ∧
      t.finished.map Prod.snd = [.ok .stale, .ok .duplicate, .error (.other "ReadTimeoutError" "timed out"),
        .ok .written] ∧
      ∃ ledger more : Ledger, Agree ledger s.world.erp.db ∧ Agree (ledger ++ more) t.world.erp.db ∧
        Later s.world.erp.db t.world.erp.db ∧
        t.world.erp.log = (ledger ++ more).map Write.updates := by
  let S : Services := ⟨fun _ => 0⟩
  have start : IsLedger [] World.empty.erp := ⟨rfl, records_empty⟩
  obtain ⟨erp, is, first, -⟩ := @writeOrder_commits S OutsideErp (fun _ => true) [] .empty firstOrder start
    (by simp [ofOrder]) "09:00"
  let w₁ : World := { World.empty with erp := erp }
  obtain ⟨erp', is', -, moved⟩ := @writeOrder_commits S OutsideErp (fun _ => true) _ w₁ movedOrder is
    (by simp [ofOrder, firstOrder, movedOrder]) "09:01"
  let w₂ : World := { w₁ with erp := erp' }
  have again : Exec S.Answers OutsideErp (writeOrder (fun _ => true) movedOrder "09:02") w₂
      (.ok .duplicate) w₂ :=
    writeOrder_refused is' ⟨movedOrder, "09:01"⟩ rfl le_rfl "09:02"
  have late : Exec S.Answers OutsideErp (writeOrder (fun _ => true) firstOrder "09:03") w₂ (.ok .stale) w₂ :=
    writeOrder_refused is' ⟨movedOrder, "09:01"⟩ rfl (by decide) "09:03"
  have before := Pool.reaches_exec (Writes.write "09:00") first [] []
  have after := (Pool.reaches_exec (Writes.write "09:01") moved [] [(firstOrder, .ok .written)]).trans <|
    (Pool.reaches_exec (Writes.write "09:02") again [] _).trans
      (Pool.reaches_exec (Writes.write "09:03") late [] _)
  obtain ⟨ledger, -, agree, later⟩ := tables_never_disagree (w := World.empty) rfl before
  obtain ⟨more, log, agree', kept⟩ := later _ after
  exact ⟨_, _, before, after, is.log, is'.log, rfl, ledger, more, agree, agree', kept, log⟩

end Relay.Erp
