import Relay.Delivery.Provenance
import Relay.Ingest.NoSkip
import Relay.Reconciler.Classification
import Relay.Reconciler.Scan
import Relay.Worker.Script

/-!
What a report without an entry says about an order.

A comparison reads the fields of a deal, but of an order only the version. So it
is silent about an order that has the version of the deal, and the order has the
content of the deal where versions tell states of a deal apart.
-/

namespace Relay.Delivery

open Relay.Effect Relay.Platform Relay.Python Relay.Salesforce Relay.Events Relay.Worker Relay.Relayctl
  Relay.Erp Relation

/-- Neither the org nor the tables change. -/
def Still (w w' : World) : Prop := w'.erp = w.erp ∧ w'.org = w.org

/-- The item has the content of the order. -/
structure Reflects (item : Dynamo.Item) (order : Order) : Prop where
  customerId : item "customer_id" = some (.s order.customerId)
  customerName : item "customer_name" = some (.s order.customerName)
  opportunityName : item "opportunity_name" = some (.s order.opportunityName)
  total : item "total" = some (.n order.total.value)
  orderDate : item "order_date" = some (.s order.orderDate)

theorem Reflects.same {item : Dynamo.Item} {a b : Order} (reflects : Reflects item a) (same : SameOrder a b) :
    Reflects item b where
  customerId := same.customerId ▸ reflects.customerId
  customerName := same.customerName ▸ reflects.customerName
  opportunityName := same.opportunityName ▸ reflects.opportunityName
  total := same.total ▸ reflects.total
  orderDate := same.orderDate ▸ reflects.orderDate

/-- The item of an order has the content of the last write. -/
theorem reflects_orderShape (first last : Write) (count : Nat) (id : String) :
    Reflects (Dynamo.ofFields (Ledger.orderShape.fields first last count ++ [("order_id", .s id)]))
      last.order :=
  ⟨rfl, rfl, rfl, rfl, rfl⟩

/-- `to_order(from_salesforce(row))` of the deal's row. -/
def MapsTo (rt : Runtime) (now : Int) (d : Deal) (order : Order) : Prop :=
  ∃ row event, Reconciler.loadRow d.row = .ok row ∧ Reconciler.fromSalesforce row now = .ok event ∧
    toOrder rt event = .ok order

/-- Whatever a reconciliation of this state is silent about is in the ERP as it is
in Salesforce. -/
def Mirrored (S : Services) (rt : Runtime) (w : World) : Prop :=
  ∀ (fuel : Nat) (now grace : Int) (report : Reconciler.Report) (w' : World),
    Exec S.Answers Still (Reconciler.reconcile rt fuel now grace) w (some (.ok report)) w' →
    ∀ d ∈ w.org, d.isWon = true → ∀ stamp,
      Reconciler.parseModstamp (wireText d.systemModstamp) = .ok stamp → stamp ≤ now - grace →
      ∀ item, w.erp.db .orders d.id = some item → report.entries d.id = [] →
        ∃ order, MapsTo rt now d order ∧ Reflects item order

/-! ### One report -/

theorem still_star {w w' : World} (moves : ReflTransGen Still w w') : Still w w' := by
  induction moves with
  | refl => exact ⟨rfl, rfl⟩
  | tail _ move ih => exact ⟨move.1.trans ih.1, move.2.trans ih.2⟩

section Report

variable {S : Services} {rt : Runtime} {w w' : World} {now grace : Int} {report : Reconciler.Report}

/-- The reads of a reconciliation of a state: the rows of its won deals, the versions
of its orders, and the report made of both. -/
theorem compiled_of_reconcile {fuel : Nat} (kept : Kept w.erp)
    (run : Exec S.Answers Still (Reconciler.reconcile rt fuel now grace) w (some (.ok report)) w') :
    ∃ rows versions found,
      List.Forall₂ (fun d row => Reconciler.loadRow d.row = .ok row)
        (selected (fun d => d.isWon) w.org) rows ∧
      Reconciler.Stores versions w.erp ∧
      Reconciler.Compiled rt rows versions now grace found report := by
  obtain ⟨records, w₁, versions, w₂, rows, won, scanned, read, compared⟩ :=
    Reconciler.parts_of_reconcile run
  obtain ⟨w₀, reply, w₃, moves, answered, done⟩ := Exec.of_perform_bind won
  obtain ⟨sameErp, sameOrg⟩ := still_star moves
  cases reply with
  | error err =>
      obtain ⟨failed, -⟩ := Exec.of_ret done
      cases failed
  | ok answer =>
      obtain ⟨rfl, rfl⟩ := answered
      obtain ⟨loaded, rfl⟩ := Exec.of_ret done
      obtain ⟨found, compiled⟩ :=
        (Reconciler.returns_compiled rt rows versions _ now grace).exec compared report rfl
      refine ⟨rows, versions, found, ?_, ?_, compiled⟩
      · rw [← sameOrg]
        exact Reconciler.forall₂_readRows loaded.symm read
      · rw [← sameErp]
        have kept₀ : Kept w₀.erp := sameErp ▸ kept
        exact Reconciler.stores_of_scan (w := { w₀ with reads := w₀.reads ++ [(.won, w₀.org)] }) kept₀
          (scanned.weaken fun _ _ still => still.1)

theorem ids_of_loadRow {deals : List Deal} {rows : List (Row PyNum)}
    (read : List.Forall₂ (fun d row => Reconciler.loadRow d.row = .ok row) deals rows) :
    rows.map Row.id = deals.map Deal.id := by
  induction read with
  | nil => rfl
  | cons load _ ih =>
      obtain ⟨amount, rfl⟩ := withAmount_of_loadRow load
      rw [List.map_cons, List.map_cons, ih]
      rfl

/-- A deal out of grace has no entry only if its version is stored. -/
theorem lookup_of_clean {rows : List (Row PyNum)} {versions : Reconciler.Versions}
    {found : Reconciler.Found} (compiled : Reconciler.Compiled rt rows versions now grace found report)
    (distinct : (rows.map Row.id).Nodup) {row : Row PyNum} (listed : row ∈ rows) {stamp : Int}
    (parsed : Reconciler.parseModstamp row.systemModstamp = .ok stamp) (out : stamp ≤ now - grace)
    (clean : report.entries row.id = []) : versions.lookup row.id = some (Reconciler.version stamp) := by
  have entries := compiled.entries_of_won distinct listed
  rw [clean, Reconciler.dealDrift, parsed] at entries
  dsimp only at entries
  rw [if_neg (not_lt.mpr out)] at entries
  have count := congrArg List.length entries
  rw [Reconciler.length_eventDrift] at count
  by_contra other
  rw [if_neg other] at count
  cases count

/-- In a traceable state, an order without an entry has the content of its deal. -/
theorem mirrored_of_traceable (inv : Traceable rt w) : Mirrored S rt w := by
  intro fuel now grace report w' run d mem won stamp parsed out item here clean
  obtain ⟨ledger, is, sourced⟩ := inv.ledger
  obtain ⟨rows, versions, found, read, stores, compiled⟩ := compiled_of_reconcile ⟨ledger, is⟩ run
  obtain ⟨row, listed, load⟩ := Ingest.exists_of_forall₂ read (mem_selected.mpr ⟨mem, won⟩)
  obtain ⟨amount, rfl⟩ := withAmount_of_loadRow load
  have distinct : (rows.map Row.id).Nodup := by
    rw [ids_of_loadRow read]
    exact selected_nodup _ inv.distinct
  -- No entry: the stored version is the deal's.
  have looked : versions.lookup d.id = some (Reconciler.version stamp) :=
    lookup_of_clean compiled distinct listed parsed out clean
  obtain ⟨first, last, -, ends, rfl⟩ := is.last here
  have version : Reconciler.version stamp = last.order.version := by
    have stored := stores d.id
    rw [here, looked, Option.bind_some, Option.map_some] at stored
    have same : some (Dynamo.AttrVal.n last.order.version) = some (.n (Reconciler.version stamp)) := stored
    exact_mod_cast (Dynamo.AttrVal.n.inj (Option.some.inj same)).symm
  -- The order stored was made of a state of the deal with this version.
  obtain ⟨written, own⟩ := List.mem_filter.mp (List.mem_of_getLast? ends)
  obtain ⟨r, seen, depicts⟩ := sourced last written
  have id : d.id = r.id := by
    obtain ⟨row₀, total, load₀, -, mapped₀⟩ := depicts.mapped
    obtain ⟨amount₀, rfl⟩ := withAmount_of_loadRow load₀
    exact (of_decide_eq_true own).symm.trans mapped₀.id.1
  have same := inv.steady.content d mem won r seen id stamp parsed (version ▸ depicts.version)
  obtain ⟨order, made, content⟩ := toOrder_of_depicts rt depicts id same load version now
  have event : Reconciler.fromSalesforce (d.row.withAmount amount) now =
      .ok (Reconciler.eventOf (d.row.withAmount amount) stamp now) := by
    have parsed : Reconciler.parseModstamp (d.row.withAmount amount).systemModstamp = .ok stamp := parsed
    rw [Reconciler.fromSalesforce, parsed]
  exact ⟨order, ⟨_, _, load, event, made⟩, (reflects_orderShape first last _ d.id).same content⟩

end Report

/-! ### Every interleaving -/

/-- What happens around the programs: SQS moves a message to the DLQ, and the org,
the parameters and the clock change. Ids stay distinct. -/
inductive Alongside : World → World → Prop where
  | park {w : World} {m : Sqs.Message} : m ∈ w.sqs.queue .main →
      Alongside w { w with sqs := w.sqs.move .main .deadLetters m }
  | elsewhere {w w' : World} : w'.erp = w.erp → w'.sqs = w.sqs → w'.reads = w.reads →
      (w'.org.map Deal.id).Nodup → Alongside w w'

/-- The runs of every component. -/
inductive Runs (rt : Runtime) : Component → Act Unit → Prop where
  | poll (p : Ingest.Poller) : Runs rt .poller (p.run >>= fun _ => pure ())
  | reconcile (settings : Reconciler.Settings) (fuel : Nat) (event : Reconciler.Invocation) :
      Runs rt .reconciler (Reconciler.handler rt settings fuel event >>= fun _ => pure ())
  | cycle (settings : Settings) : Runs rt .worker (cycle rt settings)
  | redrive (fuel : Nat) (all dryRun : Bool) :
      Runs rt .operator (redrive fuel all dryRun >>= fun _ => pure ())
  | ack (fuel : Nat) (id : String) : Runs rt .operator (ack fuel id >>= fun _ => pure ())

/-- A change around the programs after which versions still tell the deals apart. -/
def Steadily (w w' : World) : Prop := Alongside w w' ∧ Steady w'.org w'.reads

theorem traceable_alongside {rt : Runtime} {w w' : World} (inv : Traceable rt w) (step : Steadily w w') :
    Traceable rt w' ∧ w.reads ⊆ w'.reads := by
  obtain ⟨alongside, steady⟩ := step
  cases alongside with
  | park here =>
      refine ⟨inv.requeue fun q m mem => ?_, List.Subset.refl _⟩
      rcases (Sqs.mem_move (by decide)).mp mem with ⟨before, -⟩ | ⟨-, rfl⟩
      · exact inv.bodies q m before
      · exact inv.bodies .main _ here
  | elsewhere sameErp sameSqs sameReads distinct =>
      refine ⟨⟨?_, ?_, distinct, steady⟩, sameReads ▸ List.Subset.refl _⟩
      · rw [sameErp, sameReads]
        exact inv.ledger
      · rw [sameSqs, sameReads]
        exact inv.bodies

theorem traceable_start {rt : Runtime} {w : World} (noRows : w.erp = Dynamo.State.empty)
    (noMessages : w.sqs = Sqs.State.empty) (distinct : (w.org.map Deal.id).Nodup)
    (steady : Steady w.org w.reads) : Traceable rt w where
  ledger := ⟨[], ⟨by rw [noRows]; rfl, by rw [noRows]; exact records_empty⟩, fun _ mem => nomatch mem⟩
  bodies := by
    intro q m mem
    rw [noMessages] at mem
    cases mem
  distinct := distinct
  steady := steady

/-- In every state reached by steps that keep the org steady, a comparison that is
silent about an order has it as its deal is. -/
theorem mirrored_of_steadily {S : Services} {rt : Runtime} {w : World}
    {s : Pool World Component Request.Answer Unit} (deep : 2 ≤ rt.depth)
    (noRows : w.erp = Dynamo.State.empty) (noMessages : w.sqs = Sqs.State.empty)
    (distinct : (w.org.map Deal.id).Nodup) (steady : Steady w.org w.reads)
    (reached : Pool.Reaches S.Answers Steadily (Runs rt) (Pool.idle w) s) : Mirrored S rt s.world := by
  have sound : Pool.Sound (provenance S rt) (fun _ _ _ => True) s := by
    refine (Pool.sound_idle (traceable_start noRows noMessages distinct steady)).reaches
      (fun _ _ _ _ _ _ _ => trivial) (fun _ _ inv step => traceable_alongside inv step)
      (fun _ _ guar => guar) (fun _ program v starts inv => ?_) reached
    cases starts with
    | poll p => exact provenance_sequence inv (poll_keeps deep p inv) fun _ _ _ _ _ => trivial
    | reconcile settings fuel event =>
        exact provenance_sequence inv (handler_traceable deep settings fuel event inv)
          fun _ _ _ _ _ => trivial
    | cycle settings => exact cycle_traceable settings
    | redrive fuel all dryRun =>
        exact provenance_sequence inv (redrive_traceable fuel all dryRun inv) fun _ _ _ _ _ => trivial
    | ack fuel id => exact keeps_of_harmless ((calls_ack fuel id).bind fun _ => .ret _)
  exact mirrored_of_traceable sound.inv

/-! ### Two edits with one version -/

section Edits

variable {S : Services} {env : World → World → Prop} {rt : Runtime}
  {answers : (request : Request) → World → request.Answer → World → Prop}

/-- Every request but the clock's may be answered as the services answer it. -/
def Untimed (S : Services) (answers : (request : Request) → World → request.Answer → World → Prop) : Prop :=
  ∀ request w reply w', request ≠ .utcNow → S.Answers request w reply w' → answers request w reply w'

theorem untimed_answers (S : Services) : Untimed S S.Answers := fun _ _ _ _ _ answered => answered

/-- The first transaction on empty tables. -/
theorem committed_empty (order : Order) (now : String) :
    ∃ erp, Dynamo.Committed (transaction order now) Dynamo.State.empty erp := by
  obtain ⟨db, written⟩ : ∃ db, Dynamo.State.empty.db.transact (transaction order now) = some db := by
    refine Option.isSome_iff_exists.mp ((transact_isSome_iff _ order now).mpr ⟨rfl, rfl⟩)
  exact ⟨⟨db, [transaction order now]⟩, written, rfl⟩

/-- A record's order, written on empty tables. -/
theorem handleRecord_exec (settings : Settings) {record : Record} {w : World} {order : Order}
    {erp : Dynamo.State Table} (noRows : w.erp = Dynamo.State.empty)
    (read : orderOf rt record.body = .ok order)
    (committed : Dynamo.Committed (transaction order (isoformat 0)) Dynamo.State.empty erp) :
    Exec S.Answers env (handleRecord rt settings record .off) w (.ok (.result .written))
      { w with erp := erp } := by
  have answered : S.Answers (.transactWriteItems (transaction order (isoformat 0))) w (.ok ())
      { w with erp := erp } := ⟨erp, ⟨.inr (noRows ▸ committed), noRows ▸ committed⟩, rfl⟩
  have wrote : Exec S.Answers env (writeOrder rt.printable order (isoformat 0)) w (.ok .written)
      { w with erp := erp } := .call .refl answered .ret
  have processed : Exec S.Answers env (process rt record .off) w (.ok .written)
      { w with erp := erp } := by
    have clock : S.Answers .utcNow w (0 : Int) w := rfl
    rw [process, read]
    exact .call .refl clock wrote
  unfold handleRecord
  exact processed.bind .ret

/-- One record, handled in time and without chaos. -/
theorem invoke_exec (settings : Settings) {record : Record} {w w' : World} {result : WriteResult}
    (handled : Exec S.Answers env (handleRecord rt settings record .off) w (.ok (.result result)) w') :
    Exec S.Answers env (invoke rt settings [record]) w (some []) w' := by
  have asked : S.Answers (.getParameters [settings.paramPrefix ++ "/chaos/erp_fail_rate",
      settings.paramPrefix ++ "/chaos/worker_crash_after"]) w (.error "") w := rfl
  have loaded : Exec S.Answers env (Chaos.load settings.paramPrefix) w (.ok .off) w :=
    .call .refl asked .ret
  have timed : S.Answers .remainingTime w none w := rfl
  have inTime : Exec S.Answers env (outOfTime settings) w false w := .call .refl timed .ret
  have looped : Exec S.Answers env (handleRecords rt settings .off 0 [] [record]) w (.ok []) w' := by
    unfold handleRecords
    exact inTime.bind (handled.bind .ret)
  have handed : Exec S.Answers env (handler rt settings [record]) w (.ok []) w' := by
    unfold handler
    exact loaded.bind looped
  unfold invoke
  exact handed.bind .ret

/-- A worker that receives one message on empty tables writes its order. -/
theorem cycle_exec (settings : Settings) {w : World} {m : Sqs.Message} {order : Order}
    (noRows : w.erp = Dynamo.State.empty) (queued : m ∈ w.sqs.queue .main)
    (read : orderOf rt m.body = .ok order) :
    ∃ w' now, Exec S.Answers env (cycle rt settings) w () w' ∧ w'.org = w.org ∧
      Dynamo.Committed (transaction order now) Dynamo.State.empty w'.erp := by
  obtain ⟨erp, committed⟩ := committed_empty order (isoformat 0)
  obtain ⟨received, handed⟩ : ∃ received : Sqs.Received, received = ⟨m, ⟨m.messageId, 0⟩, none⟩ :=
    ⟨_, rfl⟩
  have got : S.Answers (.receiveMessage .main batchSize) w (.ok [received]) w := by
    refine ⟨w.sqs, ⟨rfl, ?_⟩, rfl⟩
    rintro batch ⟨⟩
    refine ⟨by simp, fun r mem => ?_⟩
    obtain rfl := List.mem_singleton.mp mem
    rw [handed]
    exact ⟨queued, rfl⟩
  have body : orderOf rt (toRecord received).body = .ok order := by
    rw [handed]
    exact read
  have invoked : Exec S.Answers env (invoke rt settings [toRecord received]) w (some [])
      { w with erp := erp } := invoke_exec settings (handleRecord_exec settings noRows body committed)
  have deleted : S.Answers (.deleteMessageBatch .main [received.receiptHandle]) { w with erp := erp }
      (.ok ()) { w with erp := erp } := ⟨w.sqs, .cons (.inl rfl) .nil, rfl⟩
  refine ⟨{ w with erp := erp }, _, ?_, rfl, committed⟩
  unfold cycle
  refine .call .refl got (invoked.bind ?_)
  have kept : [received].filter (fun m => m.message.messageId ∉ ([] : List String)) = [received] := rfl
  dsimp only
  rw [kept]
  exact .call .refl deleted .ret

/-- A page with the one order that was written. -/
theorem isPage_committed {order : Order} {now : String} {erp : Dynamo.State Table}
    (committed : Dynamo.Committed (transaction order now) Dynamo.State.empty erp) :
    ∃ item, erp.db .orders order.orderId = some item ∧ Reflects item order ∧
      Reconciler.Versioned item order.orderId order.version ∧
      S.IsPage (erp.db .orders) none ⟨[item], none⟩ := by
  have records : Records [⟨order, now⟩] erp.db := records_empty.commit (w := ⟨order, now⟩) committed.1
  have own : Ledger.ofOrder [⟨order, now⟩] order.orderId = [⟨order, now⟩] := by simp [Ledger.ofOrder]
  have here := records.orders order.orderId
  rw [Ledger.orderRow, own, Ledger.row_of_ends _ _ rfl rfl] at here
  refine ⟨_, here, reflects_orderShape _ ⟨order, now⟩ _ _, ⟨rfl, rfl⟩, ?_, ?_, ?_⟩
  · intro item mem
    obtain rfl := List.mem_singleton.mp mem
    refine ⟨order.orderId, ⟨?_, ?_⟩, here⟩
    · rintro k ⟨⟩
    · rintro k ⟨⟩
  · intro key item _ stored
    by_cases same : order.orderId = key
    · subst same
      rw [here] at stored
      rw [Option.some.inj stored]
      exact List.mem_cons_self
    · have others : Ledger.ofOrder [⟨order, now⟩] key = [] := by simp [Ledger.ofOrder, same]
      rw [records.orders, Ledger.orderRow, others] at stored
      cases stored
  · rintro k ⟨⟩

/-- The scan of tables whose one order was written before it. -/
theorem scan_committed {w₀ w : World} {order : Order} {written : String} (untimed : Untimed S answers)
    (moves : Relation.ReflTransGen env w₀ w)
    (committed : Dynamo.Committed (transaction order written) Dynamo.State.empty w.erp) :
    Exec answers env (Reconciler.scanOrderVersions 1) w₀ (some (.ok [(order.orderId, order.version)])) w := by
  obtain ⟨item, here, -, versioned, isPage⟩ := isPage_committed (S := S) committed
  have answered : S.Answers (.scan .orders none) w (.ok ⟨[item], none⟩) w :=
    ⟨rfl, fun page same => (Except.ok.inj same) ▸ isPage⟩
  have added : Reconciler.addItems [] [item] = .ok [(order.orderId, order.version)] := by
    rw [Reconciler.addItems, versioned.1, Reconciler.storedVersion_of_versioned versioned]
    rfl
  unfold Reconciler.scanOrderVersions Reconciler.scanPages
  refine .call moves (untimed _ _ _ _ (by simp) answered) ?_
  simp only [Prog.bind, added]
  exact .ret

/-- A reconciliation of one deal. -/
theorem reconcile_one {w w₂ : World} {d : Deal} {row : Row PyNum} {versions : Reconciler.Versions}
    {now grace : Int} {report : Reconciler.Report} (untimed : Untimed S answers) (org : w.org = [d])
    (won : d.isWon = true) (load : Reconciler.loadRow d.row = .ok row)
    (scanned : Exec answers env (Reconciler.scanOrderVersions 1)
      { w with reads := w.reads ++ [(.won, w.org)] } (some (.ok versions)) w₂)
    (compared : Reconciler.compare rt [row] versions Reconciler.stageLookup now grace = pure (.ok report)) :
    Exec answers env (Reconciler.reconcile rt 1 now grace) w (some (.ok report)) w₂ := by
  obtain ⟨w₁, queried⟩ : ∃ w₁ : World, w₁ = { w with reads := w.reads ++ [(.won, w.org)] } := ⟨_, rfl⟩
  rw [← queried] at scanned
  have selects : S.Answers (.queryAll .won) w (.ok [d.row.json]) w₁ := by
    have deals : selected (fun d => d.isWon) w.org = [d] := by
      rw [org, selected, List.filter_cons, if_pos won]
      rfl
    refine ⟨?_, queried⟩
    rw [Soql.Selects, deals]
    rfl
  have loaded : Reconciler.loadAll [d.row.json] = .ok [row.json] := by
    rw [Reconciler.loadAll, Reconciler.load_row, load]
    rfl
  have rows : Reconciler.readRows [row.json] = .ok [row] := by
    rw [Reconciler.readRows, Reconciler.readRow_row]
    rfl
  have deals : Exec answers env (Reconciler.queryAll .won) w (.ok [row.json]) w₁ :=
    loaded ▸ .call .refl (untimed _ _ _ _ (by simp) selects) .ret
  unfold Reconciler.reconcile
  refine deals.bind (scanned.bind ?_)
  dsimp only
  rw [rows]
  dsimp only
  rw [compared]
  exact .ret

/-- A reconciliation is silent about a stored order of the deal's version. -/
theorem reconcile_silent {w : World} {d : Deal} {row : Row PyNum} {order : Order} {written : String}
    {now grace stamp : Int} (org : w.org = [d]) (won : d.isWon = true)
    (load : Reconciler.loadRow d.row = .ok row)
    (committed : Dynamo.Committed (transaction order written) Dynamo.State.empty w.erp)
    (id : order.orderId = d.id) (parsed : Reconciler.parseModstamp (wireText d.systemModstamp) = .ok stamp)
    (version : order.version = Reconciler.version stamp) (out : stamp ≤ now - grace) :
    ∃ report w', Exec S.Answers Still (Reconciler.reconcile rt 1 now grace) w (some (.ok report)) w' ∧
      report.entries d.id = [] := by
  obtain ⟨amount, rfl⟩ := withAmount_of_loadRow load
  have parsed : Reconciler.parseModstamp (d.row.withAmount amount).systemModstamp = .ok stamp := parsed
  obtain ⟨report, checked⟩ : ∃ report, Reconciler.checkDeals rt [(d.id, order.version)] now grace
      (Reconciler.emptyReport [(d.id, order.version)]) [d.row.withAmount amount] = .ok report := by
    refine Reconciler.exists_checkDeals_iff.mpr fun row mem => ?_
    rw [List.mem_singleton.mp mem]
    exact ⟨stamp, parsed⟩
  have compared : Reconciler.compare rt [d.row.withAmount amount] [(d.id, order.version)]
      Reconciler.stageLookup now grace = pure (.ok report) := by
    have none_ : Reconciler.orphans [(d.id, order.version)] ([d.row.withAmount amount].map Row.id) = [] :=
      Reconciler.orphans_won
    rw [Reconciler.compare, checked]
    dsimp only
    rw [none_]
  have scanned := @scan_committed S Still S.Answers _ { w with reads := w.reads ++ [(.won, w.org)] } _ _
    (untimed_answers S) .refl committed
  rw [id] at scanned
  refine ⟨report, _, reconcile_one (untimed_answers S) org won load scanned compared, ?_⟩
  have done : Exec S.Answers Still (Reconciler.compare rt [d.row.withAmount amount] [(d.id, order.version)]
      Reconciler.stageLookup now grace) w (.ok report) w := compared ▸ .ret
  obtain ⟨found, compiled⟩ := (Reconciler.returns_compiled rt _ _ _ now grace).exec done report rfl
  have entries := compiled.entries_of_won (by simp) List.mem_cons_self
  have drift : Reconciler.dealDrift rt [(d.id, order.version)] now grace (d.row.withAmount amount) =
      none := by
    have looked : List.lookup (d.row.withAmount amount).id [(d.id, order.version)] =
        some (Reconciler.version stamp) := by
      rw [← version]
      exact List.lookup_cons_self
    have count : (Reconciler.eventDrift rt [(d.id, order.version)] now (d.row.withAmount amount)
        stamp).toList.length = _ := Reconciler.length_eventDrift
    rw [if_pos looked] at count
    rw [Reconciler.dealDrift, parsed]
    dsimp only
    rw [if_neg (not_lt.mpr out)]
    simpa using count
  rw [drift] at entries
  exact entries

end Edits

/-- A deal of the first second, at this amount. -/
def renewalFor (amount : Int) : Deal :=
  ⟨"006A00000000001AAA", some "Renewal", some "Closed Won", true, some (.ofInt amount), some "2026-09-14",
    some "001A00000000001AAA", some (some "Acme"), 1000⟩

theorem stamp_renewalFor (amount : Int) :
    Reconciler.parseModstamp (wireText (renewalFor amount).systemModstamp) = .ok 1000000 := by
  have parsed : Reconciler.parseModstamp (wireText 1000) = .ok 1000000 := by with_unfolding_all rfl
  exact parsed

theorem load_renewalFor :
    Reconciler.loadRow (renewalFor 7000).row =
      .ok ((renewalFor 7000).row.withAmount (some (.int 7000))) := by
  have amount : loadNumber (.number (.ofInt 7000)) = .ok (.int 7000) := by with_unfolding_all rfl
  simp only [Reconciler.loadRow, renewalFor, Deal.row, Option.map_some, Json.Number.token, amount]
  rfl

/-- The order of the poller's message for the deal. -/
theorem orderOf_renewalFor {ev : Ingest.Event} (event : Ingest.IsEventOf (renewalFor 5000) ev) :
    ∃ order, orderOf ⟨fun _ => true, 1000⟩ (marshal ev) = .ok order ∧
      order.orderId = "006A00000000001AAA" ∧ order.version = 1000 ∧ order.total = .ofInt 5000 := by
  obtain ⟨publishedAt, body⟩ := @orderOf_marshal ⟨fun _ => true, 1000⟩ _ (by decide) ev event
  have amounts : parseAmount (renewalFor 5000).row.amount = .ok (some (.int 5000)) := by
    with_unfolding_all rfl
  rw [amounts] at body
  have billable : Billable (renewalFor 5000).row (goAccountName (renewalFor 5000).row) :=
    ⟨by decide, ⟨_, rfl, by decide⟩, ⟨_, rfl, by decide⟩, _, rfl, by decide⟩
  have totals := toOrder_event ⟨fun _ => true, 1000⟩ publishedAt
    (billable.withAmount (some (.int 5000) : Option (Json.Number PyNum)))
    (show (0 : Int) < (renewalFor 5000).systemModstamp by decide)
    (formatMillis_ne_empty (1000000 * (renewalFor 5000).systemModstamp))
  have whole : amount (.int 5000) = .ok (.ofInt 5000) := amount_int (by decide)
  change _ = toOrder _ (eventMembers ((renewalFor 5000).row.withAmount (some (.int 5000))) _ _ _ _) at body
  rw [← body] at totals
  cases made : orderOf ⟨fun _ => true, 1000⟩ (marshal ev) with
  | error exc =>
      rw [made] at totals
      cases totals.trans whole
  | ok order =>
      rw [made] at totals body
      have mapped := mapped_of_toOrder body.symm
      exact ⟨order, rfl, mapped.id.1, mapped.version.1, Except.ok.inj (totals.trans whole)⟩

/-- A deal that is polled and written once is mirrored. -/
theorem mirrored_renewal : ∃ s : Pool World Component Request.Answer Unit,
    (∃ item, s.world.erp.db .orders "006A00000000001AAA" = some item) ∧
      Mirrored ⟨fun _ => 0⟩ ⟨fun _ => true, 1000⟩ s.world := by
  obtain ⟨result, w₁, ev, m, polled, org, -, -, noRows, sent, event, body⟩ :=
    @Ingest.oneDeal_exec ⟨fun _ => 0⟩ _ (Ingest.admits_answers _ _) Steadily (renewalFor 5000) rfl rfl
  obtain ⟨order, read, id, -⟩ := orderOf_renewalFor event
  have queued : m ∈ w₁.sqs.queue .main := by
    rw [sent]
    exact Sqs.mem_push.mpr (.inr ⟨rfl, rfl⟩)
  obtain ⟨w₂, written, cycled, -, committed⟩ := @cycle_exec ⟨fun _ => 0⟩ Steadily
    ⟨fun _ => true, 1000⟩ ⟨"/relay", 60, 900, 5000⟩ w₁ m order noRows queued (body ▸ read)
  obtain ⟨item, here, -⟩ := @isPage_committed ⟨fun _ => 0⟩ _ _ _ committed
  have polls : Exec (Services.Answers ⟨fun _ => 0⟩) Steadily
      (Ingest.earlyPoller.run >>= fun _ => pure ()) _ () w₁ := polled.bind .ret
  have poll := Pool.reaches_exec (@Runs.poll ⟨fun _ => true, 1000⟩ Ingest.earlyPoller) polls [] []
  have work := Pool.reaches_exec (Runs.cycle _) cycled [] [(.poller, ())]
  have steady : Steady [renewalFor 5000] [] := by
    refine ⟨fun _ _ _ _ seen => ?_, fun d mem _ t present => ?_⟩
    · obtain ⟨read, none_, -⟩ := seen
      cases none_
    · obtain rfl := List.mem_singleton.mp mem
      cases present
      exact .inl rfl
  exact ⟨_, ⟨item, id ▸ here⟩,
    mirrored_of_steadily (by decide) rfl rfl (by simp) steady (poll.trans work)⟩

/-- The amount of a deal is edited twice within one second, and the second edit
commits after the poll: the comparison is silent about the order of the first. -/
theorem not_mirrored_editedTwice : ∃ s : Pool World Component Request.Answer Unit,
    Pool.Reaches (Services.Answers ⟨fun _ => 0⟩) Alongside (Runs ⟨fun _ => true, 1000⟩)
      (Pool.idle { World.empty with org := [renewalFor 5000] }) s ∧
    ¬ Mirrored ⟨fun _ => 0⟩ ⟨fun _ => true, 1000⟩ s.world := by
  obtain ⟨result, w₁, ev, m, polled, org, -, -, noRows, sent, event, body⟩ :=
    @Ingest.oneDeal_exec ⟨fun _ => 0⟩ _ (Ingest.admits_answers _ _) Alongside (renewalFor 5000) rfl rfl
  obtain ⟨order, read, id, version, total⟩ := orderOf_renewalFor event
  -- The second edit.
  obtain ⟨w₂, edited⟩ : ∃ w₂ : World, w₂ = { w₁ with org := [renewalFor 7000] } := ⟨_, rfl⟩
  have queued : m ∈ w₂.sqs.queue .main := by
    rw [edited, sent]
    exact Sqs.mem_push.mpr (.inr ⟨rfl, rfl⟩)
  have beside : Alongside w₁ w₂ := by
    rw [edited]
    exact .elsewhere rfl rfl rfl (by simp)
  have noRows : w₂.erp = Dynamo.State.empty := by
    rw [edited]
    exact noRows
  obtain ⟨w₃, written, cycled, org₃, committed⟩ := @cycle_exec ⟨fun _ => 0⟩ Alongside
    ⟨fun _ => true, 1000⟩ ⟨"/relay", 60, 900, 5000⟩ w₂ m order noRows queued (body ▸ read)
  refine ⟨⟨w₃, [], [(.worker, ()), (.poller, ())]⟩, ?_, fun mirrored => ?_⟩
  · have polls : Exec (Services.Answers ⟨fun _ => 0⟩) Alongside
        (Ingest.earlyPoller.run >>= fun _ => pure ()) _ () w₁ := polled.bind .ret
    have poll := Pool.reaches_exec (@Runs.poll ⟨fun _ => true, 1000⟩ Ingest.earlyPoller) polls [] []
    have work := Pool.reaches_exec (Runs.cycle _) cycled [] [(.poller, ())]
    exact (poll.tail (.environment beside)).trans work
  · obtain ⟨item, here, reflects, -⟩ := @isPage_committed ⟨fun _ => 0⟩ _ _ _ committed
    have org₃ : w₃.org = [renewalFor 7000] := by rw [org₃, edited]
    have versions : order.version = Reconciler.version 1000000 := by
      rw [version]
      decide +kernel
    obtain ⟨report, w', run, clean⟩ := @reconcile_silent ⟨fun _ => 0⟩ ⟨fun _ => true, 1000⟩ w₃
      (renewalFor 7000) _ order written 3601000000 3600000000 1000000 org₃ rfl load_renewalFor committed
      id (stamp_renewalFor 7000) versions (by decide)
    have mem : renewalFor 7000 ∈ w₃.org := by
      rw [org₃]
      exact List.mem_singleton.mpr rfl
    have stored : w₃.erp.db .orders (renewalFor 7000).id = some item := by
      rw [← here, id]
      rfl
    obtain ⟨order', ⟨row, event, load, made, mapped⟩, reflects'⟩ := mirrored 1 _ _ report w' run _ mem
      rfl _ (stamp_renewalFor 7000) (by decide) item stored clean
    cases load_renewalFor.symm.trans load
    have text : ((renewalFor 7000).row.withAmount
        (some (.int 7000) : Option (Json.Number PyNum))).systemModstamp =
          wireText (renewalFor 7000).systemModstamp := rfl
    rw [Reconciler.fromSalesforce, text, stamp_renewalFor] at made
    cases made
    rw [Reconciler.eventOf_eq] at mapped
    obtain ⟨number, present, accepted⟩ := (mapped_of_toOrder mapped).total
    cases present
    have whole : amount (.int 7000) = .ok (.ofInt 7000) := amount_int (by decide)
    have totals := reflects.total.symm.trans reflects'.total
    rw [total, ← Except.ok.inj (whole.symm.trans accepted), Dec.value_ofInt, Dec.value_ofInt] at totals
    norm_num at totals

end Relay.Delivery
