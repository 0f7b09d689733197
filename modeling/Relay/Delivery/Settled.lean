import Relay.Delivery.EndToEnd
import Relay.Reconciler.WireStamps

/-!
When the queues are empty, the ERP is Salesforce.

Three contracts hold at once of the pollers, reconcilers, cycles and redrives: the
watermark is safe, every message is accounted for, and every order depicts a deal
that was read. So once nothing is on its way any more, a won deal that the watermark
has passed is stored at its own version, with what the worker makes of it now: no
comparison is needed to know it.
-/

namespace Relay.Delivery

open Relay.Effect Relay.Platform Relay.Python Relay.Salesforce Relay.Worker Relay.Relayctl Relay.Erp
  Relay.Sqs Relay.Events

/-- What happens around the programs: SQS moves a message to the DLQ, and deals change as the lag
allows, so that ids stay distinct and versions still tell the deals apart. -/
def Orderly (p : Ingest.Poller) (w w' : World) : Prop := Outside p w w' ∧ Steadily w w'

/-- Every edit of the deal was stamped: a state of it that was read before is older, or has the same
stamp and the same content. -/
def Newest (reads : List (Soql × List Deal)) (d : Deal) : Prop :=
  ∀ r, Seen reads r → r.id = d.id → r.systemModstamp < d.systemModstamp ∨
    (r.systemModstamp = d.systemModstamp ∧ SameContent d r)

/-- The ERP has the deal's order, at its stamp and with what the worker makes of its event. -/
def Settled (rt : Runtime) (w : World) (d : Deal) : Prop :=
  ∃ ev order item, Ingest.IsEventOf d ev ∧ orderOf rt (marshal ev) = .ok order ∧
    w.erp.db .orders d.id = some item ∧ item "version" = some (.n d.systemModstamp) ∧ Reflects item order

/-! ### Versions and content -/

section Orders

variable {rt : Runtime} {d r : Deal} {a b : Order}

theorem positive_of_depicts (depicts : Depicts d a) : 0 < a.version := by
  obtain ⟨row, total, -, -, mapped⟩ := depicts.mapped
  exact mapped.version.2

/-- The order of a deal is not newer than the deal. -/
theorem version_le_of_depicts (depicts : Depicts d a) : a.version ≤ d.systemModstamp := by
  have positive := positive_of_depicts depicts
  have named := depicts.version
  generalize a.version = version at positive named
  cases named with
  | poller => exact le_refl _
  | reconciler parsed =>
      obtain ⟨rfl, inRange⟩ := Reconciler.parseModstamp_wireText parsed
      exact Reconciler.version_le inRange positive

/-- Orders of two states of a deal with the same content have the same content. -/
theorem sameOrder_of_depicts (first : Depicts d a) (second : Depicts r b) (same : SameContent d r) :
    SameOrder b a := by
  obtain ⟨row, total, load, value, mapped⟩ := first.mapped
  obtain ⟨row', total', load', value', mapped'⟩ := second.mapped
  obtain ⟨amount, rfl, rfl⟩ := loadRow_same same load load'
  have totals : total' = total := by
    obtain ⟨number, here, read⟩ := mapped.total
    obtain ⟨number', here', read'⟩ := mapped'.total
    cases here.symm.trans here'
    exact Except.ok.inj (read'.symm.trans read)
  have account : d.account.join = r.account.join := congrArg Option.join same.account
  have name : d.name.getD "" = r.name.getD "" := congrArg (Option.getD · "") same.name
  exact {
    customerId := Option.some.inj (mapped'.customer.1.symm.trans (same.accountId.symm.trans mapped.customer.1))
    customerName := Option.some.inj
      (mapped'.customerName.1.symm.trans (account.symm.trans mapped.customerName.1))
    opportunityName := mapped'.opportunityName.trans (name.symm.trans mapped.opportunityName.symm)
    total := by rw [← value, ← value', totals]
    orderDate := Option.some.inj
      (mapped'.closeDate.1.symm.trans (same.closeDate.symm.trans mapped.closeDate.1)) }

end Orders

/-! ### One state -/

section State

variable {S : Services} {rt : Runtime} {p : Ingest.Poller} {initial : Int}

/-- A world with every component in it, and with orders that can be traced to deals. -/
def traced (S : Services) (rt : Runtime) (p : Ingest.Poller) (initial : Int) :
    Contract World Request.Answer := (pipeline S rt p initial).both (provenance S rt)

/-- A deal that arrived in a traceable state is settled, if its newest state was stamped. -/
theorem settled_of_storedFrom (deep : 2 ≤ rt.depth) {w : World} (inv : Traceable rt w) {d : Deal}
    (here : d ∈ w.org) (won : d.isWon = true) (newest : Newest w.reads d) {ev : Ingest.Event}
    (event : Ingest.IsEventOf d ev) (applied : Applied rt w.erp (marshal ev)) : Settled rt w d := by
  obtain ⟨ledger, is, sourced⟩ := inv.ledger
  obtain ⟨order, read, -⟩ := id applied
  obtain ⟨item, version, stored, value, le⟩ := storedFrom_of_applied deep event applied
  obtain ⟨first, last, -, ends, rfl⟩ := is.last stored
  have same : last.order.version = version := by
    have both : some (Dynamo.AttrVal.n last.order.version) = some (.n version) := value
    exact_mod_cast Dynamo.AttrVal.n.inj (Option.some.inj both)
  subst same
  obtain ⟨written, own⟩ := List.mem_filter.mp (List.mem_of_getLast? ends)
  obtain ⟨r, seen, depicts⟩ := sourced last written
  have id : r.id = d.id := by
    obtain ⟨row, total, load, -, mapped⟩ := depicts.mapped
    obtain ⟨amount, rfl⟩ := withAmount_of_loadRow load
    exact mapped.id.1.symm.trans (of_decide_eq_true own)
  -- No state of the deal is newer than this one, so the order was made of it.
  have bound := version_le_of_depicts depicts
  obtain ⟨stamp, content⟩ : r.systemModstamp = d.systemModstamp ∧ SameContent d r := by
    rcases newest r seen id with older | same
    · omega
    · exact same
  have version : last.order.version = d.systemModstamp := by omega
  have own := depicts_of_poller deep (inv.steady.exact_ d here won) event read
  refine ⟨ev, order, _, event, read, stored, version ▸ value, ?_⟩
  exact (reflects_orderShape first last _ d.id).same (sameOrder_of_depicts own depicts content)

/-- Every program also sends and writes nothing but what deals say. -/
theorem traced_syncs (deep : 2 ≤ rt.depth) {w : World} {component : Component} {program : Act Unit}
    (starts : Syncs rt p component program) (inv : (traced S rt p initial).inv w) :
    Keeps (traced S rt p initial) (fun _ _ => True) program w := by
  have traceable : Keeps (provenance S rt) (fun _ _ => True) program w := by
    cases starts with
    | poll => exact provenance_sequence inv.2 (poll_keeps deep p inv.2) fun _ _ _ _ _ => trivial
    | reconcile settings fuel event =>
        exact provenance_sequence inv.2 (handler_traceable deep settings fuel event inv.2)
          fun _ _ _ _ _ => trivial
    | cycle settings => exact cycle_traceable settings
    | redrive fuel all dryRun =>
        exact provenance_sequence inv.2 (redrive_traceable fuel all dryRun inv.2) fun _ _ _ _ _ => trivial
  exact (Keeps.both (C := pipeline S rt p initial) (D := provenance S rt) rfl
    (pipeline_syncs starts inv.1) traceable).mono (fun _ _ _ _ => trivial) inv

theorem traced_reaches (deep : 2 ≤ rt.depth) {w : World} {s : Pool World Component Request.Answer Unit}
    (start : (traced S rt p initial).inv w)
    (reached : Pool.Reaches S.Answers (Orderly p) (Syncs rt p) (Pool.idle w) s) :
    (traced S rt p initial).inv s.world := by
  have sound : Pool.Sound (traced S rt p initial) (fun _ _ _ => True) s := by
    refine (Pool.sound_idle start).reaches (fun _ _ _ _ _ _ _ => trivial) (fun v v' inv step => ?_)
      (fun _ _ guar => guar) (fun _ _ _ starts inv => traced_syncs deep starts inv) reached
    obtain ⟨inv₁, moved⟩ := pipeline_outside inv.1 step.1
    obtain ⟨inv₂, more⟩ := traceable_alongside inv.2 step.2
    exact ⟨⟨inv₁, inv₂⟩, moved, more⟩
  exact sound.inv

/-- In a traceable state with empty queues, a deal that the watermark has passed is settled. -/
theorem settled_of_traced (deep : 2 ≤ rt.depth) {w : World} (inv : (traced S rt p initial).inv w)
    (quiet : ∀ q, w.sqs.queue q = []) {t : Int} (stored : p.watermark.stored w = some t) {d : Deal}
    (here : d ∈ w.org) (won : d.isWon = true) (low : initial ≤ d.stamp) (high : d.stamp < t)
    (newest : Newest w.reads d) : Settled rt w d := by
  obtain ⟨ev, event, m, sent, carries⟩ := (inv.1.1 t stored).covered d here won low high
  have applied : Applied rt w.erp (marshal ev) := by
    rcases inv.1.2.body ⟨_, sent⟩ with ⟨q, m', queued, -⟩ | applied
    · rw [quiet q] at queued
      cases queued
    · rwa [carries.1] at applied
  exact settled_of_storedFrom deep inv.2 here won newest event applied

end State

/-! ### Every interleaving -/

/-- In every state reached in which both queues are empty, every deal that is won now and stamped
between the watermark of the start and the stored one has its order in the ERP, at its own version
and with its content. -/
theorem settled_when_quiet {S : Services} {rt : Runtime} {p : Ingest.Poller} {w : World} {initial : Int}
    {s : Pool World Component Request.Answer Unit} (deep : 2 ≤ rt.depth)
    (noRows : w.erp = Dynamo.State.empty) (noMessages : w.sqs = Sqs.State.empty)
    (distinct : (w.org.map Deal.id).Nodup) (steady : Steady w.org w.reads)
    (start : p.watermark.stored w = some initial)
    (reached : Pool.Reaches S.Answers (Orderly p) (Syncs rt p) (Pool.idle w) s)
    (quiet : ∀ q, s.world.sqs.queue q = []) {t : Int} (stored : p.watermark.stored s.world = some t)
    {d : Deal} (here : d ∈ s.world.org) (won : d.isWon = true) (low : initial ≤ d.stamp)
    (high : d.stamp < t) (newest : Newest s.world.reads d) : Settled rt s.world d := by
  refine settled_of_traced deep (traced_reaches deep ⟨⟨fun t' stored' => ?_, ?_⟩, ?_⟩ reached) quiet
    stored here won low high newest
  · cases start.symm.trans stored'
    exact Ingest.safe_initial p.lag initial w
  · exact accounted_start noRows noMessages
  · exact traceable_start noRows noMessages distinct steady

/-- A deal that was polled and written once is settled. -/
theorem settled_when_quiet_renewal : ∃ w : World, renewalFor 5000 ∈ w.org ∧
    Settled ⟨fun _ => true, 1000⟩ w (renewalFor 5000) := by
  obtain ⟨result, w₁, ev, m, polled, org, reads, mark, noRows, sent, event, body⟩ :=
    @Ingest.oneDeal_exec ⟨fun _ => 0⟩ _ (Ingest.admits_answers _ _) (Orderly Ingest.earlyPoller)
      (renewalFor 5000) rfl rfl
  obtain ⟨order, read, -⟩ := orderOf_renewalFor event
  obtain ⟨w₂, written, cycled, org₂, parameters, reads₂, emptied, -⟩ := @emptied_exec ⟨fun _ => 0⟩
    ⟨fun _ => true, 1000⟩ (Orderly Ingest.earlyPoller) ⟨"/relay", 60, 900, 5000⟩ w₁ m order noRows sent
    (body ▸ read)
  have polls : Exec (Services.Answers ⟨fun _ => 0⟩) (Orderly Ingest.earlyPoller)
      (Ingest.earlyPoller.run >>= fun _ => pure ()) _ () w₁ := polled.bind .ret
  have poll := Pool.reaches_exec (@Syncs.poll ⟨fun _ => true, 1000⟩ Ingest.earlyPoller) polls [] []
  have work := Pool.reaches_exec (@Syncs.cycle _ Ingest.earlyPoller _) cycled [] [(.poller, ())]
  have start : Ingest.earlyPoller.watermark.stored { World.empty with org := [renewalFor 5000] } = some 0 := rfl
  have here : renewalFor 5000 ∈ w₂.org := by
    rw [org₂, org]
    exact List.mem_singleton.mpr rfl
  have mark₂ : Ingest.earlyPoller.watermark.stored w₂ = some 10000000000 := by
    rw [← mark, Ingest.SSMWatermark.stored, Ingest.SSMWatermark.stored, parameters]
  have steady : Steady [renewalFor 5000] [] := by
    refine ⟨fun _ _ _ _ seen => ?_, fun d mem _ t present => ?_⟩
    · obtain ⟨read, none_, -⟩ := seen
      cases none_
    · obtain rfl := List.mem_singleton.mp mem
      cases present
      exact .inl rfl
  have newest : Newest w₂.reads (renewalFor 5000) := by
    rw [reads₂, reads]
    rintro r ⟨read, mem, -, seen⟩ -
    obtain rfl := List.mem_singleton.mp mem
    obtain rfl := List.mem_singleton.mp seen
    exact .inr ⟨rfl, .refl _⟩
  refine ⟨w₂, here, ?_⟩
  exact settled_when_quiet (by decide) rfl rfl (by simp) steady start (poll.trans work)
    emptied mark₂ here rfl (by decide) (by decide) newest

end Relay.Delivery
