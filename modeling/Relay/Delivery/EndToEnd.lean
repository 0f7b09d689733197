import Relay.Delivery.Mirror
import Relay.Delivery.NoLoss
import Relay.Delivery.Requests
import Relay.Effect.Joint

/-!
No won deal is lost between Salesforce and the ERP.

The poller is proved against `Ingest.polls`, the worker and redrive against
`system`. Here pollers, reconcilers, event source cycles and redrives share one
world, and each of them keeps both contracts: its own by its proof, the other one
by its requests alone (`accounted_adds`, `moves_answers`). A deal that the watermark
has passed was sent, and what was sent is on a queue or in the ERP.
-/

namespace Relay.Delivery

open Relay.Effect Relay.Platform Relay.Python Relay.Salesforce Relay.Worker Relay.Relayctl Relay.Erp
  Relay.Sqs

/-! ### Frames -/

/-- A request that takes no message away and writes to no table. -/
def Adds : Request → Prop
  | .transactWriteItems _ => False
  | .deleteMessage _ _ => False
  | .deleteMessageBatch _ _ => False
  | _ => True

/-- A request that leaves this parameter alone. -/
def Spares (name : String) : Request → Prop
  | .putParameter name' _ => name' ≠ name
  | _ => True

section Frames

variable {S : Services} {rt : Runtime} {w w' : World}

theorem Accounted.sendsAll {q : Queue} {entries : List Entry} {s sqs : Sqs.State Queue}
    (sent : SentAll q entries s sqs) : ∀ {w : World}, w.sqs = s → Accounted rt w →
      Accounted rt { w with sqs := sqs } ∧ Grows w { w with sqs := sqs } := by
  induction sent with
  | nil =>
      rintro w rfl accounted
      exact ⟨accounted, Grows.refl w⟩
  | cons first _ ih =>
      rintro w rfl accounted
      obtain ⟨m, -, -, fresh, rfl⟩ := first
      have grows : Grows w { w with sqs := w.sqs.push q m } :=
        ⟨Extends.refl _, List.prefix_append _ _⟩
      obtain ⟨inv, more⟩ := ih (w := { w with sqs := w.sqs.push q m }) rfl (accounted.push fresh)
      exact ⟨inv, grows.trans more⟩

/-- What changes nothing in the tables and the queues. -/
theorem Accounted.elsewhere (accounted : Accounted rt w) (sameErp : w'.erp = w.erp)
    (sameSqs : w'.sqs = w.sqs) : Accounted rt w' ∧ Grows w w' :=
  around_keeps accounted (.elsewhere sameErp sameSqs)

/-- A request that only adds keeps every message accounted for. -/
theorem accounted_adds {request : Request} (adds : Adds request) {reply : request.Answer}
    (answered : S.Answers request w reply w') (inv : Accounted rt w) :
    Accounted rt w' ∧ Grows w w' := by
  cases request with
  | transactWriteItems => exact adds.elim
  | deleteMessage => exact adds.elim
  | deleteMessageBatch => exact adds.elim
  | getItem => exact inv.elsewhere (answered.1 ▸ rfl) (answered.1 ▸ rfl)
  | scan => exact inv.elsewhere (answered.1 ▸ rfl) (answered.1 ▸ rfl)
  | receiveMessage =>
      obtain ⟨sqs, ⟨rfl, -⟩, rfl⟩ := answered
      exact ⟨inv, Grows.refl w⟩
  | sendMessage =>
      obtain ⟨sqs, sent, rfl⟩ := answered
      exact inv.sends sent
  | sendMessageBatch =>
      obtain ⟨sqs, ⟨stored, -, sent, -⟩, rfl⟩ := answered
      exact Accounted.sendsAll sent rfl inv
  | changeMessageVisibility =>
      cases answered
      exact ⟨inv, Grows.refl w⟩
  | getParameter => exact inv.elsewhere (answered.1 ▸ rfl) (answered.1 ▸ rfl)
  | getParameters =>
      cases answered
      exact ⟨inv, Grows.refl w⟩
  | putParameter => rcases answered.1 with rfl | rfl <;> exact inv.elsewhere rfl rfl
  | serverTime =>
      cases answered
      exact inv.elsewhere rfl rfl
  | queryAll =>
      cases reply with
      | error err =>
          cases answered
          exact ⟨inv, Grows.refl w⟩
      | ok rows =>
          obtain ⟨-, rfl⟩ := answered
          exact inv.elsewhere rfl rfl
  | utcNow =>
      cases answered
      exact ⟨inv, Grows.refl w⟩
  | timeNow =>
      cases answered
      exact ⟨inv, Grows.refl w⟩
  | remainingTime =>
      cases answered
      exact ⟨inv, Grows.refl w⟩
  | random => exact inv.elsewhere (answered.1 ▸ rfl) (answered.1 ▸ rfl)

/-- A program that only adds keeps every message accounted for. -/
theorem keeps_of_adds {α : Type} {program : Act α} (calls : Calls Adds program) :
    Keeps (system S rt) (fun _ _ => True) program w :=
  calls.keeps (fun _ _ guar => guar) fun _ _ _ _ _ inv adds answered => accounted_adds adds answered inv

variable {lag : Int} {name : String}

theorem moves_of_same (sends : w'.sqs.accepted = w.sqs.accepted) (clock : w'.serverTimes = w.serverTimes)
    (rows : w'.org = w.org) : Ingest.Moves lag w w' :=
  ⟨sends ▸ List.Subset.refl _, clock ▸ List.Subset.refl _, fun _ mem => .inl (rows ▸ mem)⟩

/-- No call shows a row that was not there. -/
theorem moves_answers {request : Request} {reply : request.Answer}
    (answered : S.Answers request w reply w') : Ingest.Moves lag w w' := by
  cases request with
  | transactWriteItems =>
      obtain ⟨erp, -, rfl⟩ := answered
      exact moves_of_same rfl rfl rfl
  | getItem => exact answered.1 ▸ Ingest.Moves.refl lag w
  | scan => exact answered.1 ▸ Ingest.Moves.refl lag w
  | receiveMessage =>
      obtain ⟨sqs, ⟨rfl, -⟩, rfl⟩ := answered
      exact Ingest.Moves.refl lag w
  | sendMessage =>
      obtain ⟨sqs, ⟨sent, -⟩, rfl⟩ := answered
      rcases sent with rfl | ⟨m, -, -, -, rfl⟩
      · exact Ingest.Moves.refl lag w
      · exact ⟨List.subset_append_left _ _, List.Subset.refl _, fun _ mem => .inl mem⟩
  | sendMessageBatch =>
      obtain ⟨sqs, ⟨stored, -, sent, -⟩, rfl⟩ := answered
      obtain ⟨ms, accepted, -⟩ := sent.accepted
      refine ⟨?_, List.Subset.refl _, fun _ mem => .inl mem⟩
      rw [accepted]
      exact List.subset_append_left _ _
  | deleteMessage =>
      obtain ⟨sqs, deleted, rfl⟩ := answered
      exact moves_of_same (DeletesBatch.cons deleted .nil).shrinks.1 rfl rfl
  | deleteMessageBatch =>
      obtain ⟨sqs, deleted, rfl⟩ := answered
      exact moves_of_same deleted.shrinks.1 rfl rfl
  | changeMessageVisibility => cases answered; exact Ingest.Moves.refl lag _
  | getParameter => exact answered.1 ▸ Ingest.Moves.refl lag w
  | getParameters => cases answered; exact Ingest.Moves.refl lag _
  | putParameter => rcases answered.1 with rfl | rfl <;> exact moves_of_same rfl rfl rfl
  | serverTime =>
      cases answered
      refine ⟨List.Subset.refl _, ?_, fun _ mem => .inl mem⟩
      cases reply with
      | error err => exact List.Subset.refl _
      | ok now => exact List.subset_append_left _ _
  | queryAll =>
      cases reply with
      | error err => cases answered; exact Ingest.Moves.refl lag _
      | ok rows => obtain ⟨-, rfl⟩ := answered; exact moves_of_same rfl rfl rfl
  | utcNow => cases answered; exact Ingest.Moves.refl lag _
  | timeNow => cases answered; exact Ingest.Moves.refl lag _
  | remainingTime => cases answered; exact Ingest.Moves.refl lag _
  | random => exact answered.1 ▸ Ingest.Moves.refl lag w

/-- No call changes the deals. -/
theorem org_of_answers {request : Request} {reply : request.Answer}
    (answered : S.Answers request w reply w') : w'.org = w.org := by
  cases request with
  | transactWriteItems => obtain ⟨erp, -, rfl⟩ := answered; rfl
  | getItem => exact answered.1 ▸ rfl
  | scan => exact answered.1 ▸ rfl
  | receiveMessage => obtain ⟨sqs, -, rfl⟩ := answered; rfl
  | sendMessage => obtain ⟨sqs, -, rfl⟩ := answered; rfl
  | sendMessageBatch => obtain ⟨sqs, -, rfl⟩ := answered; rfl
  | deleteMessage => obtain ⟨sqs, -, rfl⟩ := answered; rfl
  | deleteMessageBatch => obtain ⟨sqs, -, rfl⟩ := answered; rfl
  | changeMessageVisibility => cases answered; rfl
  | getParameter => exact answered.1 ▸ rfl
  | getParameters => cases answered; rfl
  | putParameter => rcases answered.1 with rfl | rfl <;> rfl
  | serverTime => cases answered; rfl
  | queryAll =>
      cases reply with
      | error err => cases answered; rfl
      | ok rows => obtain ⟨-, rfl⟩ := answered; rfl
  | utcNow => cases answered; rfl
  | timeNow => cases answered; rfl
  | remainingTime => cases answered; rfl
  | random => exact answered.1 ▸ rfl

/-- Only a write to a parameter changes it. -/
theorem parameter_spared {request : Request} (spares : Spares name request) {reply : request.Answer}
    (answered : S.Answers request w reply w') : w'.parameters name = w.parameters name := by
  cases request with
  | transactWriteItems => obtain ⟨erp, -, rfl⟩ := answered; rfl
  | getItem => exact answered.1 ▸ rfl
  | scan => exact answered.1 ▸ rfl
  | receiveMessage => obtain ⟨sqs, -, rfl⟩ := answered; rfl
  | sendMessage => obtain ⟨sqs, -, rfl⟩ := answered; rfl
  | sendMessageBatch => obtain ⟨sqs, -, rfl⟩ := answered; rfl
  | deleteMessage => obtain ⟨sqs, -, rfl⟩ := answered; rfl
  | deleteMessageBatch => obtain ⟨sqs, -, rfl⟩ := answered; rfl
  | changeMessageVisibility => cases answered; rfl
  | getParameter => exact answered.1 ▸ rfl
  | getParameters => cases answered; rfl
  | putParameter =>
      rcases answered.1 with rfl | rfl
      · rfl
      · exact Function.update_of_ne (Ne.symm spares) _ _
  | serverTime => cases answered; rfl
  | queryAll =>
      cases reply with
      | error err => cases answered; rfl
      | ok rows => obtain ⟨-, rfl⟩ := answered; rfl
  | utcNow => cases answered; rfl
  | timeNow => cases answered; rfl
  | remainingTime => cases answered; rfl
  | random => exact answered.1 ▸ rfl

/-- A program that leaves the watermark alone keeps it safe. -/
theorem keeps_of_spares {p : Ingest.Poller} {initial : Int} {α : Type} {program : Act α}
    (calls : Calls (Spares p.watermark.name) program) :
    Keeps (Ingest.polls S p initial) (fun _ _ => True) program w :=
  calls.keeps (fun _ _ guar => guar) fun _ _ _ _ _ inv spares answered =>
    have moved : Ingest.Moves p.lag _ _ := moves_answers answered
    ⟨Ingest.inv_moves inv moved (parameter_spared spares answered), moved⟩

theorem Polls.adds {p : Ingest.Poller} {request : Request} (polls : Polls p request) : Adds request := by
  cases request <;> first | exact polls.elim | trivial

theorem Reconciles.adds {paramPrefix : String} {request : Request}
    (reconciles : Reconciles paramPrefix request) : Adds request := by
  cases request <;> first | exact reconciles.elim | trivial

theorem Reconciles.spares {paramPrefix : String} {request : Request}
    (reconciles : Reconciles paramPrefix request) (name : String) : Spares name request := by
  cases request <;> first | exact reconciles.elim | trivial

theorem Works.spares {paramPrefix : String} {request : Request} (works : Works paramPrefix request)
    (name : String) : Spares name request := by
  cases request <;> first | exact works.elim | trivial

theorem Operates.spares {request : Request} (operates : Operates request) (name : String) :
    Spares name request := by
  cases request <;> first | exact operates.elim | trivial

end Frames

/-! ### Every interleaving -/

/-- A world with every component in it. -/
def pipeline (S : Services) (rt : Runtime) (p : Ingest.Poller) (initial : Int) :
    Contract World Request.Answer := (Ingest.polls S p initial).both (system S rt)

/-- The programs that may be started: every component but `ack`, which is told what to drop. -/
inductive Syncs (rt : Runtime) (p : Ingest.Poller) : Component → Act Unit → Prop where
  | poll : Syncs rt p .poller (p.run >>= fun _ => pure ())
  | reconcile (settings : Reconciler.Settings) (fuel : Nat) (event : Reconciler.Invocation) :
      Syncs rt p .reconciler (Reconciler.handler rt settings fuel event >>= fun _ => pure ())
  | cycle (settings : Settings) : Syncs rt p .worker (cycle rt settings)
  | redrive (fuel : Nat) (all dryRun : Bool) :
      Syncs rt p .operator (redrive fuel all dryRun >>= fun _ => pure ())

/-- What happens around the programs: someone else sends to the main queue, SQS moves a message
to the DLQ, and deals change as the lag allows. -/
inductive Outside (p : Ingest.Poller) : World → World → Prop where
  | produce {w : World} {body : String} {attributes : List (String × String)}
      {sqs : Sqs.State Queue} : Sent .main body attributes w.sqs sqs → Outside p w { w with sqs := sqs }
  | park {w : World} {m : Message} : m ∈ w.sqs.queue .main →
      Outside p w { w with sqs := w.sqs.move .main .deadLetters m }
  | elsewhere {w w' : World} : w'.erp = w.erp → w'.sqs = w.sqs → Ingest.Moves p.lag w w' →
      w'.parameters p.watermark.name = w.parameters p.watermark.name → Outside p w w'

section Pipeline

variable {S : Services} {rt : Runtime} {p : Ingest.Poller} {initial : Int}

theorem pipeline_outside {w w' : World} (inv : (pipeline S rt p initial).inv w)
    (outside : Outside p w w') :
    (pipeline S rt p initial).inv w' ∧ (pipeline S rt p initial).rely w w' := by
  have joint : ∀ {w' : World}, Around w w' → Ingest.Moves p.lag w w' →
      w'.parameters p.watermark.name = w.parameters p.watermark.name →
      (pipeline S rt p initial).inv w' ∧ (pipeline S rt p initial).rely w w' := by
    intro w' around moved same
    obtain ⟨accounted, grows⟩ := around_keeps inv.2 around
    exact ⟨⟨Ingest.inv_moves inv.1 moved same, accounted⟩, moved, grows⟩
  cases outside with
  | produce sent =>
      obtain ⟨m, -, -, -, same⟩ := id sent
      refine joint (.produce sent) ⟨?_, List.Subset.refl _, fun _ mem => .inl mem⟩ rfl
      rw [same]
      exact List.subset_append_left _ _
  | park here => exact joint (.park here) (moves_of_same rfl rfl rfl) rfl
  | elsewhere sameErp sameSqs moved same => exact joint (.elsewhere sameErp sameSqs) moved same

/-- Every program keeps the messages accounted for. -/
theorem system_syncs {w : World} {component : Component} {program : Act Unit}
    (starts : Syncs rt p component program) (inv : Accounted rt w) :
    Keeps (system S rt) (fun _ _ => True) program w := by
  cases starts with
  | poll => exact keeps_of_adds ((polls_run.bind fun _ => .ret _).mono fun _ polls => polls.adds)
  | reconcile settings fuel event =>
      exact keeps_of_adds (((reconciles_handler rt settings fuel event).bind fun _ => .ret _).mono
        fun _ reconciles => reconciles.adds)
  | cycle settings => exact cycle_keeps settings w
  | redrive fuel all dryRun =>
      exact system_sequence inv (redrive_keeps fuel all dryRun inv) fun _ _ _ _ _ => trivial

/-- Every program keeps the watermark safe. -/
theorem polls_syncs {w : World} {component : Component} {program : Act Unit}
    (starts : Syncs rt p component program) (inv : (Ingest.polls S p initial).inv w) :
    Keeps (Ingest.polls S p initial) (fun _ _ => True) program w := by
  cases starts with
  | poll => exact Ingest.polls_sequence inv (Ingest.run_keeps w inv) fun _ _ _ _ _ => trivial
  | reconcile settings fuel event =>
      exact keeps_of_spares (((reconciles_handler rt settings fuel event).bind fun _ => .ret _).mono
        fun _ reconciles => reconciles.spares _)
  | cycle settings => exact keeps_of_spares ((works_cycle rt).mono fun _ works => works.spares _)
  | redrive fuel all dryRun =>
      exact keeps_of_spares (((operates_redrive fuel all dryRun).bind fun _ => .ret _).mono
        fun _ operates => operates.spares _)

theorem pipeline_syncs {w : World} {component : Component} {program : Act Unit}
    (starts : Syncs rt p component program) (inv : (pipeline S rt p initial).inv w) :
    Keeps (pipeline S rt p initial) (fun _ _ => True) program w :=
  (Keeps.both (C := Ingest.polls S p initial) (D := system S rt) rfl (polls_syncs starts inv.1)
    (system_syncs starts inv.2)).mono (fun _ _ _ _ => trivial) inv

theorem pipeline_start {w : World} (noRows : w.erp = Dynamo.State.empty)
    (noMessages : w.sqs = Sqs.State.empty) (start : p.watermark.stored w = some initial) :
    (pipeline S rt p initial).inv w := by
  refine ⟨fun t stored => ?_, accounted_start noRows noMessages⟩
  cases start.symm.trans stored
  exact Ingest.safe_initial p.lag initial w

theorem pipeline_reaches {w : World} {s : Pool World Component Request.Answer Unit}
    (start : (pipeline S rt p initial).inv w)
    (reached : Pool.Reaches S.Answers (Outside p) (Syncs rt p) (Pool.idle w) s) :
    (pipeline S rt p initial).inv s.world := by
  have sound : Pool.Sound (pipeline S rt p initial) (fun _ _ _ => True) s :=
    (Pool.sound_idle start).reaches (fun _ _ _ _ _ _ _ => trivial)
      (fun _ _ inv outside => pipeline_outside inv outside) (fun _ _ guar => guar)
      (fun _ _ _ starts inv => pipeline_syncs starts inv) reached
  exact sound.inv

/-- What the worker applied of the poller's event is the deal's order at its stamp. -/
theorem storedFrom_of_applied (deep : 2 ≤ rt.depth) {erp : Dynamo.State Table} {d : Deal}
    {ev : Ingest.Event} (event : Ingest.IsEventOf d ev) (applied : Applied rt erp (Events.marshal ev)) :
    StoredFrom erp d.id d.systemModstamp := by
  obtain ⟨order, read, stored⟩ := applied
  obtain ⟨publishedAt, body⟩ := Events.orderOf_marshal deep event
  rw [body] at read
  cases amount : parseAmount d.row.amount with
  | error exc =>
      rw [amount] at read
      cases read
  | ok amount' =>
      rw [amount] at read
      have mapped := mapped_of_toOrder read
      have id : order.orderId = d.id := mapped.id.1
      rwa [id, mapped.version.1] at stored

/-- The newest state of the deal is on its way, in a message on a queue, or it arrived: the ERP
stores its order at its stamp or a newer one. -/
def Conveyed (w : World) (d : Deal) : Prop :=
  (∃ ev, Ingest.IsEventOf d ev ∧ ∃ q, ∃ m ∈ w.sqs.queue q, m.body = Events.marshal ev) ∨
    StoredFrom w.erp d.id d.systemModstamp

theorem conveyed_of_pipeline (deep : 2 ≤ rt.depth) {w : World} (inv : (pipeline S rt p initial).inv w)
    {t : Int} (stored : p.watermark.stored w = some t) {d : Deal} (here : d ∈ w.org)
    (won : d.isWon = true) (low : initial ≤ d.stamp) (high : d.stamp < t) : Conveyed w d := by
  obtain ⟨ev, event, m, sent, carries⟩ := (inv.1 t stored).covered d here won low high
  rcases inv.2.body ⟨_, sent⟩ with ⟨q, m', queued, same⟩ | applied
  · exact .inl ⟨ev, event, q, m', queued, same.trans carries.1⟩
  · rw [carries.1] at applied
    exact .inr (storedFrom_of_applied deep event applied)

end Pipeline

/-- In every state reached, every deal that is won now and stamped between the watermark of the
start and the stored one is on its way to the ERP, or in it. -/
theorem no_deal_lost {S : Services} {rt : Runtime} {p : Ingest.Poller} {w : World} {initial : Int}
    {s : Pool World Component Request.Answer Unit} (deep : 2 ≤ rt.depth)
    (noRows : w.erp = Dynamo.State.empty) (noMessages : w.sqs = Sqs.State.empty)
    (start : p.watermark.stored w = some initial)
    (reached : Pool.Reaches S.Answers (Outside p) (Syncs rt p) (Pool.idle w) s) {t : Int}
    (stored : p.watermark.stored s.world = some t) {d : Deal} (here : d ∈ s.world.org)
    (won : d.isWon = true) (low : initial ≤ d.stamp) (high : d.stamp < t) :
    Conveyed s.world d := by
  have inv := pipeline_reaches (pipeline_start noRows noMessages start) reached
  exact conveyed_of_pipeline deep inv stored here won low high

/-! ### One deal, from end to end -/

/-- A worker that receives the only message writes its order and empties the queue. -/
theorem emptied_exec {S : Services} {rt : Runtime} {env : World → World → Prop} (settings : Settings)
    {w : World} {m : Message} {order : Order} (noRows : w.erp = Dynamo.State.empty)
    (only : w.sqs = Sqs.State.empty.push .main m) (read : orderOf rt m.body = .ok order) :
    ∃ w' now, Exec S.Answers env (cycle rt settings) w () w' ∧ w'.org = w.org ∧
      w'.parameters = w.parameters ∧ w'.reads = w.reads ∧ (∀ q, w'.sqs.queue q = []) ∧
      Dynamo.Committed (transaction order now) Dynamo.State.empty w'.erp := by
  obtain ⟨erp, committed⟩ := committed_empty order (isoformat 0)
  obtain ⟨received, handed⟩ : ∃ received : Received, received = ⟨m, ⟨m.messageId, 0⟩, none⟩ :=
    ⟨_, rfl⟩
  have queued : m ∈ w.sqs.queue .main := by
    rw [only]
    exact mem_push.mpr (.inr ⟨rfl, rfl⟩)
  have got : S.Answers (.receiveMessage .main batchSize) w (.ok [received]) w := by
    refine ⟨w.sqs, ⟨rfl, ?_⟩, rfl⟩
    rintro batch ⟨⟩
    refine ⟨by simp, fun r mem => ?_⟩
    obtain rfl := List.mem_singleton.mp mem
    rw [handed]
    exact ⟨queued, rfl⟩
  have body : orderOf rt (toRecord received).body = .ok order := by
    rw [handed]
    exact read
  have invoked : Exec S.Answers env (invoke rt settings [toRecord received]) w (some [])
      { w with erp := erp } := invoke_exec settings (handleRecord_exec settings noRows body committed)
  have deleted : S.Answers (.deleteMessageBatch .main [received.receiptHandle]) { w with erp := erp }
      (.ok ()) { w with erp := erp, sqs := w.sqs.remove .main m.messageId } := by
    refine ⟨w.sqs.remove .main m.messageId, .cons (.inr ?_) .nil, rfl⟩
    rw [handed]
  refine ⟨{ w with erp := erp, sqs := w.sqs.remove .main m.messageId }, _, ?_, rfl, rfl, rfl,
    fun q => ?_, committed⟩
  · unfold cycle
    refine .call .refl got (invoked.bind ?_)
    have kept : [received].filter (fun m => m.message.messageId ∉ ([] : List String)) = [received] := rfl
    dsimp only
    rw [kept]
    exact .call .refl deleted .ret
  · refine List.eq_nil_iff_forall_not_mem.mpr fun m' mem => ?_
    obtain ⟨before, other⟩ := mem_remove.mp mem
    rw [only] at before
    rcases mem_push.mp before with none_ | ⟨rfl, rfl⟩
    · cases none_
    · exact other rfl rfl

/-- A deal that is polled and written once arrived. -/
theorem no_deal_lost_renewal : ∃ w : World, renewalFor 5000 ∈ w.org ∧ (∀ q, w.sqs.queue q = []) ∧
    Conveyed w (renewalFor 5000) := by
  obtain ⟨result, w₁, ev, m, polled, org, -, mark, noRows, sent, event, body⟩ :=
    @Ingest.oneDeal_exec ⟨fun _ => 0⟩ _ (Ingest.admits_answers _ _) (Outside Ingest.earlyPoller)
      (renewalFor 5000) rfl rfl
  obtain ⟨order, read, -⟩ := orderOf_renewalFor event
  obtain ⟨w₂, written, cycled, org₂, parameters, -, emptied, -⟩ := @emptied_exec ⟨fun _ => 0⟩
    ⟨fun _ => true, 1000⟩ (Outside Ingest.earlyPoller) ⟨"/relay", 60, 900, 5000⟩ w₁ m order noRows sent
    (body ▸ read)
  have polls : Exec (Services.Answers ⟨fun _ => 0⟩) (Outside Ingest.earlyPoller)
      (Ingest.earlyPoller.run >>= fun _ => pure ()) _ () w₁ := polled.bind .ret
  have poll := Pool.reaches_exec (@Syncs.poll ⟨fun _ => true, 1000⟩ Ingest.earlyPoller) polls [] []
  have work := Pool.reaches_exec (@Syncs.cycle _ Ingest.earlyPoller _) cycled [] [(.poller, ())]
  have start : Ingest.earlyPoller.watermark.stored { World.empty with org := [renewalFor 5000] } = some 0 := rfl
  have here : renewalFor 5000 ∈ w₂.org := by
    rw [org₂, org]
    exact List.mem_singleton.mpr rfl
  have mark₂ : Ingest.earlyPoller.watermark.stored w₂ = some 10000000000 := by
    rw [← mark, Ingest.SSMWatermark.stored, Ingest.SSMWatermark.stored, parameters]
  refine ⟨w₂, here, emptied, ?_⟩
  exact no_deal_lost (by decide) rfl rfl start (poll.trans work) mark₂ here rfl (by decide) (by decide)

end Relay.Delivery
