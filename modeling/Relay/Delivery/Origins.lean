import Relay.Delivery.EventSource
import Relay.Effect.Calls
import Relay.Effect.Pool
import Relay.Ingest.Sends
import Relay.Platform.World
import Relay.Reconciler.App
import Relay.Relayctl.Dlq

/-!
Where the messages of the DLQ come from.

`Watched` is the world with two records that no program reads: which component
every accepted message was sent by, and which messages SQS moved to the DLQ when
their receives had run out. Pollers, reconcilers, event source cycles and the
operator's commands run interleaved call by call; what each of them sends is a
property of its program text alone (`Calls`), and is all the invariant needs.
-/

namespace Relay.Delivery

open Relay.Effect Relay.Platform Relay.Python Relay.Worker Relay.Relayctl Relay.Sqs

inductive Component where
  | poller
  | reconciler
  | worker
  | operator
deriving DecidableEq, Repr

structure Watched where
  world : World
  sent : List (Component × Queue × Message)
  moved : List Message

/-- A call of a component, answered by the services. -/
def Watched.Answers (S : Services) (call : Component × Request) (w : Watched)
    (reply : call.2.Answer) (w' : Watched) : Prop :=
  S.Answers call.2 w.world reply w'.world ∧ w'.moved = w.moved ∧
    ∃ added, w'.world.sqs.accepted = w.world.sqs.accepted ++ added ∧
      w'.sent = w.sent ++ added.map fun entry => (call.1, entry)

/-- SQS moves a message to the DLQ, and whatever is not in SQS changes. -/
inductive Surroundings : Watched → Watched → Prop where
  | move {w : Watched} {m : Message} : m ∈ w.world.sqs.queue .main →
      Surroundings w
        ⟨{ w.world with sqs := w.world.sqs.move .main .deadLetters m }, w.sent, w.moved ++ [m]⟩
  | elsewhere {w : Watched} {world : World} : world.sqs = w.world.sqs →
      Surroundings w ⟨world, w.sent, w.moved⟩

/-- A program of a component, for what it does. -/
def launched {α : Type} (component : Component) (program : Act α) :
    Prog (fun call : Component × Request => call.2.Answer) Unit :=
  (program >>= fun _ => pure ()).tag component

/-- The programs that may be started. -/
inductive Launches (rt : Runtime) :
    Component → Prog (fun call : Component × Request => call.2.Answer) Unit → Prop where
  | poll (p : Ingest.Poller) : Launches rt .poller (launched .poller p.run)
  | reconcile (settings : Reconciler.Settings) (fuel : Nat) (event : Reconciler.Invocation) :
      Launches rt .reconciler (launched .reconciler (Reconciler.handler rt settings fuel event))
  | cycle (settings : Settings) : Launches rt .worker (launched .worker (cycle rt settings))
  | redrive (fuel : Nat) (all dryRun : Bool) :
      Launches rt .operator (launched .operator (redrive fuel all dryRun))
  | ack (fuel : Nat) (id : String) : Launches rt .operator (launched .operator (ack fuel id))

abbrev Watch := Pool Watched Component (fun call : Component × Request => call.2.Answer) Unit

/-- Every run from `w`. -/
abbrev Reached (S : Services) (rt : Runtime) (w : Watched) (s : Watch) : Prop :=
  Pool.Reaches (Watched.Answers S) Surroundings (Launches rt) (Pool.idle w) s

/-! ### What the components send -/

/-- A request may put a message with this body and these attributes on `q`. -/
inductive Puts : Request → Queue → String → List (String × String) → Prop where
  | message {q : Queue} {body : String} {attributes : List (String × String)} :
      Puts (.sendMessage q body attributes) q body attributes
  | batch {q : Queue} {entries : List Entry} {entry : Entry} : entry ∈ entries →
      Puts (.sendMessageBatch q entries) q entry.body entry.attributes

/-- What a component sends: the worker dead-letters the body of a record with a
reason, the others send to the main queue without one. -/
def Route : Component → Queue → String → List (String × String) → Prop
  | .worker, q, body, attributes => q = .deadLetters ∧ ∃ record reason detail key now,
      body = record.body ∧ attributes = deadLetterAttributes record reason detail key now
  | _, q, _, attributes => q = .main ∧ attributes.lookup "reason" = none

/-- Every message that a request may put somewhere is on its component's route. -/
def Routed (component : Component) (request : Request) : Prop :=
  ∀ q body attributes, Puts request q body attributes → Route component q body attributes

/-- A request that sends nothing. -/
def Silent : Request → Prop
  | .sendMessage _ _ _ => False
  | .sendMessageBatch _ _ => False
  | _ => True

theorem Silent.routed {request : Request} (silent : Silent request) (component : Component) :
    Routed component request := by
  intro q body attributes puts
  cases puts with
  | message => exact silent.elim
  | batch _ => exact silent.elim

variable {α : Type}

theorem routed_of_silent {program : Act α} (component : Component) (calls : Calls Silent program) :
    Calls (Routed component) program :=
  calls.mono fun _ silent => silent.routed component

/-- A request that neither sends a message nor writes to the tables. -/
def Harmless : Request → Prop
  | .transactWriteItems _ => False
  | request => Silent request

theorem Harmless.silent {request : Request} (harmless : Harmless request) : Silent request := by
  cases request <;> first | exact harmless.elim | exact harmless

theorem silent_of_harmless {program : Act α} (calls : Calls Harmless program) : Calls Silent program :=
  calls.mono fun _ harmless => harmless.silent

theorem routed_of_harmless {program : Act α} (component : Component) (calls : Calls Harmless program) :
    Calls (Routed component) program :=
  routed_of_silent component (silent_of_harmless calls)

/-! ### The worker -/

theorem calls_classify (printable : Char → Bool) (response : Dynamo.ErrorResponse) (order : Erp.Order) :
    Calls Harmless (Erp.classify printable response order) := by
  unfold Erp.classify
  split
  · split
    · split
      · split
        · exact .ret _
        · apply Calls.perform_bind trivial
          intro stored
          cases stored <;> exact .ret _
      · exact .ret _
    · exact .ret _
  · split
    · exact .ret _
    · split <;> exact .ret _

theorem calls_writeOrder (printable : Char → Bool) (order : Erp.Order) (now : String) :
    Calls Silent (Erp.writeOrder printable order now) := by
  apply Calls.perform_bind trivial
  intro reply
  rcases reply with (response | ⟨typeName, message⟩) | _
  · exact silent_of_harmless (calls_classify printable response order)
  · exact .ret _
  · exact .ret _

theorem calls_maybeFailErp (chaos : Chaos) : Calls Harmless chaos.maybeFailErp := by
  unfold Chaos.maybeFailErp
  split
  · exact Calls.perform_bind trivial fun _ => .ret _
  · exact .ret _

theorem calls_load (paramPrefix : String) : Calls Harmless (Chaos.load paramPrefix) := by
  apply Calls.perform_bind trivial
  intro params
  cases params <;> exact .ret _

theorem calls_process (rt : Runtime) (record : Record) (chaos : Chaos) :
    Calls Silent (process rt record chaos) := by
  unfold process
  split
  · exact .ret _
  · apply (silent_of_harmless (calls_maybeFailErp chaos)).bind
    intro passed
    cases passed with
    | error exc => exact .ret _
    | ok value => exact Calls.perform_bind trivial fun now => calls_writeOrder _ _ _

theorem calls_nextVisibilityTimeout (attempt : Int) (base cap : ℚ) :
    Calls Harmless (nextVisibilityTimeout attempt base cap) := by
  unfold nextVisibilityTimeout
  split
  · exact .ret _
  · exact Calls.perform_bind trivial fun _ => .ret _

theorem calls_deadLetter (record : Record) (reason detail key : String) :
    Calls (Routed .worker) (deadLetter record reason detail key) := by
  refine Calls.perform_bind (Silent.routed ?_ _) fun now => ?_
  · trivial
  refine Calls.perform_bind ?_ fun reply => ?_
  · rintro q body attributes ⟨⟩
    exact ⟨rfl, record, reason, detail, key, now, rfl, rfl⟩
  · cases reply <;> exact .ret _

theorem calls_delayRedelivery (record : Record) (seconds : Int) :
    Calls Harmless (delayRedelivery record seconds) :=
  Calls.perform_bind trivial fun _ => .ret _

theorem calls_handleRecord (rt : Runtime) (settings : Settings) (record : Record) (chaos : Chaos) :
    Calls (Routed .worker) (handleRecord rt settings record chaos) := by
  apply (routed_of_silent .worker (calls_process rt record chaos)).bind
  intro result
  cases result with
  | ok value => exact .ret _
  | error exc =>
      simp only [handleFailure]
      split
      · exact (calls_deadLetter _ _ _ _).bind fun _ => .ret _
      · apply (routed_of_harmless .worker (calls_nextVisibilityTimeout _ _ _)).bind
        intro delay
        cases delay with
        | error exc => exact .ret _
        | ok delay =>
            exact (routed_of_harmless .worker (calls_delayRedelivery _ _)).bind fun _ => .ret _

theorem calls_outOfTime (settings : Settings) : Calls Harmless (outOfTime settings) := by
  apply Calls.perform_bind trivial
  intro remaining
  cases remaining <;> exact .ret _

section Batch

variable {allowed : Request → Prop} {rt : Runtime} {settings : Settings} {records : List Record}

/-- The batch loop calls what its records call, and the clock. -/
theorem calls_handleRecords {chaos : Chaos} (harmless : ∀ request, Harmless request → allowed request)
    (each : ∀ record ∈ records, Calls allowed (handleRecord rt settings record chaos)) :
    ∀ (processed : Nat) (failures : List String),
      Calls allowed (handleRecords rt settings chaos processed failures records) := by
  induction records with
  | nil => exact fun _ _ => .ret _
  | cons record rest ih =>
      intro processed failures
      apply ((calls_outOfTime settings).mono harmless).bind
      intro late
      cases late with
      | true => exact .ret _
      | false =>
          apply (each record List.mem_cons_self).bind
          intro result
          cases result with
          | error exc => exact .ret _
          | ok outcome =>
              dsimp only
              split
              · exact .ret _
              · exact ih (fun record mem => each record (List.mem_cons_of_mem _ mem)) _ _

theorem calls_invoke (harmless : ∀ request, Harmless request → allowed request)
    (each : ∀ chaos, ∀ record ∈ records, Calls allowed (handleRecord rt settings record chaos)) :
    Calls allowed (invoke rt settings records) := by
  refine Calls.bind (Calls.bind ((calls_load settings.paramPrefix).mono harmless) fun chaos => ?_)
    fun _ => .ret _
  cases chaos with
  | error exc => exact .ret _
  | ok chaos => exact calls_handleRecords harmless (each chaos) 0 []

end Batch

theorem calls_cycle (rt : Runtime) (settings : Settings) :
    Calls (Routed .worker) (cycle rt settings) := by
  refine Calls.perform_bind (Silent.routed ?_ _) fun reply => ?_
  · trivial
  rcases reply with err | _ | ⟨first, rest⟩
  · exact .ret _
  · exact .ret _
  · apply (calls_invoke (fun _ harmless => harmless.silent.routed .worker)
      fun chaos record _ => calls_handleRecord rt settings record chaos).bind
    intro failed
    cases failed with
    | none => exact .ret _
    | some failed =>
        dsimp only
        split
        · exact .ret _
        · refine Calls.perform_bind (Silent.routed ?_ _) fun reply => .ret _
          trivial

/-! ### The operator's commands -/

/-- A receive from the DLQ. -/
def Peeks : Request → Prop
  | .receiveMessage q _ => q = .deadLetters
  | _ => False

theorem Peeks.harmless {request : Request} (peeks : Peeks request) : Harmless request := by
  cases request <;> first | exact peeks.elim | trivial

theorem peeks_peekLoop (limit fuel : Nat) :
    ∀ (empty : Nat) (out : List DeadLetter), Calls Peeks (peekLoop limit fuel empty out) := by
  induction fuel with
  | zero => exact fun _ _ => .ret _
  | succ fuel ih =>
      intro empty out
      unfold peekLoop
      split
      · refine Calls.perform_bind rfl fun reply => ?_
        rcases reply with err | _ | ⟨first, rest⟩
        · exact .ret _
        · exact ih _ _
        · exact ih _ _
      · exact .ret _

theorem calls_peekLoop (limit fuel empty : Nat) (out : List DeadLetter) :
    Calls Harmless (peekLoop limit fuel empty out) :=
  (peeks_peekLoop limit fuel empty out).mono fun _ peeks => peeks.harmless

def Releases : Request → Prop
  | .changeMessageVisibility _ _ _ => True
  | _ => False

/-- What a redrive does with the messages that it holds. -/
def Disposes : Request → Prop
  | .sendMessage q _ attributes => q = .main ∧ attributes.lookup "reason" = none
  | .deleteMessage _ _ => True
  | .changeMessageVisibility _ _ _ => True
  | _ => False

theorem Releases.harmless {request : Request} (releases : Releases request) : Harmless request := by
  cases request <;> trivial

theorem Releases.disposes {request : Request} (releases : Releases request) : Disposes request := by
  cases request <;> trivial

theorem Disposes.routed {request : Request} (disposes : Disposes request) : Routed .operator request := by
  intro q body attributes puts
  cases puts with
  | message => exact disposes
  | batch _ => exact disposes.elim

theorem releases_release (messages : List DeadLetter) : Calls Releases (release messages) := by
  induction messages with
  | nil => exact .ret _
  | cons m rest ih => exact Calls.perform_bind trivial fun _ => ih

theorem calls_release (messages : List DeadLetter) : Calls Harmless (release messages) :=
  (releases_release messages).mono fun _ releases => releases.harmless

theorem reason_redriveAttributes (m : DeadLetter) : (redriveAttributes m).lookup "reason" = none := by
  unfold redriveAttributes
  split <;> simp [List.lookup_cons]

/-- The redrive loop sends the messages that it is given, deletes and releases. -/
theorem calls_redriveLoop_each {allowed : Request → Prop} (all dryRun : Bool)
    (releases : ∀ request, Releases request → allowed request)
    {messages : List DeadLetter} (deletes : ∀ m ∈ messages, allowed (.deleteMessage .deadLetters m.receipt))
    (sends : ∀ m ∈ messages, allowed (.sendMessage .main m.body (redriveAttributes m))) :
    ∀ (result : RedriveResult) (keep : List DeadLetter),
      Calls allowed (redriveLoop all dryRun result keep messages) := by
  have released := fun messages => (releases_release messages).mono releases
  induction messages with
  | nil => exact fun _ _ => (released _).bind fun _ => .ret _
  | cons m rest ih =>
      have others := ih (fun m mem => deletes m (List.mem_cons_of_mem _ mem))
        fun m mem => sends m (List.mem_cons_of_mem _ mem)
      intro result keep
      unfold redriveLoop
      split
      · exact others _ _
      · split
        · exact others _ _
        · refine Calls.perform_bind (sends m List.mem_cons_self) fun reply => ?_
          cases reply with
          | error err => exact (released _).bind fun _ => .ret _
          | ok value =>
              refine Calls.perform_bind (deletes m List.mem_cons_self) fun reply => ?_
              cases reply with
              | error err => exact (released _).bind fun _ => .ret _
              | ok value => exact others _ _

theorem disposes_redriveLoop (all dryRun : Bool) (messages : List DeadLetter)
    (result : RedriveResult) (keep : List DeadLetter) :
    Calls Disposes (redriveLoop all dryRun result keep messages) :=
  calls_redriveLoop_each all dryRun (fun _ releases => releases.disposes) (fun _ _ => trivial)
    (fun m _ => ⟨rfl, reason_redriveAttributes m⟩) result keep

theorem calls_redriveLoop (all dryRun : Bool) (messages : List DeadLetter) (result : RedriveResult)
    (keep : List DeadLetter) :
    Calls (Routed .operator) (redriveLoop all dryRun result keep messages) :=
  (disposes_redriveLoop all dryRun messages result keep).mono fun _ disposes => disposes.routed

theorem calls_redrive (fuel : Nat) (all dryRun : Bool) :
    Calls (Routed .operator) (redrive fuel all dryRun) := by
  apply (routed_of_harmless .operator (calls_peekLoop _ _ _ _)).bind
  intro found
  rcases found with _ | ⟨msgs, _ | err⟩
  · exact .ret _
  · exact (calls_redriveLoop _ _ _ _ _).bind fun _ => .ret _
  · exact (routed_of_harmless .operator (calls_release _)).bind fun _ => .ret _

theorem collect_holds {holds : DeadLetter → Prop} {messages : List Received}
    (each : ∀ m ∈ messages, holds (toDeadLetter m)) :
    ∀ {out : List DeadLetter}, (∀ d ∈ out, holds d) → ∀ d ∈ collect out messages, holds d := by
  induction messages with
  | nil => exact fun held => held
  | cons m rest ih =>
      intro out held
      have others := fun m' mem => each m' (List.mem_cons_of_mem _ mem)
      unfold collect
      split
      · exact ih others held
      · refine ih others fun d mem => ?_
        rcases List.mem_append.mp mem with mem | mem
        · exact held d mem
        · obtain rfl := List.mem_singleton.mp mem
          exact each m List.mem_cons_self

/-- What holds of every message when it is received, and from then on, holds of
every message that a peek returns. -/
theorem peekLoop_keeps {S : Services} {C : Contract World Request.Answer} (answers : C.answers = S.Answers)
    (guar_refl : ∀ w, C.guar w w) {holds : World → DeadLetter → Prop}
    (stays : ∀ w w' d, C.rely w w' → holds w d → holds w' d)
    (received : ∀ w m, C.inv w → m.message ∈ w.sqs.queue .deadLetters →
      m.receiptHandle.messageId = m.message.messageId → holds w (toDeadLetter m)) (limit : Nat) :
    ∀ (fuel empty : Nat) (out : List DeadLetter) (w : World), (∀ d ∈ out, holds w d) →
      Keeps C (fun result w => ∀ found, result = some found → ∀ d ∈ found.1, holds w d)
        (peekLoop limit fuel empty out) w := by
  intro fuel
  induction fuel with
  | zero => exact fun _ _ _ _ _ ended => nomatch ended
  | succ fuel ih =>
      intro empty out w held
      unfold peekLoop
      split
      · refine Keeps.perform_bind fun w₁ moved₁ inv₁ reply w₂ answered => ?_
        rw [answers] at answered
        obtain ⟨sqs, ⟨rfl, batch⟩, rfl⟩ := answered
        have held₁ := fun d mem => stays w w₁ d moved₁ (held d mem)
        refine ⟨inv₁, guar_refl w₁, ?_⟩
        rcases reply with err | _ | ⟨first, rest⟩
        · intro found ok
          obtain rfl := Option.some.inj ok
          exact held₁
        · exact ih (empty + 1) out w₁ held₁
        · refine ih empty _ w₁ (collect_holds (fun m mem => ?_) held₁)
          obtain ⟨queued, receipt⟩ := (batch _ rfl).2 m mem
          exact received w₁ m inv₁ queued receipt
      · intro found ok d mem
        obtain rfl := Option.some.inj ok
        exact held d ((List.mem_insertionSort _).mp mem)

theorem calls_ackLoop (id : String) (messages : List DeadLetter) :
    ∀ acked keep : List DeadLetter, Calls Harmless (ackLoop id acked keep messages) := by
  induction messages with
  | nil => exact fun _ _ => (calls_release _).bind fun _ => .ret _
  | cons m rest ih =>
      intro acked keep
      unfold ackLoop
      split
      · exact ih _ _
      · apply Calls.perform_bind trivial
        intro reply
        cases reply <;> exact ih _ _

theorem calls_ack (fuel : Nat) (id : String) : Calls Harmless (ack fuel id) := by
  apply (calls_peekLoop _ _ _ _).bind
  intro found
  rcases found with _ | ⟨msgs, _ | err⟩
  · exact .ret _
  · exact (calls_ackLoop _ _ _ _).bind fun _ => .ret _
  · exact (calls_release _).bind fun _ => .ret _

/-! ### The producers -/

section Poller

open Ingest

theorem routed_batch (chunk : List Ingest.Event) :
    Routed .poller (.sendMessageBatch .main (chunk.mapIdx Ingest.entry)) := by
  rintro q body attributes (_ | mem)
  obtain ⟨i, small, rfl⟩ := List.mem_mapIdx.mp mem
  exact ⟨rfl, rfl⟩

theorem calls_set (mark : SSMWatermark) (t : Int) : Calls Harmless (mark.set t) :=
  Calls.perform_bind trivial fun _ => .ret _

theorem calls_finish (p : Poller) (from_ upper : Int) (evs : List Ingest.Event) (sent : Nat)
    (err : Option PublishError) : Calls Harmless (p.finish from_ upper evs sent err) := by
  unfold Poller.finish
  dsimp only
  split
  · split
    · apply (calls_set _ _).bind
      intro reply
      cases reply <;> exact .ret _
    · exact .ret _
  · apply (calls_set _ _).bind
    intro reply
    cases reply <;> exact .ret _

theorem calls_get (mark : SSMWatermark) : Calls Harmless mark.get := by
  apply Calls.perform_bind trivial
  intro reply
  rcases reply with (_ | message) | value <;> exact .ret _

/-- A poll publishes batches of the events of its rows. -/
theorem calls_publishRows {allowed : Request → Prop} (p : Poller) (from_ upper : Int)
    (rows : List (Salesforce.Opportunity Json.Token))
    (harmless : ∀ request, Harmless request → allowed request)
    (each : ∀ evs, List.Forall₂ (fun o ev => ∃ t, Events.fromOpportunity o t = some ev) rows evs →
      ∀ chunk ⊆ evs, allowed (.sendMessageBatch .main (chunk.mapIdx Ingest.entry))) :
    Calls allowed (p.publishRows from_ upper rows) := by
  apply (calls_buildEvents (harmless .timeNow trivial) rows).bind_returns (returns_buildEvents rows)
  intro built events
  cases built with
  | error err => exact .ret _
  | ok evs =>
      apply (calls_publishFrom _ (fun chunk mem => each evs events chunk ?_) _).bind
      · rintro ⟨sent, err⟩
        dsimp only
        split
        · exact (calls_finish _ _ _ _ _ _).mono harmless
        · exact .ret _
      · exact fun ev here => (Data.mem_batches (by decide)).mp ⟨chunk, mem, here⟩

theorem calls_run (p : Poller) : Calls (Routed .poller) p.run := by
  apply (routed_of_harmless .poller (calls_get p.watermark)).bind
  intro from_
  cases from_ with
  | error err => exact .ret _
  | ok from_ =>
      refine Calls.perform_bind (Silent.routed ?_ _) fun serverNow => ?_
      · trivial
      cases serverNow with
      | error err => exact .ret _
      | ok serverNow =>
          dsimp only
          split
          · exact .ret _
          · refine Calls.bind (routed_of_silent .poller ?_) fun rows => ?_
            · apply Calls.perform_bind trivial
              intro reply
              cases reply <;> exact .ret _
            cases rows with
            | error err => exact .ret _
            | ok rows =>
                exact calls_publishRows p _ _ rows (fun _ harmless => harmless.silent.routed .poller)
                  fun _ _ chunk _ => routed_batch chunk

end Poller

section Reconciler

open Reconciler

theorem calls_queryAll (soql : Salesforce.Soql) : Calls Harmless (Reconciler.queryAll soql) := by
  apply Calls.perform_bind trivial
  intro reply
  cases reply <;> exact .ret _

theorem calls_scanPages (fuel : Nat) :
    ∀ (start : Option String) (versions : Versions), Calls Harmless (scanPages fuel start versions) := by
  induction fuel with
  | zero => exact fun _ _ => .ret _
  | succ fuel ih =>
      intro start versions
      apply Calls.perform_bind trivial
      intro reply
      cases reply with
      | error fault => exact .ret _
      | ok page =>
          dsimp only
          split
          · exact .ret _
          · split
            · exact .ret _
            · exact ih _ _

theorem calls_lookupBatches (batches : List (List String)) :
    ∀ found : Found, Calls Harmless (lookupBatches found batches) := by
  induction batches with
  | nil => exact fun _ => .ret _
  | cons ids rest ih =>
      intro found
      apply (calls_queryAll _).bind
      intro rows
      cases rows with
      | error exc => exact .ret _
      | ok rows =>
          dsimp only
          split
          · exact .ret _
          · exact ih _

theorem calls_compare (rt : Runtime) (wonDeals : List (Salesforce.Row PyNum)) (versions : Versions)
    (now grace : Int) : Calls Harmless (Reconciler.compare rt wonDeals versions stageLookup now grace) := by
  unfold Reconciler.compare
  split
  · exact .ret _
  · split
    · exact .ret _
    · apply (calls_lookupBatches _ _).bind
      intro found
      cases found <;> exact .ret _

theorem calls_reconcile (rt : Runtime) (fuel : Nat) (now grace : Int) :
    Calls Harmless (reconcile rt fuel now grace) := by
  apply (calls_queryAll _).bind
  intro records
  cases records with
  | error exc => exact .ret _
  | ok records =>
      apply (calls_scanPages _ _ _).bind
      intro versions
      rcases versions with _ | exc | versions
      · exact .ret _
      · exact .ret _
      · dsimp only
        split
        · exact .ret _
        · exact (calls_compare _ _ _ _ _).bind fun _ => .ret _

/-- The entries of a batch are those of its events. -/
theorem mem_entries {events : List (List (String × Obj))} {sent : List Entry} :
    ∀ {n : Nat}, entries n events = .ok sent → ∀ entry ∈ sent, ∃ event ∈ events,
      dumpsText (.obj event) = .ok entry.body ∧
      entry.attributes = [("event_key", Reconciler.eventKey event), ("source", "reconciler")] := by
  induction events generalizing sent with
  | nil =>
      intro n made entry mem
      cases made
      cases mem
  | cons event rest ih =>
      intro n made entry mem
      unfold entries at made
      split at made
      · cases made
      · rename_i body text
        cases others : entries (n + 1) rest with
        | error exc =>
            rw [others] at made
            cases made
        | ok more =>
            rw [others] at made
            cases made
            rcases List.mem_cons.mp mem with rfl | mem
            · exact ⟨event, List.mem_cons_self, text, rfl⟩
            · obtain ⟨event', here, dumped⟩ := ih others entry mem
              exact ⟨event', List.mem_cons_of_mem _ here, dumped⟩

/-- The reconciler sends the batches of the events that it is given. -/
theorem calls_enqueueBatches {allowed : Request → Prop} {batches : List (List (List (String × Obj)))}
    (each : ∀ chunk ∈ batches, ∀ sent, entries 0 chunk = .ok sent → allowed (.sendMessageBatch .main sent)) :
    ∀ enqueued : Nat, Calls allowed (enqueueBatches enqueued batches) := by
  induction batches with
  | nil => exact fun _ => .ret _
  | cons chunk rest ih =>
      intro enqueued
      unfold enqueueBatches
      split
      · exact .ret _
      · rename_i sent made
        refine Calls.perform_bind (each chunk List.mem_cons_self sent made) fun reply => ?_
        cases reply with
        | error err => exact .ret _
        | ok out => exact ih (fun chunk mem => each chunk (List.mem_cons_of_mem _ mem)) _

theorem routed_entries {chunk : List (List (String × Obj))} {sent : List Entry}
    (made : entries 0 chunk = .ok sent) : Routed .reconciler (.sendMessageBatch .main sent) := by
  rintro q body attributes (_ | mem)
  obtain ⟨event, -, -, attributes⟩ := mem_entries made _ mem
  exact ⟨rfl, by rw [attributes]; rfl⟩

theorem calls_salesforce (rt : Runtime) (paramPrefix : String) :
    Calls Harmless (Reconciler.salesforce rt paramPrefix) := by
  apply Calls.perform_bind trivial
  intro reply
  cases reply with
  | error err => exact .ret _
  | ok params =>
      dsimp only
      split <;> exact .ret _

theorem calls_handler (rt : Runtime) (settings : Reconciler.Settings) (fuel : Nat) (event : Invocation) :
    Calls (Routed .reconciler) (Reconciler.handler rt settings fuel event) := by
  apply (routed_of_harmless .reconciler (calls_salesforce rt settings.paramPrefix)).bind
  intro client
  cases client with
  | error exc => exact .ret _
  | ok value =>
      refine Calls.perform_bind (Silent.routed ?_ _) fun now => ?_
      · trivial
      apply (routed_of_harmless .reconciler (calls_reconcile _ _ _ _)).bind
      intro report
      rcases report with _ | exc | report
      · exact .ret _
      · exact .ret _
      · dsimp only
        split
        · exact .ret _
        · apply (calls_enqueueBatches (fun _ _ _ made => routed_entries made) _).bind
          intro enqueued
          cases enqueued <;> exact .ret _

end Reconciler

/-- Every program sends what its component sends. -/
theorem Launches.routed {rt : Runtime} {component : Component}
    {program : Prog (fun call : Component × Request => call.2.Answer) Unit}
    (launches : Launches rt component program) : Calls (fun call => Routed call.1 call.2) program := by
  cases launches with
  | poll p => exact Calls.tag ((calls_run p).bind fun _ => .ret _)
  | reconcile settings fuel event => exact Calls.tag ((calls_handler rt settings fuel event).bind fun _ => .ret _)
  | cycle settings => exact Calls.tag ((calls_cycle rt settings).bind fun _ => .ret _)
  | redrive fuel all dryRun => exact Calls.tag ((calls_redrive fuel all dryRun).bind fun _ => .ret _)
  | ack fuel id =>
      exact Calls.tag ((routed_of_harmless .operator (calls_ack fuel id)).bind fun _ => .ret _)

end Relay.Delivery
