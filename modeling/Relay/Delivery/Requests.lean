import Relay.Delivery.Origins

/-!
The requests of each program, exactly.

`Polls`, `Reconciles`, `Works` and `Operates` name every request that the program's
text can lead to, with the queue, table or parameter it goes to. What a program
leaves alone follows from them: a poll takes no message away and writes no table,
and nobody else writes the watermark.
-/

namespace Relay.Delivery

open Relay.Effect Relay.Platform Relay.Python Relay.Worker Relay.Relayctl Relay.Sqs

/-- The requests of a poll. -/
def Polls (p : Ingest.Poller) : Request → Prop
  | .getParameter name => name = p.watermark.name
  | .putParameter name _ => name = p.watermark.name
  | .sendMessageBatch q _ => q = .main
  | .serverTime => True
  | .queryAll _ => True
  | .timeNow => True
  | _ => False

/-- The requests of a reconciliation. -/
def Reconciles (paramPrefix : String) : Request → Prop
  | .getParameters names => names = Reconciler.parameterNames paramPrefix
  | .scan table _ => table = .orders
  | .sendMessageBatch q _ => q = .main
  | .queryAll _ => True
  | .utcNow => True
  | _ => False

/-- The names of the chaos flags' parameters. -/
def chaosNames (paramPrefix : String) : List String :=
  [paramPrefix ++ "/chaos/erp_fail_rate", paramPrefix ++ "/chaos/worker_crash_after"]

/-- The requests of an event source cycle. -/
def Works (paramPrefix : String) : Request → Prop
  | .receiveMessage q _ => q = .main
  | .deleteMessageBatch q _ => q = .main
  | .changeMessageVisibility q _ _ => q = .main
  | .sendMessage q _ _ => q = .deadLetters
  | .getParameters names => names = chaosNames paramPrefix
  | .transactWriteItems items => ∃ order now, items = Erp.transaction order now
  | .getItem table _ => table = .orders
  | .remainingTime => True
  | .random => True
  | .utcNow => True
  | _ => False

/-- The requests of an operator's command on the DLQ. -/
def Operates : Request → Prop
  | .receiveMessage q _ => q = .deadLetters
  | .sendMessage q _ _ => q = .main
  | .deleteMessage q _ => q = .deadLetters
  | .changeMessageVisibility q _ _ => q = .deadLetters
  | _ => False

/-! ### The poller -/

section Poller

open Ingest

variable {p : Poller}

theorem polls_set (t : Int) : Calls (Polls p) (p.watermark.set t) :=
  Calls.perform_bind rfl fun _ => .ret _

theorem polls_finish (from_ upper : Int) (evs : List Ingest.Event) (sent : Nat)
    (err : Option PublishError) : Calls (Polls p) (p.finish from_ upper evs sent err) := by
  unfold Poller.finish
  dsimp only
  split
  · split
    · apply (polls_set _).bind
      intro reply
      cases reply <;> exact .ret _
    · exact .ret _
  · apply (polls_set _).bind
    intro reply
    cases reply <;> exact .ret _

theorem polls_publishRows (from_ upper : Int) (rows : List (Salesforce.Opportunity Json.Token)) :
    Calls (Polls p) (p.publishRows from_ upper rows) := by
  apply (calls_buildEvents trivial rows).bind
  intro built
  cases built with
  | error err => exact .ret _
  | ok evs =>
      apply (calls_publishFrom _ (fun _ _ => rfl) _).bind
      rintro ⟨sent, err⟩
      dsimp only
      split
      · exact polls_finish _ _ _ _ _
      · exact .ret _

theorem polls_run : Calls (Polls p) p.run := by
  have got : Calls (Polls p) p.watermark.get := by
    refine Calls.perform_bind rfl fun reply => ?_
    rcases reply with (_ | message) | value <;> exact .ret _
  apply got.bind
  intro from_
  cases from_ with
  | error err => exact .ret _
  | ok from_ =>
      refine Calls.perform_bind trivial fun serverNow => ?_
      cases serverNow with
      | error err => exact .ret _
      | ok serverNow =>
          dsimp only
          split
          · exact .ret _
          · refine Calls.bind ?_ fun rows => ?_
            · apply Calls.perform_bind trivial
              intro reply
              cases reply <;> exact .ret _
            cases rows with
            | error err => exact .ret _
            | ok rows => exact polls_publishRows _ _ rows

end Poller

/-! ### The reconciler -/

section Reconciler

open Reconciler

variable {paramPrefix : String}

theorem reconciles_queryAll (soql : Salesforce.Soql) :
    Calls (Reconciles paramPrefix) (Reconciler.queryAll soql) := by
  apply Calls.perform_bind trivial
  intro reply
  cases reply <;> exact .ret _

theorem reconciles_scanPages (fuel : Nat) : ∀ (start : Option String) (versions : Versions),
    Calls (Reconciles paramPrefix) (scanPages fuel start versions) := by
  induction fuel with
  | zero => exact fun _ _ => .ret _
  | succ fuel ih =>
      intro start versions
      refine Calls.perform_bind rfl fun reply => ?_
      cases reply with
      | error fault => exact .ret _
      | ok page =>
          dsimp only
          split
          · exact .ret _
          · split
            · exact .ret _
            · exact ih _ _

theorem reconciles_lookupBatches (batches : List (List String)) :
    ∀ found : Found, Calls (Reconciles paramPrefix) (lookupBatches found batches) := by
  induction batches with
  | nil => exact fun _ => .ret _
  | cons ids rest ih =>
      intro found
      apply (reconciles_queryAll _).bind
      intro rows
      cases rows with
      | error exc => exact .ret _
      | ok rows =>
          dsimp only
          split
          · exact .ret _
          · exact ih _

theorem reconciles_compare (rt : Runtime) (wonDeals : List (Salesforce.Row PyNum)) (versions : Versions)
    (now grace : Int) : Calls (Reconciles paramPrefix)
      (Reconciler.compare rt wonDeals versions stageLookup now grace) := by
  unfold Reconciler.compare
  split
  · exact .ret _
  · split
    · exact .ret _
    · apply (reconciles_lookupBatches _ _).bind
      intro found
      cases found <;> exact .ret _

theorem reconciles_reconcile (rt : Runtime) (fuel : Nat) (now grace : Int) :
    Calls (Reconciles paramPrefix) (reconcile rt fuel now grace) := by
  apply (reconciles_queryAll _).bind
  intro records
  cases records with
  | error exc => exact .ret _
  | ok records =>
      apply (reconciles_scanPages _ _ _).bind
      intro versions
      rcases versions with _ | exc | versions
      · exact .ret _
      · exact .ret _
      · dsimp only
        split
        · exact .ret _
        · exact (reconciles_compare _ _ _ _ _).bind fun _ => .ret _

theorem reconciles_salesforce (rt : Runtime) (paramPrefix : String) :
    Calls (Reconciles paramPrefix) (Reconciler.salesforce rt paramPrefix) := by
  refine Calls.perform_bind rfl fun reply => ?_
  cases reply with
  | error err => exact .ret _
  | ok params =>
      dsimp only
      split <;> exact .ret _

theorem reconciles_handler (rt : Runtime) (settings : Reconciler.Settings) (fuel : Nat)
    (event : Invocation) :
    Calls (Reconciles settings.paramPrefix) (Reconciler.handler rt settings fuel event) := by
  apply (reconciles_salesforce rt settings.paramPrefix).bind
  intro client
  cases client with
  | error exc => exact .ret _
  | ok value =>
      refine Calls.perform_bind trivial fun now => ?_
      apply (reconciles_reconcile _ _ _ _).bind
      intro report
      rcases report with _ | exc | report
      · exact .ret _
      · exact .ret _
      · dsimp only
        split
        · exact .ret _
        · apply (calls_enqueueBatches (fun _ _ _ _ => rfl) _).bind
          intro enqueued
          cases enqueued <;> exact .ret _

end Reconciler

/-! ### The worker -/

section Worker

variable {settings : Settings}

theorem works_classify {paramPrefix : String} (printable : Char → Bool) (response : Dynamo.ErrorResponse)
    (order : Erp.Order) : Calls (Works paramPrefix) (Erp.classify printable response order) := by
  unfold Erp.classify
  split
  · split
    · split
      · split
        · exact .ret _
        · refine Calls.perform_bind rfl fun stored => ?_
          cases stored <;> exact .ret _
      · exact .ret _
    · exact .ret _
  · split
    · exact .ret _
    · split <;> exact .ret _

theorem works_process {paramPrefix : String} (rt : Runtime) (record : Record) (chaos : Chaos) :
    Calls (Works paramPrefix) (process rt record chaos) := by
  have unlucky : Calls (Works paramPrefix) chaos.maybeFailErp := by
    unfold Chaos.maybeFailErp
    split
    · exact Calls.perform_bind trivial fun _ => .ret _
    · exact .ret _
  unfold process
  split
  · exact .ret _
  · rename_i order _
    apply unlucky.bind
    intro passed
    cases passed with
    | error exc => exact .ret _
    | ok value =>
        refine Calls.perform_bind trivial fun now => Calls.perform_bind ⟨order, _, rfl⟩ fun reply => ?_
        rcases reply with (response | ⟨typeName, message⟩) | _
        · exact works_classify _ response order
        · exact .ret _
        · exact .ret _

/-- A record that came from the main queue. -/
theorem works_handleRecord (rt : Runtime) {record : Record} (source : record.eventSource = .main)
    (chaos : Chaos) : Calls (Works settings.paramPrefix) (handleRecord rt settings record chaos) := by
  apply (works_process rt record chaos).bind
  intro result
  cases result with
  | ok value => exact .ret _
  | error exc =>
      simp only [handleFailure]
      split
      · refine Calls.bind (Calls.perform_bind trivial fun now => Calls.perform_bind rfl fun reply => ?_)
          fun _ => .ret _
        cases reply <;> exact .ret _
      · have timed : ∀ attempt base cap,
            Calls (Works settings.paramPrefix) (nextVisibilityTimeout attempt base cap) := by
          intro attempt base cap
          unfold nextVisibilityTimeout
          split
          · exact .ret _
          · exact Calls.perform_bind trivial fun _ => .ret _
        apply (timed _ _ _).bind
        intro delay
        cases delay with
        | error exc => exact .ret _
        | ok delay =>
            refine Calls.bind (Calls.perform_bind ?_ fun _ => .ret _) fun _ => .ret _
            exact source

theorem works_handleRecords (rt : Runtime) (chaos : Chaos) {records : List Record}
    (source : ∀ record ∈ records, record.eventSource = .main) :
    ∀ (processed : Nat) (failures : List String), Calls (Works settings.paramPrefix)
      (handleRecords rt settings chaos processed failures records) := by
  induction records with
  | nil => exact fun _ _ => .ret _
  | cons record rest ih =>
      intro processed failures
      have timed : Calls (Works settings.paramPrefix) (outOfTime settings) := by
        apply Calls.perform_bind trivial
        intro remaining
        cases remaining <;> exact .ret _
      apply timed.bind
      intro late
      cases late with
      | true => exact .ret _
      | false =>
          apply (works_handleRecord rt (source record List.mem_cons_self) chaos).bind
          intro result
          cases result with
          | error exc => exact .ret _
          | ok outcome =>
              dsimp only
              split
              · exact .ret _
              · exact ih (fun record mem => source record (List.mem_cons_of_mem _ mem)) _ _

theorem works_cycle (rt : Runtime) : Calls (Works settings.paramPrefix) (cycle rt settings) := by
  refine Calls.perform_bind rfl fun reply => ?_
  rcases reply with err | _ | ⟨first, rest⟩
  · exact .ret _
  · exact .ret _
  · have source : ∀ record ∈ (first :: rest).map toRecord, record.eventSource = .main := by
      intro record mem
      obtain ⟨m, -, rfl⟩ := List.mem_map.mp mem
      rfl
    have handled : Calls (Works settings.paramPrefix) (handler rt settings ((first :: rest).map toRecord)) := by
      have loaded : Calls (Works settings.paramPrefix) (Chaos.load settings.paramPrefix) := by
        refine Calls.perform_bind rfl fun params => ?_
        cases params <;> exact .ret _
      apply loaded.bind
      intro chaos
      cases chaos with
      | error exc => exact .ret _
      | ok chaos => exact works_handleRecords rt chaos source 0 []
    apply (handled.bind fun _ => .ret _).bind
    intro failed
    cases failed with
    | none => exact .ret _
    | some failed =>
        dsimp only
        split
        · exact .ret _
        · exact Calls.perform_bind rfl fun _ => .ret _

end Worker

/-! ### The operator's commands -/

theorem operates_peekLoop (limit fuel : Nat) :
    ∀ (empty : Nat) (out : List DeadLetter), Calls Operates (peekLoop limit fuel empty out) := by
  induction fuel with
  | zero => exact fun _ _ => .ret _
  | succ fuel ih =>
      intro empty out
      unfold peekLoop
      split
      · refine Calls.perform_bind rfl fun reply => ?_
        rcases reply with err | _ | ⟨first, rest⟩
        · exact .ret _
        · exact ih _ _
        · exact ih _ _
      · exact .ret _

theorem operates_release (messages : List DeadLetter) : Calls Operates (release messages) := by
  induction messages with
  | nil => exact .ret _
  | cons m rest ih => exact Calls.perform_bind rfl fun _ => ih

theorem operates_redriveLoop (all dryRun : Bool) (messages : List DeadLetter) :
    ∀ (result : RedriveResult) (keep : List DeadLetter),
      Calls Operates (redriveLoop all dryRun result keep messages) := by
  induction messages with
  | nil => exact fun _ _ => (operates_release _).bind fun _ => .ret _
  | cons m rest ih =>
      intro result keep
      unfold redriveLoop
      split
      · exact ih _ _
      · split
        · exact ih _ _
        · refine Calls.perform_bind rfl fun reply => ?_
          cases reply with
          | error err => exact (operates_release _).bind fun _ => .ret _
          | ok value =>
              refine Calls.perform_bind rfl fun reply => ?_
              cases reply with
              | error err => exact (operates_release _).bind fun _ => .ret _
              | ok value => exact ih _ _

theorem operates_redrive (fuel : Nat) (all dryRun : Bool) : Calls Operates (redrive fuel all dryRun) := by
  apply (operates_peekLoop _ _ _ _).bind
  intro found
  rcases found with _ | ⟨msgs, _ | err⟩
  · exact .ret _
  · exact (operates_redriveLoop _ _ _ _ _).bind fun _ => .ret _
  · exact (operates_release _).bind fun _ => .ret _

end Relay.Delivery
