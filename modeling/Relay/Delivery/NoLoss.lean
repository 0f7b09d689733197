import Relay.Delivery.Accounting
import Relay.Delivery.Origins
import Relay.Worker.Unmappable

/-!
No message is lost between the main queue, the worker, the DLQ and redrive.

Any number of event source cycles and redrives run interleaved call by call, and
stop at any point, while producers send to the main queue and SQS moves messages
to the DLQ. Every one of their calls keeps `Accounted`: the worker lets Lambda
delete a message only once it is resolved (`handleRecord_keeps`), and a redrive
deletes one only after its copy was accepted (`redriveLoop_keeps`).
-/

namespace Relay.Delivery

open Relay.Effect Relay.Platform Relay.Python Relay.Erp Relay.Worker Relay.Relayctl Relay.Sqs

/-- A world with cycles and redrives in it. -/
def system (S : Services) (rt : Runtime) : Contract World Request.Answer where
  answers := S.Answers
  inv := Accounted rt
  rely := Grows
  guar := Grows
  rely_refl := Grows.refl
  rely_trans := Grows.trans

theorem system_hosts (S : Services) (rt : Runtime) : Hosts S (system S rt) fun _ => True where
  answers := rfl
  kept := fun _ inv => inv.kept
  extends_ := fun _ _ moved => moved.writes
  guar_refl := fun w _ => Grows.refl w
  takes := fun _ _ _ _ _ inv committed =>
    ⟨inv.written (extends_of_committed committed), extends_of_committed committed, List.prefix_rfl⟩

section Programs

variable {S : Services} {rt : Runtime} {α β : Type} {w : World}

theorem system_sequence {first : β → World → Prop} {post : α → World → Prop}
    {program : Act β} {next : β → Act α} (holds : Accounted rt w)
    (start : Keeps (system S rt) first program w)
    (rest : ∀ value w₁, Accounted rt w₁ → Grows w w₁ → first value w₁ →
      Keeps (system S rt) post (next value) w₁) :
    Keeps (system S rt) post (program >>= next) w :=
  Keeps.sequence (C := system S rt) (fun _ _ guar => guar) holds start rest

/-- A call that leaves the world as it found it. -/
theorem system_observe {request : Request} {next : request.Answer → Act α}
    {post : α → World → Prop}
    (reads : ∀ w₁ answer w₂, S.Answers request w₁ answer w₂ → w₂ = w₁)
    (step : ∀ w₁, Grows w w₁ → Accounted rt w₁ → ∀ answer, S.Answers request w₁ answer w₁ →
      Keeps (system S rt) post (next answer) w₁) :
    Keeps (system S rt) post (Prog.perform request >>= next) w :=
  Keeps.observe (C := system S rt) reads Grows.refl step

/-! ### The worker -/

/-- A message copied to the DLQ is resent. -/
theorem deadLetter_keeps {record : Record} {reason detail eventKey : String} {m : Message}
    (same : record.body = m.body) (accepted : Accepted w m) :
    Keeps (system S rt) (fun parked w => parked = true → Resent w.sqs.accepted m)
      (deadLetter record reason detail eventKey) w := by
  refine system_observe (fun _ _ _ answered => answered) fun w₁ moved₁ _ now _ => ?_
  refine Keeps.perform_bind fun w₂ moved₂ inv₂ reply w₃ answered => ?_
  obtain ⟨sqs, sent, rfl⟩ := answered
  obtain ⟨inv₃, moved₃⟩ := inv₂.sends sent
  refine ⟨inv₃, moved₃, ?_⟩
  cases reply with
  | error err => exact fun parked => nomatch parked
  | ok value =>
      rw [same] at sent
      exact fun _ => resent_of_sends ((accepted.grows moved₁).grows moved₂) sent

theorem delayRedelivery_keeps {record : Record} {seconds : Int} :
    Keeps (system S rt) (fun _ _ => True) (delayRedelivery record seconds) w :=
  system_observe (fun _ _ _ answered => answered) fun _ _ _ _ _ => trivial

theorem maybeFailErp_keeps (chaos : Chaos) :
    Keeps (system S rt) (fun _ _ => True) chaos.maybeFailErp w := by
  unfold Chaos.maybeFailErp
  split
  · exact system_observe (fun _ _ _ answered => answered.1) fun _ _ _ _ _ => trivial
  · trivial

theorem nextVisibilityTimeout_keeps (attempt : Int) (base cap : ℚ) :
    Keeps (system S rt) (fun _ _ => True) (nextVisibilityTimeout attempt base cap) w := by
  unfold nextVisibilityTimeout
  split
  · trivial
  · exact system_observe (fun _ _ _ answered => answered.1) fun _ _ _ _ _ => trivial

/-- A record processed without an exception is applied. -/
theorem process_keeps {record : Record} (chaos : Chaos) (inv : Accounted rt w) :
    Keeps (system S rt) (fun result w => ∀ value, result = .ok value → Applied rt w.erp record.body)
      (process rt record chaos) w := by
  unfold process
  cases maps : orderOf rt record.body with
  | error exc => exact fun _ ok => nomatch ok
  | ok order =>
      refine system_sequence inv (maybeFailErp_keeps chaos) fun passed w₁ inv₁ _ _ => ?_
      cases passed with
      | error exc => exact fun _ ok => nomatch ok
      | ok value =>
          refine system_observe (fun _ _ _ answered => answered) fun w₂ _ inv₂ now _ => ?_
          refine Keeps.mono (fun result w₃ _ settled value ok => ?_) inv₂
            (writeOrder_keeps (system_hosts S rt) trivial (isoformat now) w₂)
          exact ⟨order, maps, settled value ok⟩

/-- What a record's outcome says of its message: it is resolved, unless SQS
is to deliver it again. -/
def Handled (rt : Runtime) (m : Message) (result : Except Exn Outcome) (w : World) : Prop :=
  ∀ outcome, result = .ok outcome → outcome.isRetry = false → Resolved rt w m

theorem handled_error {m : Message} {exc : Exn} : Handled rt m (.error exc) w :=
  fun _ ok => nomatch ok

theorem handled_retry {m : Message} {outcome : Outcome} (retry : outcome.isRetry = true) :
    Handled rt m (.ok outcome) w := by
  intro outcome' ok done
  obtain rfl := Except.ok.inj ok
  rw [retry] at done
  cases done

theorem handleFailure_keeps {settings : Settings} {record : Record} {exc : Exn} {m : Message}
    (same : record.body = m.body) (inv : Accounted rt w) (accepted : Accepted w m) :
    Keeps (system S rt) (Handled rt m) (handleFailure settings record exc) w := by
  unfold handleFailure
  split
  · refine system_sequence inv (deadLetter_keeps same accepted) fun parked w₁ _ _ resent => ?_
    cases parked with
    | true =>
        intro outcome _ _
        exact .inr (resent rfl)
    | false => exact handled_retry rfl
  · refine system_sequence inv (nextVisibilityTimeout_keeps _ _ _) fun delay w₁ inv₁ _ _ => ?_
    cases delay with
    | error exc => exact handled_error
    | ok delay =>
        exact system_sequence inv₁ delayRedelivery_keeps fun _ _ _ _ _ => handled_retry rfl

theorem handleRecord_keeps {settings : Settings} {record : Record} {chaos : Chaos} {m : Message}
    (same : record.body = m.body) (inv : Accounted rt w) (accepted : Accepted w m) :
    Keeps (system S rt) (Handled rt m) (handleRecord rt settings record chaos) w := by
  refine system_sequence inv (process_keeps chaos inv) fun result w₁ inv₁ moved₁ applied => ?_
  cases result with
  | ok value =>
      intro outcome _ _
      rw [same] at applied
      exact .inl (applied value rfl)
  | error exc => exact handleFailure_keeps same inv₁ (accepted.grows moved₁)

theorem outOfTime_keeps {settings : Settings} :
    Keeps (system S rt) (fun _ _ => True) (outOfTime settings) w := by
  refine system_observe (fun _ _ _ answered => answered) fun w₁ _ _ remaining _ => ?_
  cases remaining <;> trivial

/-- What a response says of a batch: the messages it does not report as failed
are resolved. -/
def Reported (rt : Runtime) (messages : List Received) (failed : List String) (w : World) : Prop :=
  ∀ m ∈ messages, m.message.messageId ∉ failed → Resolved rt w m.message

theorem handleRecords_keeps {settings : Settings} {chaos : Chaos} :
    ∀ (messages : List Received) (processed : Nat) (failures : List String) (w : World),
      Accounted rt w → (∀ m ∈ messages, Accepted w m.message) →
      Keeps (system S rt) (fun result w => ∀ failed, result = .ok failed →
          failures ⊆ failed ∧ Reported rt messages failed w)
        (handleRecords rt settings chaos processed failures (messages.map toRecord)) w := by
  intro messages
  induction messages with
  | nil =>
      intro processed failures w _ _ failed ok
      obtain rfl := Except.ok.inj ok
      exact ⟨List.Subset.refl _, fun _ mem => nomatch mem⟩
  | cons m rest ih =>
      intro processed failures w inv accepted
      refine system_sequence inv outOfTime_keeps fun late w₁ inv₁ moved₁ _ => ?_
      cases late with
      | true =>
          -- This record and all after it are reported failed.
          intro failed ok
          obtain rfl := Except.ok.inj ok
          refine ⟨List.subset_append_left _ _, fun m' mem listed => absurd ?_ listed⟩
          exact List.mem_append_right _
            (List.mem_map.mpr ⟨toRecord m', List.mem_map_of_mem mem, rfl⟩)
      | false =>
          have accepted₁ := (accepted m List.mem_cons_self).grows moved₁
          refine system_sequence inv₁ (handleRecord_keeps rfl inv₁ accepted₁)
            fun result w₂ inv₂ moved₂ handled => ?_
          cases result with
          | error exc => exact fun _ ok => nomatch ok
          | ok outcome =>
              cases crash : chaos.maybeCrash (processed + 1) with
              | error exc =>
                  simp only
                  exact fun _ ok => nomatch ok
              | ok value =>
                  simp only
                  have others := fun m' mem => ((accepted m' (List.mem_cons_of_mem _ mem)).grows
                    moved₁).grows moved₂
                  refine Keeps.mono (fun result w₃ inv₃ ends failed ok => ?_) inv₂
                    (Keeps.moved (fun _ _ guar => guar) (ih (processed + 1) _ w₂ inv₂ others))
                  obtain ⟨reported, moved₃⟩ := ends
                  obtain ⟨listed, later⟩ := reported failed ok
                  refine ⟨?_, fun m' mem unlisted => ?_⟩
                  · split at listed
                    · exact fun id mem => listed (List.mem_append_left _ mem)
                    · exact listed
                  · rcases List.mem_cons.mp mem with rfl | mem
                    · cases retry : outcome.isRetry with
                      | true =>
                          rw [if_pos retry] at listed
                          exact absurd (listed (List.mem_append_right _ List.mem_cons_self)) unlisted
                      | false =>
                          exact (handled outcome rfl retry).grows inv₂.kept moved₃
                    · exact later m' mem unlisted

theorem load_keeps (paramPrefix : String) :
    Keeps (system S rt) (fun _ _ => True) (Chaos.load paramPrefix) w := by
  refine system_observe (fun _ _ _ answered => answered) fun w₁ _ _ params _ => ?_
  cases params <;> trivial

theorem invoke_keeps {settings : Settings} {messages : List Received} (inv : Accounted rt w)
    (accepted : ∀ m ∈ messages, Accepted w m.message) :
    Keeps (system S rt) (fun failed w => ∀ ids, failed = some ids → Reported rt messages ids w)
      (invoke rt settings (messages.map toRecord)) w := by
  have handled : Keeps (system S rt) (fun result w => ∀ failed, result = .ok failed →
      Reported rt messages failed w) (handler rt settings (messages.map toRecord)) w := by
    refine system_sequence inv (load_keeps _) fun chaos w₁ inv₁ moved₁ _ => ?_
    cases chaos with
    | error exc => exact fun _ ok => nomatch ok
    | ok chaos =>
        refine Keeps.mono (fun result w₂ _ ends failed ok => (ends failed ok).2) inv₁
          (handleRecords_keeps messages 0 [] w₁ inv₁ fun m mem => (accepted m mem).grows moved₁)
  refine system_sequence inv handled fun result w₁ _ _ reported ids some => ?_
  cases result with
  | error exc => cases some
  | ok items =>
      simp only [failedIds] at some
      split at some
      · obtain rfl := Option.some.inj some
        exact reported items rfl
      · cases some

theorem cycle_keeps (settings : Settings) (w : World) :
    Keeps (system S rt) (fun _ _ => True) (cycle rt settings) w := by
  refine Keeps.perform_bind fun w₁ _ inv₁ reply w₂ answered => ?_
  obtain ⟨sqs, ⟨rfl, batch⟩, rfl⟩ := answered
  refine ⟨inv₁, Grows.refl w₁, ?_⟩
  rcases reply with err | _ | ⟨first, rest⟩
  · trivial
  · trivial
  · have mem := (batch _ rfl).2
    have accepted : ∀ m ∈ first :: rest, Accepted w₁ m.message := fun m here =>
      inv₁.accepted (mem m here).1
    refine system_sequence inv₁ (invoke_keeps inv₁ accepted) fun failed w₃ inv₃ moved₃ reported => ?_
    cases failed with
    | none => trivial
    | some ids =>
        dsimp only
        split
        · trivial
        · refine Keeps.perform_bind fun w₄ moved₄ inv₄ reply w₅ answered => ?_
          obtain ⟨sqs, deleted, rfl⟩ := answered
          have deletes := Accounted.deletesBatch deleted rfl inv₄ fun receipt listed => by
            obtain ⟨m, done, rfl⟩ := List.mem_map.mp listed
            obtain ⟨here, unlisted⟩ := List.mem_filter.mp done
            refine ⟨m.message, (mem m here).2.symm, ((accepted m here).grows moved₃).grows moved₄, ?_⟩
            exact (reported ids rfl m here (by simpa using unlisted)).grows inv₃.kept moved₄
          exact ⟨deletes.1, deletes.2, trivial⟩

/-! ### Redrive -/

/-- A dead letter shows a message that was accepted. -/
def Shows (w : World) (d : DeadLetter) : Prop :=
  ∃ m, m.messageId = d.receipt.messageId ∧ m.body = d.body ∧ Accepted w m

theorem Shows.grows {w₁ : World} {d : DeadLetter} (shows_ : Shows w d) (moved : Grows w w₁) :
    Shows w₁ d := by
  obtain ⟨m, id, body, accepted⟩ := shows_
  exact ⟨m, id, body, accepted.grows moved⟩

theorem peekLoop_shows (limit fuel empty : Nat) {out : List DeadLetter} (held : ∀ d ∈ out, Shows w d) :
    Keeps (system S rt) (fun result w => ∀ found, result = some found → ∀ d ∈ found.1, Shows w d)
      (peekLoop limit fuel empty out) w := by
  refine peekLoop_keeps rfl Grows.refl (fun _ _ _ moved shows_ => shows_.grows moved) ?_ limit fuel
    empty out w held
  exact fun _ m inv queued receipt => ⟨m.message, receipt.symm, rfl, inv.accepted queued⟩

theorem release_keeps {post : Unit → World → Prop} (any : ∀ w, post () w) :
    ∀ (messages : List DeadLetter) (w : World), Keeps (system S rt) post (release messages) w := by
  intro messages
  induction messages with
  | nil => exact fun w => any w
  | cons m rest ih =>
      exact fun w => system_observe (fun _ _ _ answered => answered) fun w₁ _ _ _ _ => ih w₁

theorem released_keeps (messages : List DeadLetter) (w : World) :
    Keeps (system S rt) (fun _ _ => True) (release messages) w :=
  release_keeps (fun _ => trivial) messages w

/-- A redrive deletes a message only once its copy was accepted. -/
theorem redriveLoop_keeps (all dryRun : Bool) :
    ∀ (messages : List DeadLetter) (result : RedriveResult) (keep : List DeadLetter) (w : World),
      Accounted rt w → (∀ d ∈ messages, Shows w d) →
      Keeps (system S rt) (fun _ _ => True) (redriveLoop all dryRun result keep messages) w := by
  have released : ∀ (messages : List DeadLetter) (value : RedriveResult × Option String) (w : World),
      Accounted rt w → Keeps (system S rt) (fun _ _ => True)
        (release messages >>= fun _ => (pure value : Act _)) w := fun messages value w inv =>
    system_sequence inv (released_keeps messages w)
      fun _ _ _ _ _ => trivial
  intro messages
  induction messages with
  | nil => exact fun result keep w inv _ => released keep _ w inv
  | cons d rest ih =>
      intro result keep w inv held
      have others := fun d' mem => held d' (List.mem_cons_of_mem _ mem)
      unfold redriveLoop
      split
      · exact ih _ _ w inv others
      · split
        · exact ih _ _ w inv others
        · refine Keeps.perform_bind fun w₁ moved₁ inv₁ reply w₂ answered => ?_
          obtain ⟨sqs, sent, rfl⟩ := answered
          obtain ⟨inv₂, moved₂⟩ := inv₁.sends sent
          refine ⟨inv₂, moved₂, ?_⟩
          cases reply with
          | error err => exact released _ _ _ inv₂
          | ok value =>
              obtain ⟨m, id, body, accepted⟩ := held d List.mem_cons_self
              rw [← body] at sent
              have accepted₂ := (accepted.grows moved₁).grows moved₂
              have resent := resent_of_sends (accepted.grows moved₁) sent
              refine Keeps.perform_bind fun w₃ moved₃ inv₃ reply w₄ answered => ?_
              obtain ⟨sqs', deleted, rfl⟩ := answered
              have deletes := Accounted.deletesBatch (.cons deleted .nil) rfl inv₃
                fun receipt listed => by
                  obtain rfl := List.mem_singleton.mp listed
                  exact ⟨m, id, accepted₂.grows moved₃, .inr (resent.grows moved₃.sends)⟩
              refine ⟨deletes.1, deletes.2, ?_⟩
              cases reply with
              | error err => exact released _ _ _ deletes.1
              | ok value =>
                  refine ih _ _ _ deletes.1 fun d' mem => ?_
                  exact (((others d' mem).grows moved₁).grows moved₂).grows
                    (moved₃.trans deletes.2)

theorem redrive_keeps (fuel : Nat) (all dryRun : Bool) (inv : Accounted rt w) :
    Keeps (system S rt) (fun _ _ => True) (redrive fuel all dryRun) w := by
  refine system_sequence inv (peekLoop_shows 1000 fuel 0 fun _ mem => nomatch mem)
    fun found w₁ inv₁ _ shows_ => ?_
  rcases found with _ | ⟨msgs, _ | err⟩
  · trivial
  · exact system_sequence inv₁ (redriveLoop_keeps all dryRun msgs ⟨[], []⟩ [] w₁ inv₁ (shows_ _ rfl))
      fun _ _ _ _ _ => trivial
  · exact system_sequence inv₁ (released_keeps msgs w₁) fun _ _ _ _ _ => trivial

end Programs

/-! ### Every interleaving -/

/-- What happens around the programs: a producer's send is accepted by the main
queue, SQS moves a message to the DLQ, and whatever is neither in the ERP nor in
SQS changes. -/
inductive Around : World → World → Prop where
  | produce {w : World} {body : String} {attributes : List (String × String)}
      {sqs : Sqs.State Queue} : Sent .main body attributes w.sqs sqs → Around w { w with sqs := sqs }
  | park {w : World} {m : Message} : m ∈ w.sqs.queue .main →
      Around w { w with sqs := w.sqs.move .main .deadLetters m }
  | elsewhere {w w' : World} : w'.erp = w.erp → w'.sqs = w.sqs → Around w w'

/-- The programs that may be started. -/
inductive Starts (rt : Runtime) : Unit → Act Unit → Prop where
  | cycle (settings : Settings) : Starts rt () (cycle rt settings)
  | redrive (fuel : Nat) (all dryRun : Bool) :
      Starts rt () (redrive fuel all dryRun >>= fun _ => pure ())

theorem around_keeps {rt : Runtime} {w w' : World} (inv : Accounted rt w) (around : Around w w') :
    Accounted rt w' ∧ Grows w w' := by
  cases around with
  | produce sent =>
      obtain ⟨m, -, -, fresh, rfl⟩ := sent
      exact ⟨inv.push fresh, Extends.refl _, List.prefix_append _ _⟩
  | park here => exact ⟨inv.move (by decide) here, Extends.refl _, List.prefix_rfl⟩
  | elsewhere sameErp sameSqs =>
      obtain ⟨erp, sqs, parameters, org, serverTimes, reads⟩ := w'
      obtain rfl : erp = w.erp := sameErp
      obtain rfl : sqs = w.sqs := sameSqs
      exact ⟨⟨inv.kept, inv.wellFormed, inv.each⟩, Extends.refl _, List.prefix_rfl⟩

theorem accounted_start {rt : Runtime} {w : World} (noRows : w.erp = Dynamo.State.empty)
    (noMessages : w.sqs = Sqs.State.empty) : Accounted rt w where
  kept := noRows ▸ kept_empty
  wellFormed := noMessages ▸ wellFormed_empty
  each := by
    rintro m ⟨q, mem⟩
    rw [noMessages] at mem
    cases mem

theorem accounted_reaches {S : Services} {rt : Runtime} {w : World}
    {s : Pool World Unit Request.Answer Unit} (start : Accounted rt w)
    (reached : Pool.Reaches S.Answers Around (Starts rt) (Pool.idle w) s) : Accounted rt s.world := by
  have sound : Pool.Sound (system S rt) (fun _ _ _ => True) s := by
    refine (Pool.sound_idle start).reaches (fun _ _ _ _ _ _ _ => trivial)
      (fun _ _ inv around => around_keeps inv around) (fun _ _ guar => guar)
      (fun _ program v starts inv => ?_) reached
    cases starts with
    | cycle settings => exact cycle_keeps settings v
    | redrive fuel all dryRun =>
        exact system_sequence inv (redrive_keeps fuel all dryRun inv) fun _ _ _ _ _ => trivial
  exact sound.inv

/-- In every state reached, a body that the main queue ever accepted is on the
main queue or the DLQ, or the ERP stores its order at its version or a newer one. -/
theorem no_message_lost {S : Services} {rt : Runtime} {w : World}
    {s : Pool World Unit Request.Answer Unit} (noRows : w.erp = Dynamo.State.empty)
    (noMessages : w.sqs = Sqs.State.empty)
    (reached : Pool.Reaches S.Answers Around (Starts rt) (Pool.idle w) s) {m : Message}
    (put : (Queue.main, m) ∈ s.world.sqs.accepted) :
    (∃ q, ∃ m' ∈ s.world.sqs.queue q, m'.body = m.body) ∨ Applied rt s.world.erp m.body :=
  (accounted_reaches (accounted_start noRows noMessages) reached).body ⟨_, put⟩

/-! ### A run with a cycle, a move and a redrive -/

section OneRun

variable {S : Services} {rt : Runtime} {env : World → World → Prop} {w : World}

/-- One delivery of a message. -/
def handed (m : Message) : Received := ⟨m, ⟨m.messageId, 0⟩, none⟩

theorem receives_handed {q : Queue} (ms : List Message) (few : ms.length ≤ 10)
    (here : ∀ m ∈ ms, m ∈ w.sqs.queue q) {count : Nat} :
    S.Answers (.receiveMessage q count) w (.ok (ms.map handed)) w := by
  refine ⟨w.sqs, ⟨rfl, ?_⟩, rfl⟩
  rintro batch ⟨⟩
  refine ⟨by simpa using few, fun r mem => ?_⟩
  obtain ⟨m, listed, rfl⟩ := List.mem_map.mp mem
  exact ⟨here m listed, rfl⟩

theorem sends_push {q : Queue} {m : Message} (fresh : ¬ w.sqs.Known m.messageId) :
    S.Answers (.sendMessage q m.body m.attributes) w (.ok ()) { w with sqs := w.sqs.push q m } :=
  ⟨_, ⟨.inr ⟨m, rfl, rfl, fresh, rfl⟩, fun _ => ⟨m, rfl, rfl, fresh, rfl⟩⟩, rfl⟩

/-- The copy of a message that the worker parks at the epoch. -/
def parkedCopy (m : Message) (reason detail messageId : String) : Message where
  messageId := messageId
  body := m.body
  attributes := deadLetterAttributes (toRecord (handed m)) reason
    (Exn.permanentError reason detail).text (eventKey (toRecord (handed m))) 0
  sentTimestamp := 0

/-- A worker that receives a message with no order in it parks a copy and deletes it. -/
theorem parked_exec (settings : Settings) {m copy : Message} {reason detail messageId : String}
    (queued : m ∈ w.sqs.queue .main)
    (refused : orderOf rt m.body = .error (.permanentError reason detail))
    (made : copy = parkedCopy m reason detail messageId) (fresh : ¬ w.sqs.Known messageId) :
    Exec S.Answers env (cycle rt settings) w ()
      { w with sqs := (w.sqs.push .deadLetters copy).remove .main m.messageId } := by
  let parked : World := { w with sqs := w.sqs.push .deadLetters copy }
  have got : S.Answers (.receiveMessage .main batchSize) w (.ok [handed m]) w :=
    receives_handed [m] (by simp) (by simpa using queued)
  have asked : S.Answers (.getParameters [settings.paramPrefix ++ "/chaos/erp_fail_rate",
      settings.paramPrefix ++ "/chaos/worker_crash_after"]) w (.error "") w := rfl
  have timed : S.Answers .remainingTime w none w := rfl
  have told : S.Answers .utcNow w (0 : Int) w := rfl
  have sent : S.Answers (.sendMessage .deadLetters copy.body copy.attributes) w (.ok ()) parked :=
    sends_push (made ▸ fresh)
  have handled : Exec S.Answers env (handleRecord rt settings (toRecord (handed m)) .off) w
      (.ok .deadLettered) parked := by
    have copied : Exec S.Answers env (deadLetter (toRecord (handed m)) reason
        (Exn.permanentError reason detail).text (eventKey (toRecord (handed m)))) w true parked := by
      rw [made] at sent
      exact .call .refl told (.call .refl sent .ret)
    have failed : orderOf rt (toRecord (handed m)).body = _ := refused
    rw [handleRecord, process_of_error .off failed, Prog.pure_bind_eq]
    simp only [handleFailure, Worker.classify]
    exact copied.bind .ret
  have inTime : Exec S.Answers env (outOfTime settings) w false w := .call .refl timed .ret
  have looped : Exec S.Answers env (handleRecords rt settings .off 0 [] [toRecord (handed m)]) w
      (.ok []) parked := by
    unfold handleRecords
    exact inTime.bind (handled.bind .ret)
  have loaded : Exec S.Answers env (Chaos.load settings.paramPrefix) w (.ok .off) w :=
    .call .refl asked .ret
  have answered : Exec S.Answers env (handler rt settings [toRecord (handed m)]) w (.ok []) parked := by
    unfold handler
    exact loaded.bind looped
  have invoked : Exec S.Answers env (invoke rt settings [toRecord (handed m)]) w (some []) parked := by
    unfold invoke
    exact answered.bind .ret
  have deleted : S.Answers (.deleteMessageBatch .main [⟨m.messageId, 0⟩]) parked (.ok ())
      { w with sqs := (w.sqs.push .deadLetters copy).remove .main m.messageId } :=
    ⟨_, .cons (.inr rfl) .nil, rfl⟩
  unfold cycle
  exact .call .refl got (invoked.bind (.call .refl deleted .ret))

/-- The copy of a message that a redrive sends back. -/
def resentCopy (m : Message) (messageId : String) : Message :=
  ⟨messageId, m.body, redriveAttributes (toDeadLetter (handed m)), 0⟩

/-- A default redrive that receives a parked copy and a message that SQS moved sends the
second one back. -/
theorem redriven_exec {copy m : Message} {messageId : String}
    (parked : copy ∈ w.sqs.queue .deadLetters) (moved : m ∈ w.sqs.queue .deadLetters)
    (reason : (toDeadLetter (handed copy)).permanent = true)
    (none_ : (toDeadLetter (handed m)).permanent = false)
    (apart : m.messageId ≠ copy.messageId) (older : copy.sentTimestamp ≤ m.sentTimestamp)
    (fresh : ¬ w.sqs.Known messageId) :
    Exec S.Answers env (redrive 5 false false) w
      (some (⟨[toDeadLetter (handed m)], [toDeadLetter (handed copy)]⟩, none))
      { w with sqs := (w.sqs.push .main (resentCopy m messageId)).remove .deadLetters m.messageId } := by
  have got : S.Answers (.receiveMessage .deadLetters 10) w (.ok [handed copy, handed m]) w :=
    receives_handed [copy, m] (by simp) (by simp [parked, moved])
  have empty : S.Answers (.receiveMessage .deadLetters 10) w (.ok []) w :=
    receives_handed [] (by simp) (by simp)
  let both := [toDeadLetter (handed copy), toDeadLetter (handed m)]
  have found : collect [] [handed copy, handed m] = both := by
    simp [both, collect, toDeadLetter, handed, apart]
  have sorted : both.insertionSort (fun a b => a.sentAt ≤ b.sentAt) = both :=
    List.Pairwise.insertionSort_eq (by simpa [both, toDeadLetter, handed] using older)
  have peeked : Exec S.Answers env (peek 5 1000) w (some (both, none)) w := by
    have looked : Exec S.Answers env (peekLoop 1000 4 0 both) w
        (some (both.insertionSort fun a b => a.sentAt ≤ b.sentAt, none)) w :=
      .call .refl empty (.call .refl empty .ret)
    rw [sorted] at looked
    have rest : Exec S.Answers env (peekLoop 1000 4 0 (collect [] [handed copy, handed m])) w
        (some (both, none)) w := found ▸ looked
    exact .call .refl got rest
  have sent : S.Answers (.sendMessage .main m.body (redriveAttributes (toDeadLetter (handed m)))) w (.ok ())
      { w with sqs := w.sqs.push .main (resentCopy m messageId) } :=
    sends_push (m := resentCopy m messageId) fresh
  have deleted : S.Answers (.deleteMessage .deadLetters ⟨m.messageId, 0⟩)
      { w with sqs := w.sqs.push .main (resentCopy m messageId) } (.ok ())
      { w with sqs := (w.sqs.push .main (resentCopy m messageId)).remove .deadLetters m.messageId } :=
    ⟨_, .inr rfl, rfl⟩
  have released : S.Answers (.changeMessageVisibility .deadLetters ⟨copy.messageId, 0⟩ 0)
      { w with sqs := (w.sqs.push .main (resentCopy m messageId)).remove .deadLetters m.messageId }
      (.ok ()) _ := rfl
  have looped : Exec S.Answers env (redriveLoop false false ⟨[], []⟩ [] both) w
      (⟨[toDeadLetter (handed m)], [toDeadLetter (handed copy)]⟩, none)
      { w with sqs := (w.sqs.push .main (resentCopy m messageId)).remove .deadLetters m.messageId } := by
    rw [redriveLoop, reason, redriveLoop, none_]
    exact .call .refl sent (.call .refl deleted (.call .refl released .ret))
  exact peeked.bind (looped.bind .ret)

end OneRun

/-- A message in which the worker finds no order. -/
def garbled : Message := ⟨"m-1", "x", [], 0⟩

/-- A message that is never handed to the worker. -/
def stuck : Message := ⟨"m-2", "", [], 0⟩

/-- A cycle parks one of them, SQS moves the other, and a redrive sends that one back: only
copies are left. -/
theorem parked_and_redriven (S : Services) :
    ∃ s : Pool World Unit Request.Answer Unit,
      Pool.Reaches S.Answers Around (Starts ⟨fun _ => true, 1000⟩) (Pool.idle .empty) s ∧
      s.running = [] ∧ s.finished = [((), ()), ((), ())] ∧
      (∀ m ∈ [garbled, stuck], (Queue.main, m) ∈ s.world.sqs.accepted) ∧
      (∀ m ∈ [garbled, stuck], ∀ q, m ∉ s.world.sqs.queue q) ∧
      (∃ copy ∈ s.world.sqs.queue .deadLetters, (toDeadLetter (handed copy)).permanent = true) ∧
      resentCopy stuck "m-4" ∈ s.world.sqs.queue .main := by
  obtain ⟨copy, copied⟩ : ∃ copy, copy = parkedCopy garbled "malformed_json"
      "Expecting value: line 1 column 1 (char 0)" "m-3" := ⟨_, rfl⟩
  let w₁ : World := { World.empty with sqs := State.empty.push .main garbled }
  let w₂ : World := { w₁ with sqs := w₁.sqs.push .main stuck }
  let w₃ : World := { w₂ with sqs := (w₂.sqs.push .deadLetters copy).remove .main garbled.messageId }
  let w₄ : World := { w₃ with sqs := w₃.sqs.move .main .deadLetters stuck }
  let w₅ : World :=
    { w₄ with sqs := (w₄.sqs.push .main (resentCopy stuck "m-4")).remove .deadLetters stuck.messageId }
  have ids : copy.messageId = "m-3" := by rw [copied]; rfl
  have first : Around World.empty w₁ :=
    .produce ⟨garbled, rfl, rfl, by simp [State.Known, World.empty, State.empty], rfl⟩
  have second : Around w₁ w₂ :=
    .produce ⟨stuck, rfl, rfl, by simp [State.Known, w₁, garbled, stuck, State.empty], rfl⟩
  have parked : Exec S.Answers Around (cycle ⟨fun _ => true, 1000⟩ Worker.standard) w₂ () w₃ := by
    refine parked_exec Worker.standard ?_ (orderOf_letter _) copied ?_
    · simp [w₂, w₁]
    · simp [State.Known, w₂, w₁, garbled, stuck, State.empty]
  have onMain : stuck ∈ w₃.sqs.queue .main := by
    refine mem_remove.mpr ⟨?_, fun _ => by decide⟩
    simp [w₂, mem_push]
  have onDlq : copy ∈ w₄.sqs.queue .deadLetters ∧ stuck ∈ w₄.sqs.queue .deadLetters := by
    simp [w₄, w₃, mem_move, mem_remove]
  have permanent : (toDeadLetter (handed copy)).permanent = true := by
    rw [copied]
    rfl
  have redriven : Exec S.Answers Around (redrive 5 false false) w₄
      (some (⟨[toDeadLetter (handed stuck)], [toDeadLetter (handed copy)]⟩, none)) w₅ := by
    refine redriven_exec onDlq.1 onDlq.2 permanent rfl ?_ ?_ ?_
    · rw [ids]
      decide
    · rw [copied]
      exact le_rfl
    · simp [State.Known, w₄, w₃, w₂, w₁, garbled, stuck, State.empty, ids]
  have replaced : ∀ q, ∀ m ∈ w₅.sqs.queue q, m.messageId = "m-3" ∨ m.messageId = "m-4" := by
    intro q m here
    obtain ⟨here, unsent⟩ := mem_remove.mp here
    obtain here | ⟨-, rfl⟩ := mem_push.mp here
    · obtain ⟨here, unmoved⟩ | ⟨onDlq, rfl⟩ := (mem_move (by decide)).mp here
      · obtain ⟨here, undeleted⟩ := mem_remove.mp here
        obtain here | ⟨-, rfl⟩ := mem_push.mp here
        · obtain here | ⟨onMain, rfl⟩ := mem_push.mp here
          · obtain here | ⟨onMain, rfl⟩ := mem_push.mp here
            · cases here
            · exact absurd rfl (undeleted onMain)
          · exact absurd rfl (unmoved onMain)
        · exact .inl ids
      · exact absurd rfl (unsent onDlq)
    · exact .inr rfl
  refine ⟨⟨w₅, [], [((), ()), ((), ())]⟩, ?_, rfl, rfl, ?_, ?_, ⟨copy, ?_, permanent⟩, ?_⟩
  · refine .head (.environment first) (.head (.environment second) ?_)
    refine (Pool.reaches_exec (Starts.cycle Worker.standard) parked [] []).trans ?_
    refine .head (.environment (.park onMain)) ?_
    exact Pool.reaches_exec (Starts.redrive 5 false false) (redriven.bind .ret) [] _
  · simp [w₅, w₄, w₃, w₂, w₁]
  · intro m mem q here
    rcases replaced q m here with same | same <;>
      rcases List.mem_pair.mp mem with rfl | rfl <;> exact absurd same (by decide)
  · refine mem_remove.mpr ⟨mem_push.mpr (.inl onDlq.1), fun _ => ?_⟩
    rw [ids]
    decide
  · exact mem_remove.mpr ⟨mem_push.mpr (.inr ⟨rfl, rfl⟩), fun onDlq => absurd onDlq (by decide)⟩

/-- The parked message and the redriven one: each body is still there, or its order is in the
ERP. -/
theorem no_message_lost_redriven :
    ∃ s : Pool World Unit Request.Answer Unit,
      Pool.Reaches (Services.Answers ⟨fun _ => 0⟩) Around (Starts ⟨fun _ => true, 1000⟩)
        (Pool.idle .empty) s ∧
      s.running = [] ∧ s.finished = [((), ()), ((), ())] ∧
      (∀ m ∈ [garbled, stuck], ∀ q, m ∉ s.world.sqs.queue q) ∧
      (∃ copy ∈ s.world.sqs.queue .deadLetters, (toDeadLetter (handed copy)).permanent = true) ∧
      resentCopy stuck "m-4" ∈ s.world.sqs.queue .main ∧
      ∀ m ∈ [garbled, stuck], (∃ q, ∃ m' ∈ s.world.sqs.queue q, m'.body = m.body) ∨
        Applied ⟨fun _ => true, 1000⟩ s.world.erp m.body := by
  obtain ⟨s, reached, idle, both, put, gone, parked, resent⟩ := parked_and_redriven ⟨fun _ => 0⟩
  refine ⟨s, reached, idle, both, gone, parked, resent, fun m mem => ?_⟩
  exact no_message_lost rfl rfl reached (put m mem)

end Relay.Delivery
