import Relay.Effect.Lockstep
import Relay.Erp.Verdict
import Relay.Worker.App

/-!
The partial batch response, record by record.

`Divides` cuts a run of the batch loop that returns into the parts of the records
it started, each a run of `handle_record`, and the records it handed back. A
record's id is left out of the response exactly when its part is `Done`.
-/

namespace Relay.Worker

open Relay.Effect Relay.Platform Relay.Python Relay.Erp Relation

/-! ### The calls of one record -/

/-- The calls of `process`, which writes nothing but its own order. -/
def Writes (mine : Order → Prop) : Request → Prop
  | .transactWriteItems items => ∃ order now, mine order ∧ items = transaction order now
  | .getItem table key => ∃ order, mine order ∧ table = .orders ∧ key = order.orderId
  | .utcNow => True
  | .random => True
  | _ => False

/-- The calls after a failure. -/
def FollowsUp : Request → Prop
  | .sendMessage _ _ _ => True
  | .changeMessageVisibility _ _ _ => True
  | .utcNow => True
  | .random => True
  | _ => False

def Handles (mine : Order → Prop) (request : Request) : Prop := Writes mine request ∨ FollowsUp request

theorem writes_classify {mine : Order → Prop} {order : Order} (own : mine order)
    (printable : Char → Bool) (response : Dynamo.ErrorResponse) :
    Calls (Writes mine) (Erp.classify printable response order) := by
  unfold Erp.classify
  split
  · split
    · split
      · split
        · exact .ret _
        · apply Calls.perform_bind ⟨order, own, rfl, rfl⟩
          intro stored
          cases stored <;> exact .ret _
      · exact .ret _
    · exact .ret _
  · split
    · exact .ret _
    · split <;> exact .ret _

theorem writes_maybeFailErp (mine : Order → Prop) (chaos : Chaos) :
    Calls (Writes mine) chaos.maybeFailErp := by
  unfold Chaos.maybeFailErp
  split
  · exact Calls.perform_bind trivial fun _ => .ret _
  · exact .ret _

theorem writes_process (rt : Runtime) (record : Record) (chaos : Chaos) :
    Calls (Writes fun order => orderOf rt record.body = .ok order) (process rt record chaos) := by
  unfold process
  split
  · exact .ret _
  · rename_i order mapped
    apply (writes_maybeFailErp _ chaos).bind
    intro passed
    cases passed with
    | error exc => exact .ret _
    | ok value =>
        apply Calls.perform_bind trivial
        intro now
        apply Calls.perform_bind ⟨order, isoformat now, mapped, rfl⟩
        intro reply
        rcases reply with (response | ⟨typeName, message⟩) | _
        · exact writes_classify mapped _ response
        · exact .ret _
        · exact .ret _

/-- The delay of a retry sends nothing. -/
def Delays : Request → Prop
  | .changeMessageVisibility _ _ _ => True
  | .random => True
  | _ => False

theorem delays_retry (settings : Settings) (record : Record) :
    Calls Delays (do
      match ← nextVisibilityTimeout (record.approximateReceiveCount.getD 1) settings.backoffBase
          settings.backoffCap with
      | .error exc => return .error exc
      | .ok delay => do
          delayRedelivery record delay
          return .ok .retry : Act (Except Exn Outcome)) := by
  apply Calls.bind
  · unfold nextVisibilityTimeout
    split
    · exact .ret _
    · exact Calls.perform_bind trivial fun _ => .ret _
  · intro delay
    cases delay with
    | error exc => exact .ret _
    | ok delay => exact Calls.bind (Calls.perform_bind trivial fun _ => .ret _) fun _ => .ret _

theorem followsUp_handleFailure (settings : Settings) (record : Record) (exc : Exn) :
    Calls FollowsUp (handleFailure settings record exc) := by
  unfold handleFailure
  split
  · apply Calls.bind
    · apply Calls.perform_bind trivial
      intro now
      apply Calls.perform_bind trivial
      intro reply
      cases reply <;> exact .ret _
    · exact fun _ => .ret _
  · apply (delays_retry settings record).mono
    intro request delays
    cases request <;> first | exact delays.elim | trivial

theorem handles_handleRecord (rt : Runtime) (settings : Settings) (record : Record) (chaos : Chaos) :
    Calls (Handles fun order => orderOf rt record.body = .ok order)
      (handleRecord rt settings record chaos) := by
  apply ((writes_process rt record chaos).mono fun _ => Or.inl).bind
  intro result
  cases result with
  | ok value => exact .ret _
  | error exc => exact (followsUp_handleFailure settings record exc).mono fun _ => Or.inr

/-! ### How one record ends -/

section Runs

variable {World : Type} {answers : (request : Request) → World → request.Answer → World → Prop}
  {env : World → World → Prop} {rt : Runtime} {settings : Settings} {chaos : Chaos} {record : Record}

/-- The body went to the DLQ as it is, without an error. -/
def Parked (record : Record) (calls : List (Exchange Request.Answer)) : Prop :=
  ∃ attributes, ⟨.sendMessage .deadLetters record.body attributes, .ok ()⟩ ∈ calls

/-- A run of `handle_record` is one of `process`, and of what follows its failure. -/
theorem traced_handleRecord {w w' : World} {calls : List (Exchange Request.Answer)}
    {result : Except Exn Outcome}
    (run : Traced answers env (handleRecord rt settings record chaos) w calls result w') :
    ∃ first w₁ before after, calls = before ++ after ∧
      Traced answers env (process rt record chaos) w before first w₁ ∧
      ((∃ value, first = .ok value ∧ after = [] ∧ result = .ok (.result value) ∧ w' = w₁) ∨
        ∃ exc, first = .error exc ∧ Traced answers env (handleFailure settings record exc) w₁ after result w') := by
  obtain ⟨first, w₁, before, after, rfl, start, rest⟩ := Traced.of_bind run
  refine ⟨first, w₁, before, after, rfl, start, ?_⟩
  cases first with
  | ok value =>
      obtain ⟨rfl, rfl, rfl⟩ := Traced.of_ret rest
      exact .inl ⟨value, rfl, rfl, rfl, rfl⟩
  | error exc => exact .inr ⟨exc, rfl, rest⟩

/-- A failed record is acknowledged exactly when it was parked. -/
theorem parked_iff {w w' : World} {calls : List (Exchange Request.Answer)} {exc : Exn} {outcome : Outcome}
    (run : Traced answers env (handleFailure settings record exc) w calls (.ok outcome) w') :
    outcome.isRetry = false ↔ Parked record calls := by
  unfold handleFailure at run
  split at run
  · obtain ⟨parked, w₁, before, after, rfl, sends, rest⟩ := Traced.of_bind run
    obtain ⟨rfl, ended, rfl⟩ := Traced.of_ret rest
    obtain ⟨w₂, now, w₃, later, rfl, -, -, sends⟩ := Traced.of_perform_bind sends
    obtain ⟨w₄, reply, w₅, later', rfl, -, -, sends⟩ := Traced.of_perform_bind sends
    cases reply with
    | ok done =>
        obtain ⟨rfl, rfl, rfl⟩ := Traced.of_ret sends
        cases ended
        constructor
        · intro _
          exact ⟨_, List.mem_cons_of_mem _ List.mem_cons_self⟩
        · exact fun _ => rfl
    | error message =>
        obtain ⟨rfl, rfl, rfl⟩ := Traced.of_ret sends
        cases ended
        constructor
        · rintro ⟨⟩
        · rintro ⟨attributes, mem⟩
          simp at mem
  · have quiet := (delays_retry settings record).exchanges run
    obtain ⟨delay, w₁, before, after, rfl, -, rest⟩ := Traced.of_bind run
    have retried : outcome = .retry := by
      cases delay with
      | error exc =>
          obtain ⟨-, ended, -⟩ := Traced.of_ret rest
          cases ended
      | ok delay =>
          simp only at rest
          obtain ⟨done, w₂, _, _, _, _, rest⟩ := Traced.of_bind rest
          obtain ⟨-, ended, -⟩ := Traced.of_ret rest
          cases ended
          rfl
    constructor
    · rw [retried]
      rintro ⟨⟩
    · rintro ⟨attributes, mem⟩
      exact (quiet _ mem).elim

end Runs

/-! ### A batch -/

/-- A record's part of a run of the handler. -/
structure Part (World : Type) where
  record : Record
  before : World
  calls : List (Exchange Request.Answer)
  outcome : Outcome
  after : World

section Batches

variable {World : Type} (answers : (request : Request) → World → request.Answer → World → Prop)
  (env : World → World → Prop) (rt : Runtime) (settings : Settings) (chaos : Chaos)

/-- A run of the loop that returns, from the `n`-th record on: the parts of the records it
started, the records it handed back, and its calls. -/
inductive Divides : Nat → World → List Record → List (Part World) → List Record →
    List (Exchange Request.Answer) → World → Prop where
  | finished {n : Nat} {w : World} : Divides n w [] [] [] [] w
  | outOfTime {n : Nat} {w w' : World} {record : Record} {rest : List Record}
      {calls : List (Exchange Request.Answer)} :
      Traced answers env (outOfTime settings) w calls true w' →
      Divides n w (record :: rest) [] (record :: rest) calls w'
  | started {n : Nat} {w w' : World} {part : Part World} {rest left : List Record}
      {parts : List (Part World)} {asked later : List (Exchange Request.Answer)} :
      Traced answers env (outOfTime settings) w asked false part.before →
      Traced answers env (handleRecord rt settings part.record chaos) part.before part.calls
        (.ok part.outcome) part.after →
      chaos.maybeCrash (n + 1) = .ok () → Divides (n + 1) part.after rest parts left later w' →
      Divides n w (part.record :: rest) (part :: parts) left (asked ++ (part.calls ++ later)) w'

end Batches

/-- The ids that a division reports as failed. -/
def reported {World : Type} (parts : List (Part World)) (left : List Record) : List String :=
  (parts.filter fun part => part.outcome.isRetry).map (fun part => part.record.messageId) ++
    left.map Record.messageId

section Division

variable {World : Type} {answers : (request : Request) → World → request.Answer → World → Prop}
  {env : World → World → Prop} {rt : Runtime} {settings : Settings} {chaos : Chaos}

theorem Divides.records {n : Nat} {w w' : World} {records left : List Record} {parts : List (Part World)}
    {calls : List (Exchange Request.Answer)}
    (divides : Divides answers env rt settings chaos n w records parts left calls w') :
    records = parts.map Part.record ++ left := by
  induction divides with
  | finished => rfl
  | outOfTime _ => rfl
  | started _ _ _ _ ih => rw [ih, List.map_cons, List.cons_append]

/-- Every run of the loop that returns has its division, and reports its ids. -/
theorem divides_of_run {records : List Record} {n : Nat} {failures ids : List String} {w w' : World}
    {calls : List (Exchange Request.Answer)}
    (run : Traced answers env (handleRecords rt settings chaos n failures records) w calls (.ok ids) w') :
    ∃ parts left, Divides answers env rt settings chaos n w records parts left calls w' ∧
      ids = failures ++ reported parts left := by
  induction records generalizing n failures w calls with
  | nil =>
      obtain ⟨rfl, ended, rfl⟩ := Traced.of_ret run
      cases ended
      exact ⟨[], [], .finished, by simp [reported]⟩
  | cons record rest ih =>
      obtain ⟨out, w₁, asked, after, rfl, asks, run⟩ := Traced.of_bind run
      cases out with
      | true =>
          obtain ⟨rfl, ended, rfl⟩ := Traced.of_ret run
          cases ended
          rw [List.append_nil]
          exact ⟨[], record :: rest, .outOfTime asks, by simp [reported]⟩
      | false =>
          obtain ⟨result, w₂, handled, later, rfl, handles, run⟩ := Traced.of_bind run
          cases result with
          | error exc =>
              obtain ⟨-, ended, -⟩ := Traced.of_ret run
              cases ended
          | ok outcome =>
              simp only at run
              cases crash : chaos.maybeCrash (n + 1) with
              | error exc =>
                  rw [crash] at run
                  obtain ⟨-, ended, -⟩ := Traced.of_ret run
                  cases ended
              | ok done =>
                  rw [crash] at run
                  obtain ⟨parts, left, divides, rfl⟩ := ih run
                  let part : Part World := ⟨record, w₁, handled, outcome, w₂⟩
                  have all := @Divides.started _ _ _ _ _ _ _ _ _ part _ _ _ _ _ asks handles crash divides
                  refine ⟨part :: parts, left, all, ?_⟩
                  cases retry : outcome.isRetry <;> simp [reported, retry, part]

theorem reported_sublist (parts : List (Part World)) (left : List Record) :
    (reported parts left).Sublist ((parts.map Part.record ++ left).map Record.messageId) := by
  rw [reported, List.map_append, List.map_map]
  exact (List.filter_sublist.map _).append (List.Sublist.refl _)

/-- Of records with distinct ids, a started one is reported exactly when its part says so. -/
theorem mem_reported_iff {parts : List (Part World)} {left : List Record}
    (distinct : ((parts.map Part.record ++ left).map Record.messageId).Nodup) {part : Part World}
    (there : part ∈ parts) :
    part.record.messageId ∈ reported parts left ↔ part.outcome.isRetry = true := by
  rw [List.map_append, List.map_map] at distinct
  obtain ⟨started, -, apart⟩ := List.nodup_append.mp distinct
  constructor
  · intro listed
    rcases List.mem_append.mp listed with listed | listed
    · obtain ⟨other, kept, id⟩ := List.mem_map.mp listed
      obtain ⟨here, retry⟩ := List.mem_filter.mp kept
      obtain rfl := List.inj_on_of_nodup_map started here there id
      exact retry
    · obtain ⟨other, here, id⟩ := List.mem_map.mp listed
      exact absurd id.symm (apart _ (List.mem_map_of_mem there) _ (List.mem_map_of_mem here))
  · intro retry
    apply List.mem_append_left
    exact List.mem_map.mpr ⟨part, List.mem_filter.mpr ⟨there, retry⟩, rfl⟩

/-- Exactly the records of the acknowledged parts are left out. -/
theorem not_mem_reported_iff {parts : List (Part World)} {left : List Record}
    (distinct : ((parts.map Part.record ++ left).map Record.messageId).Nodup) {record : Record}
    (mem : record ∈ parts.map Part.record ++ left) :
    record.messageId ∉ reported parts left ↔
      ∃ part ∈ parts, part.record = record ∧ part.outcome.isRetry = false := by
  constructor
  · intro absent
    rcases List.mem_append.mp mem with here | here
    · obtain ⟨part, there, rfl⟩ := List.mem_map.mp here
      rw [mem_reported_iff distinct there, Bool.not_eq_true] at absent
      exact ⟨part, there, rfl, absent⟩
    · exact absurd (List.mem_append_right _ (List.mem_map_of_mem here)) absent
  · rintro ⟨part, there, rfl, acknowledged⟩
    rw [mem_reported_iff distinct there, Bool.not_eq_true]
    exact acknowledged

end Division

/-! ### The response is exact -/

/-- A part may be acknowledged: the order is stored at the record's version or above, or the
body is in the DLQ. -/
def Part.Done (rt : Runtime) (part : Part World) : Prop :=
  (∃ order value version, orderOf rt part.record.body = .ok order ∧ part.outcome = .result value ∧
    VersionAt part.after.erp.db order.orderId version ∧ order.version ≤ version) ∨
  Parked part.record part.calls

section Exact

variable {S : Services} {rt : Runtime} {settings : Settings} {chaos : Chaos}

/-- A call of one record leaves the ERP alone, or commits the record's own order. -/
theorem handles_erp {mine : Order → Prop} {request : Request} {w w' : World} {reply : request.Answer}
    (handles : Handles mine request) (answered : S.Answers request w reply w') :
    w'.erp = w.erp ∨ ∃ order now, mine order ∧ Dynamo.Committed (transaction order now) w.erp w'.erp := by
  cases request with
  | transactWriteItems items =>
      obtain ⟨order, now, own, rfl⟩ := handles.resolve_right id
      obtain ⟨erp, seen, rfl⟩ := answered
      rcases seen.cases with same | committed
      · exact .inl same
      · exact .inr ⟨order, now, own, committed⟩
  | getItem table key => exact .inl (congrArg World.erp answered.1)
  | sendMessage queue body attributes =>
      obtain ⟨sqs, -, rfl⟩ := answered
      exact .inl rfl
  | changeMessageVisibility queue receipt seconds => exact .inl (congrArg World.erp answered)
  | utcNow => exact .inl (congrArg World.erp answered)
  | random => exact .inl (congrArg World.erp answered.1)
  | _ => rcases handles with handles | handles <;> exact handles.elim

theorem handles_versioned {mine : Order → Prop} {request : Request} {w w' : World} {reply : request.Answer}
    (handles : Handles mine request) (answered : S.Answers request w reply w')
    (versioned : Versioned w.erp.db) : Versioned w'.erp.db := by
  rcases handles_erp handles answered with same | ⟨order, now, -, committed⟩
  · rwa [same]
  · exact versioned.committed committed

theorem others_versioned {w w' : World} (move : Others w w') (versioned : Versioned w.erp.db) :
    Versioned w'.erp.db := versioned.star (.single move)

theorem traced_versioned {α : Type} {mine : Order → Prop} {program : Act α}
    (handles : Calls (Handles mine) program) {w w' : World} {calls : List (Exchange Request.Answer)}
    {value : α} (run : Traced S.Answers Others program w calls value w') (versioned : Versioned w.erp.db) :
    Versioned w'.erp.db := by
  have moved := Traced.along (fun w w' : World => Versioned w.erp.db → Versioned w'.erp.db)
    (fun _ => id) (fun first second start => second (first start)) (fun _ _ => others_versioned)
    (fun _ _ _ _ => handles_versioned) handles run
  exact moved versioned

/-- What `process` returns is stored at the record's version or above. -/
theorem process_stored {record : Record} {w w' : World} {calls : List (Exchange Request.Answer)}
    {value : WriteResult} (versioned : Versioned w.erp.db)
    (run : Traced S.Answers Others (process rt record chaos) w calls (.ok value) w') :
    ∃ order version, orderOf rt record.body = .ok order ∧ VersionAt w'.erp.db order.orderId version ∧
      order.version ≤ version := by
  unfold process at run
  split at run
  · obtain ⟨-, ended, -⟩ := Traced.of_ret run
    cases ended
  · rename_i order mapped
    have passed : ∃ now w₁ written, Versioned w₁.erp.db ∧
        Traced S.Answers Others (writeOrder rt.printable order now) w₁ written (.ok value) w' := by
      obtain ⟨passes, w₁, _, _, -, chaos_, run⟩ := Traced.of_bind run
      have before := traced_versioned ((writes_maybeFailErp (fun _ => False) chaos).mono fun _ => Or.inl)
        chaos_ versioned
      cases passes with
      | error exc =>
          obtain ⟨-, ended, -⟩ := Traced.of_ret run
          cases ended
      | ok done =>
          obtain ⟨w₂, now, w₃, later, -, moves, answered, run⟩ := Traced.of_perform_bind run
          have told := handles_versioned (.inl trivial : Handles (fun _ => False) .utcNow) answered
            (before.star moves)
          exact ⟨isoformat now, w₃, later, told, run⟩
    obtain ⟨now, w₁, written, before, run⟩ := passed
    have justified := writeOrder_justified before (run.mono fun _ _ _ _ => replies_of_answers S)
    obtain ⟨version, here, le⟩ := justified.acknowledged value rfl w' .refl
    exact ⟨order, version, mapped, here, le⟩

/-- A record is acknowledged exactly when its part is done. -/
theorem part_done_iff {part : Part World} (versioned : Versioned part.before.erp.db)
    (run : Traced S.Answers Others (handleRecord rt settings part.record chaos) part.before part.calls
      (.ok part.outcome) part.after) :
    part.outcome.isRetry = false ↔ part.Done rt := by
  obtain ⟨first, w₁, before, after, all, process_, ends⟩ := traced_handleRecord run
  have unsent : ¬ Parked part.record before := by
    rintro ⟨attributes, mem⟩
    exact ((writes_process rt part.record chaos).exchanges process_ _ mem).elim
  rcases ends with ⟨value, rfl, rfl, ended, same⟩ | ⟨exc, rfl, follows⟩
  · obtain ⟨order, version, mapped, here, le⟩ := process_stored versioned process_
    rw [← same] at here
    constructor
    · exact fun _ => .inl ⟨order, value, version, mapped, Except.ok.inj ended, here, le⟩
    · intro _
      rw [Except.ok.inj ended]
      rfl
  · rw [parked_iff follows]
    constructor
    · rintro ⟨attributes, mem⟩
      exact .inr ⟨attributes, by rw [all]; exact List.mem_append_right _ mem⟩
    · rintro (⟨order, value, version, -, ended, -⟩ | ⟨attributes, mem⟩)
      · exact (parked_iff follows).mp (by rw [ended]; rfl)
      · rw [all] at mem
        exact ⟨attributes, (List.mem_append.mp mem).resolve_left fun mem => unsent ⟨attributes, mem⟩⟩

theorem outOfTime_versioned {w w' : World} {calls : List (Exchange Request.Answer)} {out : Bool}
    (run : Traced S.Answers Others (outOfTime settings) w calls out w') (versioned : Versioned w.erp.db) :
    Versioned w'.erp.db := by
  obtain ⟨w₁, remaining, w₂, later, -, moves, rfl, run⟩ := Traced.of_perform_bind run
  have ended : w' = w₂ := by
    cases remaining with
    | none => exact (Traced.of_ret run).2.2
    | some remaining => exact (Traced.of_ret run).2.2
  rw [ended]
  exact versioned.star moves

theorem Divides.done {n : Nat} {w w' : World} {records left : List Record} {parts : List (Part World)}
    {calls : List (Exchange Request.Answer)}
    (divides : Divides S.Answers Others rt settings chaos n w records parts left calls w')
    (versioned : Versioned w.erp.db) : ∀ part ∈ parts, (part.outcome.isRetry = false ↔ part.Done rt) := by
  induction divides with
  | finished => simp
  | outOfTime _ => simp
  | started asks handles _ _ ih =>
      have before := outOfTime_versioned asks versioned
      intro part mem
      rcases List.mem_cons.mp mem with rfl | mem
      · exact part_done_iff before handles
      · exact ih (traced_versioned (handles_handleRecord _ _ _ _) handles before) part mem

/-- Whatever its calls answer and whatever others write meanwhile, a run of the handler that
returns lists ids of the batch, each once, and leaves out exactly those of the records whose
parts are done. -/
theorem response_exact {records : List Record} {w w' : World} {calls : List (Exchange Request.Answer)}
    {ids : List String} (distinct : (records.map Record.messageId).Nodup)
    (versioned : Versioned w.erp.db)
    (run : Traced S.Answers Others (handler rt settings records) w calls (.ok ids) w') :
    (∀ id ∈ ids, id ∈ records.map Record.messageId) ∧ ids.Nodup ∧
      ∃ chaos loads w₁ parts left handled, calls = loads ++ handled ∧
        Traced S.Answers Others (Chaos.load settings.paramPrefix) w loads (.ok chaos) w₁ ∧
        Divides S.Answers Others rt settings chaos 0 w₁ records parts left handled w' ∧
        ∀ record ∈ records, record.messageId ∉ ids ↔ ∃ part ∈ parts, part.record = record ∧ part.Done rt := by
  obtain ⟨loaded, w₁, loads, handled, rfl, load, rest⟩ := Traced.of_bind run
  cases loaded with
  | error exc =>
      obtain ⟨-, ended, -⟩ := Traced.of_ret rest
      cases ended
  | ok chaos =>
      have before : Versioned w₁.erp.db := by
        obtain ⟨w₂, params, w₃, later, -, moves, rfl, run⟩ := Traced.of_perform_bind load
        have ended : w₁ = w₃ := by
          cases params with
          | error message => exact (Traced.of_ret run).2.2
          | ok params => exact (Traced.of_ret run).2.2
        rw [ended]
        exact versioned.star moves
      obtain ⟨parts, left, divides, rfl⟩ := divides_of_run rest
      have all := divides.records
      have done := divides.done before
      rw [all] at distinct
      rw [List.nil_append]
      have sub := reported_sublist parts left
      refine ⟨?_, distinct.sublist sub, chaos, loads, w₁, parts, left, handled, rfl, load, divides, ?_⟩
      · intro id mem
        rw [all]
        exact sub.subset mem
      · intro record mem
        rw [all] at mem
        rw [not_mem_reported_iff distinct mem]
        constructor
        · rintro ⟨part, here, same, acknowledged⟩
          exact ⟨part, here, same, (done part here).mp acknowledged⟩
        · rintro ⟨part, here, same, finished⟩
          exact ⟨part, here, same, (done part here).mpr finished⟩

end Exact

end Relay.Worker
